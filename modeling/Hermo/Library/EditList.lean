import Mathlib.Data.List.Basic

/-!
# Indexed edits of a list

A producer keeps a list and tells a consumer about it through indexed edits; the consumer keeps a copy and applies
each edit to it.  `Edit.apply` is strict: an append must name the length of the copy and an update an index inside
it, so `patch` answers `none` as soon as producer and consumer disagree about an index.  `patch_map` carries a copy
through an encoding of the entries, and `patch_rebuild` is a whole list sent again after a reset.
-/

namespace EditList

variable {ρ τ : Type}

/-- One edit, with the entry it carries. -/
inductive Edit (ρ : Type) where
  | append (index : Nat) (entry : ρ)
  | update (index : Nat) (entry : ρ)
  | reset
  | skip

/-- Apply one edit to a copy. -/
def Edit.apply (copy : List ρ) : Edit ρ → Option (List ρ)
  | append index entry => if index = copy.length then some (copy ++ [entry]) else none
  | update index entry => if index < copy.length then some (copy.set index entry) else none
  | reset => some []
  | skip => some copy

def Edit.map (f : ρ → τ) : Edit ρ → Edit τ
  | append index entry => append index (f entry)
  | update index entry => update index (f entry)
  | reset => reset
  | skip => skip

/-- Apply a list of edits in order. -/
def patch (copy : List ρ) : List (Edit ρ) → Option (List ρ)
  | [] => some copy
  | e :: es => (e.apply copy).bind (patch · es)

@[simp] theorem patch_nil (copy : List ρ) : patch copy [] = some copy := rfl

@[simp] theorem patch_cons (copy : List ρ) (e : Edit ρ) (es : List (Edit ρ)) :
    patch copy (e :: es) = (e.apply copy).bind (patch · es) := rfl

theorem Edit.apply_map (f : ρ → τ) (copy : List ρ) (e : Edit ρ) :
    (e.map f).apply (copy.map f) = (e.apply copy).map (List.map f) := by
  cases e with
  | append index entry =>
    simp only [Edit.map, Edit.apply, List.length_map]
    split <;> simp
  | update index entry =>
    simp only [Edit.map, Edit.apply, List.length_map]
    split <;> simp [List.map_set]
  | reset => rfl
  | skip => rfl

theorem patch_map (f : ρ → τ) (copy : List ρ) (es : List (Edit ρ)) :
    patch (copy.map f) (es.map (Edit.map f)) = (patch copy es).map (List.map f) := by
  induction es generalizing copy with
  | nil => rfl
  | cons e es ih =>
    simp only [List.map_cons, patch_cons, Edit.apply_map]
    cases e.apply copy with
    | none => rfl
    | some copy' => exact ih copy'

/-- The entries of `rows` as appends that start at index `n`. -/
def appends (n : Nat) : List ρ → List (Edit ρ)
  | [] => []
  | row :: rows => .append n row :: appends (n + 1) rows

theorem patch_appends (copy rows : List ρ) :
    patch copy (appends copy.length rows) = some (copy ++ rows) := by
  induction rows generalizing copy with
  | nil => simp [appends]
  | cons row rows ih =>
    have key := ih (copy ++ [row])
    rw [List.length_append, List.length_singleton, List.append_assoc] at key
    simpa [appends, Edit.apply] using key

/-- A reset followed by all entries of `rows` makes the copy equal to `rows`, whatever it held. -/
theorem patch_rebuild (copy rows : List ρ) : patch copy (.reset :: appends 0 rows) = some rows := by
  simpa [Edit.apply] using patch_appends [] rows

end EditList
