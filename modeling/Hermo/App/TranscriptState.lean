import Mathlib.Data.List.Forall2
import Hermo.Core.State
import Hermo.Transcript.ChangeStream

/-!
# The rows of the app

`applyTranscriptChange` is the reducer of `TranscriptState.kt`: it pads where an index lies past the end, so it takes
every stream of changes, strict or not.  `receive_patch` says that it is the strict patch of the core's edits as long
as their indices fit an `Int`, and `receive_length` that a list it returns fits one.
-/

namespace Hermo

open EditList

/-- `Long.toInt`: the low 32 bits, read with their sign. -/
def toInt (index : Int) : Int := (BitVec.ofInt 32 index).toInt

/-- `2 ^ 31`, one more than the largest `Int`. -/
def intLimit : Nat := 2147483648

/-- The `kindOf` of the repository. -/
def kindOf (change : TranscriptChangeDto) : String :=
  match change.kind with
  | .rowAppended => "rowAppended"
  | .rowUpdated => "rowUpdated"
  | .reset => "reset"
  | .headerUpdated => "headerUpdated"

/-- `while (out.size <= i) out.add("")`. -/
def padTo (rows : List String) (i : Int) : List String := rows ++ List.replicate ((i + 1).toNat - rows.length) ""

/-- `out[i] = rowJson`, which throws outside the list. -/
def assign (rows : List String) (i : Int) (rowJson : String) : Option (List String) :=
  if 0 ≤ i ∧ i < rows.length then some (rows.set i.toNat rowJson) else none

/-- `applyTranscriptChange`; `none` is the exception of a negative index. -/
def applyTranscriptChange (rows : List String) (kind : String) (index : Int) (rowJson : String) :
    Option (List String) :=
  if kind = "rowAppended" then assign (padTo rows (toInt index)) (toInt index) rowJson
  else if kind = "rowUpdated" then
    let out := if toInt index ≥ rows.length then padTo rows (toInt index) else rows
    assign out (toInt index) rowJson
  else if kind = "reset" then some []
  else some rows

/-- The changes of a key, folded over its rows in the order they arrive. -/
def receive (rows : List String) : List TranscriptChangeDto → Option (List String)
  | [] => some rows
  | change :: changes =>
    (applyTranscriptChange rows (kindOf change) change.index change.rowJson).bind fun rows' => receive rows' changes

theorem receive_append (rows : List String) (as bs : List TranscriptChangeDto) :
    receive rows (as ++ bs) = (receive rows as).bind fun rows' => receive rows' bs := by
  induction as generalizing rows with
  | nil => rfl
  | cons a as ih =>
    simp only [List.cons_append, receive]
    cases applyTranscriptChange rows (kindOf a) a.index a.rowJson with
    | none => rfl
    | some rows' => exact ih rows'

/-! ### Indices that fit an `Int` -/

theorem toInt_of_fits {index : Nat} (h : index < intLimit) : toInt index = index := by
  unfold toInt
  rw [BitVec.toInt_ofInt]
  unfold intLimit at h
  exact Int.bmod_eq_of_le_mul_two (by omega) (by omega)

theorem toInt_lt (index : Int) : toInt index < intLimit := by
  have h : 2 * (BitVec.ofInt 32 index).toInt < 2 ^ 32 := BitVec.two_mul_toInt_lt
  unfold toInt intLimit
  omega

theorem padTo_length (rows : List String) (i : Int) :
    (padTo rows i).length = max rows.length (i + 1).toNat := by
  unfold padTo
  rw [List.length_append, List.length_replicate]
  omega

/-- An append at the length of the list. -/
private theorem assign_padTo_length (rows : List String) (rowJson : String) :
    assign (padTo rows rows.length) rows.length rowJson = some (rows ++ [rowJson]) := by
  have hone : ((rows.length : Int) + 1).toNat - rows.length = 1 := by omega
  have hlt : (rows.length : Int) < (rows ++ List.replicate 1 "").length := by
    rw [List.length_append, List.length_replicate]
    omega
  unfold assign padTo
  rw [hone, if_pos ⟨Int.natCast_nonneg _, hlt⟩]
  simp

private theorem assign_of_lt {rows : List String} {i : Nat} (h : i < rows.length) (rowJson : String) :
    assign rows i rowJson = some (rows.set i rowJson) := by
  unfold assign
  rw [if_pos (by omega), Int.toNat_natCast]

private theorem assign_length {rows rows' : List String} {i : Int} {rowJson : String}
    (h : assign rows i rowJson = some rows') : rows'.length = rows.length := by
  unfold assign at h
  rw [Option.ite_none_right_eq_some, Option.some_inj] at h
  rw [← h.2, List.length_set]

/-- No list grows past what an `Int` can index. -/
theorem applyTranscriptChange_length {rows rows' : List String} {kind : String} {index : Int} {rowJson : String}
    (h : applyTranscriptChange rows kind index rowJson = some rows') (hlen : rows.length ≤ intLimit) :
    rows'.length ≤ intLimit := by
  have hlt := toInt_lt index
  unfold applyTranscriptChange at h
  split at h
  · rw [assign_length h, padTo_length]
    omega
  · split at h
    · rw [assign_length h]
      split
      · rw [padTo_length]
        omega
      · exact hlen
    · split at h
      · cases h
        exact Nat.zero_le _
      · cases h
        exact hlen

theorem receive_length {rows rows' : List String} {changes : List TranscriptChangeDto}
    (h : receive rows changes = some rows') (hlen : rows.length ≤ intLimit) : rows'.length ≤ intLimit := by
  induction changes generalizing rows with
  | nil =>
    cases h
    exact hlen
  | cons change changes ih =>
    obtain ⟨mid, hmid, hrest⟩ := Option.bind_eq_some_iff.1 h
    exact ih hrest (applyTranscriptChange_length hmid hlen)

/-! ### The changes of the core -/

/-- The change that carries an edit, with an index that fits an `Int`. -/
def Carries (change : TranscriptChangeDto) : Edit String → Prop
  | .append index rowJson =>
    change.kind = .rowAppended ∧ change.index = index ∧ change.rowJson = rowJson ∧ index < intLimit
  | .update index rowJson =>
    change.kind = .rowUpdated ∧ change.index = index ∧ change.rowJson = rowJson ∧ index < intLimit
  | .reset => change.kind = .reset
  | .skip => change.kind = .headerUpdated

/-- One strict edit. -/
theorem applyTranscriptChange_edit {change : TranscriptChangeDto} {e : Edit String} (hc : Carries change e)
    {rows rows' : List String} (h : e.apply rows = some rows') :
    applyTranscriptChange rows (kindOf change) change.index change.rowJson = some rows' := by
  unfold applyTranscriptChange kindOf
  cases e with
  | append index rowJson =>
    obtain ⟨hkind, hindex, hrow, hfits⟩ := hc
    simp only [Edit.apply, Option.ite_none_right_eq_some, Option.some.injEq] at h
    obtain ⟨rfl, rfl⟩ := h
    rw [hkind, hindex, hrow, toInt_of_fits hfits]
    dsimp only
    rw [if_pos rfl]
    exact assign_padTo_length rows rowJson
  | update index rowJson =>
    obtain ⟨hkind, hindex, hrow, hfits⟩ := hc
    simp only [Edit.apply, Option.ite_none_right_eq_some, Option.some.injEq] at h
    obtain ⟨hlt, rfl⟩ := h
    rw [hkind, hindex, hrow, toInt_of_fits hfits]
    dsimp only
    rw [if_neg (by decide), if_pos rfl, if_neg (by omega)]
    exact assign_of_lt hlt rowJson
  | reset =>
    have hkind : change.kind = .reset := hc
    rw [hkind]
    dsimp only
    rw [if_neg (by decide), if_neg (by decide), if_pos rfl]
    exact h
  | skip =>
    have hkind : change.kind = .headerUpdated := hc
    rw [hkind]
    dsimp only
    rw [if_neg (by decide), if_neg (by decide), if_neg (by decide)]
    exact h

/-- A strict patch. -/
theorem receive_patch {changes : List TranscriptChangeDto} {edits : List (Edit String)}
    (hc : List.Forall₂ Carries changes edits) {rows rows' : List String} (h : patch rows edits = some rows') :
    receive rows changes = some rows' := by
  induction hc generalizing rows with
  | nil => exact h
  | cons hce _ ih =>
    rw [patch_cons] at h
    obtain ⟨mid, hmid, hrest⟩ := Option.bind_eq_some_iff.1 h
    unfold receive
    rw [applyTranscriptChange_edit hce hmid, Option.bind_some]
    exact ih hrest

section

variable [Serializer]

/-- The text the app keeps for a row. -/
def rowText (row : Row) : String := rowJson (some row)

private theorem carries_edit {rows : List Row} (hlen : rows.length ≤ intLimit) (key title : String)
    {change : TranscriptChange} {e : Edit Row} (h : change.edit rows = some e) :
    Carries (changeToDto key change rows title) (e.map rowText) := by
  have hindex : ∀ {index : Nat} {row : Row}, rows[index]? = some row →
      min index u32Max = index ∧ index < intLimit := by
    intro index row hrow
    obtain ⟨hlt, -⟩ := List.getElem?_eq_some_iff.1 hrow
    unfold intLimit at hlen
    unfold u32Max intLimit
    omega
  cases change with
  | rowAppended index =>
    obtain ⟨row, hrow, rfl⟩ := Option.map_eq_some_iff.1 h
    refine ⟨rfl, (hindex hrow).1, ?_, (hindex hrow).2⟩
    exact congrArg rowJson hrow
  | rowUpdated index =>
    obtain ⟨row, hrow, rfl⟩ := Option.map_eq_some_iff.1 h
    refine ⟨rfl, (hindex hrow).1, ?_, (hindex hrow).2⟩
    exact congrArg rowJson hrow
  | reset =>
    cases h
    rfl
  | headerUpdated =>
    cases h
    rfl

/-- What patches a copy of the core's rows patches the app's list as well. -/
theorem receive_mirror {copy copy' rows : List Row} {changes : List SessionChange}
    (h : mirror copy rows (changes.map SessionChange.change) = some copy') (hlen : rows.length ≤ intLimit)
    (key title : String) :
    receive (copy.map rowText) (changesToDtos key changes rows title) = some (copy'.map rowText) := by
  unfold mirror at h
  obtain ⟨edits, hedits, hpatch⟩ := Option.bind_eq_some_iff.1 h
  have hcarries : List.Forall₂ Carries (changesToDtos key changes rows title) (edits.map (Edit.map rowText)) := by
    clear h hpatch
    induction changes generalizing edits with
    | nil =>
      cases hedits
      exact .nil
    | cons c changes ih =>
      rw [List.map_cons, List.mapM_cons] at hedits
      obtain ⟨e, he, hrest⟩ := Option.bind_eq_some_iff.1 hedits
      obtain ⟨es, hes, hcons⟩ := Option.bind_eq_some_iff.1 hrest
      cases hcons
      exact .cons (carries_edit hlen key title he) (ih es hes)
  refine receive_patch hcarries ?_
  rw [patch_map, hpatch]
  rfl

end

end Hermo
