import Mathlib.Data.List.Range
import Hermo.Library.Run

/-!
# Changes applied under a lock and handed over after it

Every operation applies its changes to the shared state in one locked section; its task hands them to a consumer
afterwards, one at a time, and other tasks may run in between.  A task starts its next operation when it has handed
over everything.  `inOrder_iff` says that the consumer gets the changes in the order of application exactly when every
call is made for the oldest change that is waiting, and `received_eq` that it then has seen the operations one after
the other.
-/

namespace Outbox

open Run

variable {σ τ α δ : Type}

/-- A change with the task that applied it and its place in the order of application. -/
structure Outgoing (τ δ : Type) where
  task : τ
  number : Nat
  change : δ

/-- The shared state; `waiting` are the changes that are not handed over yet, in the order of application. -/
structure System (σ τ δ : Type) where
  state : σ
  applied : List δ := []
  waiting : List (Outgoing τ δ) := []
  received : List (Outgoing τ δ) := []

inductive Label (τ α : Type) where
  /-- The locked section of an operation. -/
  | lock (task : τ) (a : α)
  /-- The task hands over its next change. -/
  | call (task : τ)

/-- The changes of an operation, numbered from `n`. -/
def outgoing (task : τ) (n : Nat) (changes : List δ) : List (Outgoing τ δ) :=
  (changes.zipIdx n).map fun (change, number) => ⟨task, number, change⟩

section

variable [DecidableEq τ] (apply : σ → α → σ × List δ)

def step (s : System σ τ δ) : Label τ α → Option (System σ τ δ)
  | .lock task a =>
    if s.waiting.any (·.task == task) then none
    else
      let (state, changes) := apply s.state a
      some { s with
        state := state
        applied := s.applied ++ changes
        waiting := s.waiting ++ outgoing task s.applied.length changes }
  | .call task =>
    (s.waiting.find? (·.task == task)).map fun c =>
      { s with waiting := s.waiting.eraseP (·.task == task), received := s.received ++ [c] }

end

/-- The consumer got the changes in the order of application, without a gap. -/
def InOrder (s : System σ τ δ) : Prop := s.received.map Outgoing.number = List.range s.received.length

/-- A call is made for the oldest change that is waiting. -/
def Oldest (s : System σ τ δ) : Label τ α → Prop
  | .lock _ _ => True
  | .call task => ∃ c rest, s.waiting = c :: rest ∧ c.task = task

/-- The operations of a run, in the order of their locked sections. -/
def operations : List (Label τ α) → List α
  | [] => []
  | .lock _ a :: labels => a :: operations labels
  | .call _ :: labels => operations labels

/-- The operations one after the other, with all changes they apply. -/
def sequential (apply : σ → α → σ × List δ) (s : σ) : List α → σ × List δ
  | [] => (s, [])
  | a :: as =>
    let (s', changes) := apply s a
    let (s'', rest) := sequential apply s' as
    (s'', changes ++ rest)

/-- What was received and what is waiting make up what was applied, in that order. -/
structure Queued (s : System σ τ δ) : Prop where
  numbers : (s.received ++ s.waiting).map Outgoing.number = List.range s.applied.length
  changes : (s.received ++ s.waiting).map Outgoing.change = s.applied

theorem queued_start (state : σ) : Queued (⟨state, [], [], []⟩ : System σ τ δ) := ⟨rfl, rfl⟩

private theorem outgoing_number (task : τ) (n : Nat) (changes : List δ) :
    (outgoing task n changes).map Outgoing.number = List.range' n changes.length := by
  unfold outgoing
  rw [List.map_map]
  exact List.zipIdx_map_snd n changes

theorem outgoing_change (task : τ) (n : Nat) (changes : List δ) :
    (outgoing task n changes).map Outgoing.change = changes := by
  unfold outgoing
  rw [List.map_map]
  exact List.zipIdx_map_fst n changes

theorem Queued.inOrder {s : System σ τ δ} (h : Queued s) : InOrder s := by
  have hlen : s.received.length ≤ s.applied.length := by
    rw [← h.changes, List.length_map, List.length_append]
    omega
  have htake := congrArg (List.take s.received.length) h.numbers
  rw [List.map_append, List.take_append_of_le_length (by rw [List.length_map]), List.take_range,
    Nat.min_eq_left hlen] at htake
  rwa [List.take_of_length_le (by rw [List.length_map])] at htake

/-- The first change that is waiting carries the number of changes received, the others larger ones. -/
private theorem Queued.waiting_number {s : System σ τ δ} (h : Queued s) {c : Outgoing τ δ}
    {rest : List (Outgoing τ δ)} (hw : s.waiting = c :: rest) : ∀ d ∈ rest, s.received.length < d.number := by
  have hnumbers := congrArg (List.drop s.received.length) h.numbers
  rw [List.map_append, List.drop_append_of_le_length (by rw [List.length_map]),
    List.drop_of_length_le (by rw [List.length_map]), List.nil_append, hw, List.map_cons, List.range_eq_range',
    List.drop_range'] at hnumbers
  intro d hd
  have hmem : d.number ∈ rest.map Outgoing.number := List.mem_map_of_mem hd
  have htail := congrArg List.tail hnumbers
  rw [List.tail_cons, List.tail_range'] at htail
  rw [htail, List.mem_range'_1] at hmem
  omega

/-! ### One step -/

section

variable [DecidableEq τ] {apply : σ → α → σ × List δ}

theorem Queued.step {s s' : System σ τ δ} (h : Queued s) {l : Label τ α} (hold : Oldest s l)
    (hstep : step apply s l = some s') : Queued s' := by
  cases l with
  | lock task a =>
    simp only [Outbox.step, Option.ite_none_left_eq_some, Option.some.injEq] at hstep
    obtain ⟨-, rfl⟩ := hstep
    constructor
    · dsimp only
      rw [← List.append_assoc, List.map_append, h.numbers, outgoing_number, List.length_append,
        List.range_eq_range', List.range_eq_range', ← List.range'_append_1, Nat.zero_add]
    · dsimp only
      rw [← List.append_assoc, List.map_append, h.changes, outgoing_change]
  | call task =>
    obtain ⟨c, rest, hw, htask⟩ := hold
    have hfind : s.waiting.find? (·.task == task) = some c := by simp [hw, htask]
    have herase : s.waiting.eraseP (·.task == task) = rest := by simp [hw, htask]
    unfold Outbox.step at hstep
    dsimp only at hstep
    rw [hfind, herase, Option.map_some, Option.some_inj] at hstep
    subst hstep
    have hsame : (s.received ++ [c]) ++ rest = s.received ++ s.waiting := by
      rw [hw, List.append_assoc, List.singleton_append]
    constructor
    · dsimp only
      rw [hsame, h.numbers]
    · dsimp only
      rw [hsame, h.changes]

/-- A call that keeps the order was made for the oldest change. -/
theorem Queued.oldest {s s' : System σ τ δ} (h : Queued s) {l : Label τ α} (hstep : Outbox.step apply s l = some s')
    (horder : InOrder s') : Oldest s l := by
  cases l with
  | lock => trivial
  | call task =>
    obtain ⟨c, hfind, rfl⟩ := Option.map_eq_some_iff.1 hstep
    have hmem := List.mem_of_find?_eq_some hfind
    have htask : c.task = task := by simpa using List.find?_some hfind
    have hnumber : c.number = s.received.length := by
      unfold InOrder at horder
      dsimp only at horder
      rw [List.map_append, List.length_append, List.length_singleton, List.range_succ] at horder
      have hlast := List.append_inj_right' horder rfl
      simpa using hlast
    cases hw : s.waiting with
    | nil =>
      rw [hw] at hmem
      cases hmem
    | cons d rest =>
      refine ⟨d, rest, hw, ?_⟩
      rw [hw] at hmem
      rcases List.mem_cons.1 hmem with rfl | hrest
      · exact htask
      · have hlt := h.waiting_number hw c hrest
        omega

/-! ### A run -/

theorem Queued.run {s s' : System σ τ δ} (h : Queued s) {labels : List (Label τ α)}
    (hok : Meets (Outbox.step apply) Oldest s labels) (hrun : exec (Outbox.step apply) s labels = some s') :
    Queued s' :=
  exec_invariant _ (fun _ _ _ h hold hstep => h.step hold hstep) h hok hrun

/-- The order is kept in every state of a run exactly when every call is made for the oldest change. -/
theorem inOrder_iff {s t : System σ τ δ} (h : Queued s) {labels : List (Label τ α)}
    (hrun : exec (Outbox.step apply) s labels = some t) :
    (∀ pre s', pre <+: labels → exec (Outbox.step apply) s pre = some s' → InOrder s') ↔
      Meets (Outbox.step apply) Oldest s labels := by
  induction labels generalizing s with
  | nil =>
    refine iff_of_true ?_ trivial
    intro pre s' hpre hs'
    rw [List.prefix_nil] at hpre
    subst hpre
    cases hs'
    exact h.inOrder
  | cons l labels ih =>
    obtain ⟨mid, hmid, hrest⟩ := Option.bind_eq_some_iff.1 hrun
    constructor
    · intro horder
      have hfirst : InOrder mid := horder [l] mid (List.prefix_append [l] labels) (by simp [exec, hmid])
      have hold := h.oldest hmid hfirst
      refine Meets.cons _ hmid hold ((ih (h.step hold hmid) hrest).1 ?_)
      intro pre s' hpre hs'
      refine horder (l :: pre) s' (List.cons_prefix_cons.2 ⟨rfl, hpre⟩) ?_
      simp [exec, hmid, hs']
    · rintro ⟨hold, hok⟩ pre s' hpre hs'
      cases pre with
      | nil =>
        cases hs'
        exact h.inOrder
      | cons l' pre =>
        obtain ⟨rfl, htail⟩ := List.cons_prefix_cons.1 hpre
        obtain ⟨mid', hmid', hs'⟩ := Option.bind_eq_some_iff.1 hs'
        rw [hmid, Option.some_inj] at hmid'
        subst hmid'
        exact (ih (h.step hold hmid) hrest).2 (hok mid hmid) pre s' htail hs'

/-- The state and the changes applied are those of the operations one after the other. -/
theorem exec_sequential {s s' : System σ τ δ} {labels : List (Label τ α)}
    (hrun : exec (Outbox.step apply) s labels = some s') :
    s'.state = (sequential apply s.state (operations labels)).1 ∧
      s'.applied = s.applied ++ (sequential apply s.state (operations labels)).2 := by
  induction labels generalizing s with
  | nil =>
    cases hrun
    exact ⟨rfl, (List.append_nil _).symm⟩
  | cons l labels ih =>
    obtain ⟨mid, hmid, hrest⟩ := Option.bind_eq_some_iff.1 hrun
    obtain ⟨hstate, happlied⟩ := ih hrest
    cases l with
    | lock task a =>
      simp only [Outbox.step, Option.ite_none_left_eq_some, Option.some.injEq] at hmid
      obtain ⟨-, rfl⟩ := hmid
      refine ⟨hstate, ?_⟩
      rw [happlied, List.append_assoc]
      rfl
    | call task =>
      obtain ⟨c, -, rfl⟩ := Option.map_eq_some_iff.1 hmid
      exact ⟨hstate, happlied⟩

/-- When nothing is waiting, the consumer has received the changes of the operations one after the other. -/
theorem received_eq {state : σ} {s : System σ τ δ} {labels : List (Label τ α)}
    (hok : Meets (Outbox.step apply) Oldest ⟨state, [], [], []⟩ labels)
    (hrun : exec (Outbox.step apply) ⟨state, [], [], []⟩ labels = some s) (hquiet : s.waiting = []) :
    s.received.map Outgoing.change = (sequential apply state (operations labels)).2 := by
  have hqueued := (queued_start state).run hok hrun
  have hchanges := hqueued.changes
  rw [hquiet, List.append_nil] at hchanges
  rw [hchanges, (exec_sequential hrun).2]
  rfl

end

end Outbox
