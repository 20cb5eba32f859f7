import Hermo.Rpc.Terminal

/-!
# What a close does to the calls

`fail_pending` answers the calls that are in the map when it runs.  A call that passed its check earlier and inserts
itself behind the last `fail_pending` is answered by nobody; if the writer still takes its line it waits for its own
timeout.
-/

namespace Hermo.Rpc

open Run Tasks

/-- A call inserts itself while `fail_pending` is still ahead of some task. -/
def InsertsInTime (s : System) : Label → Prop
  | .task i .run => ∀ id, s.tasks[i]? = some (.call (.inserting id)) → ∃ t ∈ s.tasks, t.willDrain
  | _ => True

/-- Every closer has drained, the reader among them, and the writer has ended. -/
structure Finished (s : System) : Prop where
  drained : ∀ t ∈ s.tasks, t.willDrain = false
  writer : .writer (.closing .over) ∈ s.tasks

/-- The id of the request in the course of a call. -/
def CallPoint.id : CallPoint → Option Nat
  | .inserting id | .queueing id | .withdrawing id | .waiting id | .expiring id => some id
  | _ => none

/-- The id a call has put into the map, until it gives up. -/
def CallPoint.inserted : CallPoint → Option Nat
  | .queueing id | .waiting id => some id
  | _ => none

def Task.id : Task → Option Nat
  | .call point => point.id
  | _ => none

def Task.inserted : Task → Option Nat
  | .call point => point.inserted
  | _ => none

/-- The call is in the map or has its answer, which is not a timeout. -/
def Shared.Holds (s : Shared) (id : Nat) : Prop :=
  id ∈ s.pending ∨ ∃ outcome, s.answers id = some outcome ∧ outcome ≠ .error .timeout

/-! ### The map keeps every call until it is answered -/

theorem Task.id_of_inserted {t : Task} {id : Nat} (h : t.inserted = some id) : t.id = some id := by
  cases t with
  | call point => cases point <;> first | exact h | cases h
  | _ => cases h

theorem Same.holds {s s' : Shared} (h : Same s s') {id : Nat} (hs : s.Holds id) : s'.Holds id := by
  unfold Shared.Holds
  rw [h.pending, h.answers]
  exact hs

private theorem failPending_holds {s : Shared} {id : Nat} (reason : String) (h : s.Holds id) :
    (s.failPending (.closed reason)).Holds id := by
  unfold Shared.failPending Shared.Holds
  dsimp only
  by_cases hmem : id ∈ s.pending
  · rw [if_pos hmem]
    exact .inr ⟨_, rfl, by rintro ⟨⟩⟩
  · rw [if_neg hmem]
    exact .inr (h.resolve_left hmem)

private theorem resolve_holds {s : Shared} {id id' : Nat} {outcome : Outcome} (hanswer : outcome ≠ .error .timeout)
    (h : s.Holds id) : (s.resolve id' outcome).Holds id := by
  unfold Shared.resolve
  split
  · unfold Shared.Holds Shared.remove
    dsimp only
    by_cases heq : id = id'
    · rw [if_pos heq]
      exact .inr ⟨outcome, rfl, hanswer⟩
    · rw [if_neg heq]
      refine h.imp_left ?_
      intro hmem
      simpa using ⟨hmem, heq⟩
  · exact h

private theorem remove_holds {s : Shared} {id id' : Nat} (hne : id' ≠ id) (h : s.Holds id) : (s.remove id').Holds id := by
  refine h.imp_left ?_
  intro hmem
  unfold Shared.remove
  simpa using ⟨hmem, Ne.symm hne⟩

private theorem closing_holds {c c' lost : Closing} {reason : String} {finish : Shared → Shared} {s s' : Shared}
    (h : Closing.Step reason lost finish s c s' c') (hfinish : ∀ s, Same s (finish s)) {id : Nat}
    (hs : s.Holds id) : s'.Holds id := by
  cases h with
  | drains => exact failPending_holds reason hs
  | finishes => exact (hfinish s).holds hs
  | _ => exact hs

/-- A call keeps the calls with other ids, and its own. -/
private theorem call_holds {s s' : Shared} {point point' : CallPoint} {input : Input}
    (h : point.Step s input s' point') :
    (∀ id, point.id ≠ some id → s.Holds id → s'.Holds id) ∧
      ((∀ id, point.inserted = some id → s.Holds id) → ∀ id, point'.inserted = some id → s'.Holds id) := by
  cases h with
  | inserts =>
    constructor
    · intro id _ hs
      exact hs.imp_left fun hmem => List.mem_insert_of_mem hmem
    · rintro - id ⟨⟩
      exact .inl List.mem_insert_self
  | @queues id' _ =>
    have hsame := s.same_send (.line id')
    exact ⟨fun id _ hs => hsame.holds hs, fun hown id hid => hsame.holds (hown id hid)⟩
  | withdraws | expires =>
    refine ⟨?_, by rintro - id ⟨⟩⟩
    intro id hne hs
    exact remove_holds (fun heq => hne (congrArg some heq)) hs
  | _ => exact ⟨fun _ _ hs => hs, by rintro - id ⟨⟩⟩

theorem id_of_not_call {t : Task} (h : ∀ point, t ≠ .call point) : t.id = none := by
  cases t with
  | call point => exact absurd rfl (h point)
  | _ => rfl

theorem id_of_closing {t : Task} {c : Closing} (h : t.closing = some c) : t.id = none := by
  refine id_of_not_call ?_
  rintro point rfl
  cases h

private theorem inserted_of_id {t : Task} (h : t.id = none) : t.inserted = none := by
  cases hinserted : t.inserted with
  | none => rfl
  | some id =>
    rw [Task.id_of_inserted hinserted] at h
    cases h

private theorem task_holds {s s' : Shared} {t t' : Task} {input : Input} {spawns : List Task}
    (h : t.next s input = some (s', t', spawns)) :
    (∀ id, t.id ≠ some id → s.Holds id → s'.Holds id) ∧
      ((∀ id, t.inserted = some id → s.Holds id) → ∀ id, t'.inserted = some id → s'.Holds id) := by
  have hnone : t'.inserted = none → ∀ id, t'.inserted = some id → s'.Holds id := by
    intro hnone id hid
    rw [hnone] at hid
    cases hid
  cases task_effect h with
  | closes hc hc' hnext hfinish hlost hdrain =>
    exact ⟨fun id _ hs => closing_holds hnext hfinish hs, fun _ => hnone (inserted_of_id (id_of_closing hc'))⟩
  | opens heq =>
    subst heq
    exact ⟨fun id _ hs => hs, fun _ => hnone rfl⟩
  | resolves id' outcome hanswer heq =>
    subst heq
    exact ⟨fun id _ hs => resolve_holds hanswer hs, fun _ => hnone rfl⟩
  | calls hstep => exact call_holds hstep
  | quiet hsame hc hc' hcall hdrain =>
    exact ⟨fun id _ hs => hsame.holds hs, fun _ => hnone (inserted_of_id (id_of_not_call hcall))⟩

/-! ### Somebody drains -/

private theorem closing_pending {c c' lost : Closing} {reason : String} {finish : Shared → Shared} {s s' : Shared}
    (h : Closing.Step reason lost finish s c s' c') (hfinish : ∀ s, Same s (finish s)) :
    s'.pending = if c = .drain then [] else s.pending := by
  cases h with
  | finishes => exact (hfinish s).pending
  | _ => rfl

/-- What can stand in the map after a step stood in it before, or the call has just put it there. -/
private theorem call_pending {s s' : Shared} {point point' : CallPoint} {input : Input}
    (h : point.Step s input s' point') (hp : s'.pending ≠ []) :
    s.pending ≠ [] ∨ (input = .run ∧ ∃ id, point = .inserting id) := by
  have hremove : ∀ id, (s.remove id).pending ≠ [] → s.pending ≠ [] := by
    intro id hne hnil
    refine hne ?_
    unfold Shared.remove
    dsimp only
    rw [hnil]
    rfl
  cases h with
  | @inserts id => exact .inr ⟨rfl, id, rfl⟩
  | queues _ =>
    rw [(s.same_send _).pending] at hp
    exact .inl hp
  | withdraws | expires => exact .inl (hremove _ hp)
  | _ => exact .inl hp

private theorem drains_step {s s' : System} {l : Label} (h : s.shared.pending ≠ [] → ∃ t ∈ s.tasks, t.willDrain)
    (hok : InsertsInTime s l) (hstep : program.step s l = some s') :
    s'.shared.pending ≠ [] → ∃ t ∈ s'.tasks, t.willDrain := by
  cases l with
  | start t =>
    obtain ⟨-, rfl⟩ := Program.step_start hstep
    intro hp
    obtain ⟨u, hu, hdrain⟩ := h hp
    exact ⟨u, List.mem_append_left _ hu, hdrain⟩
  | task i input =>
    obtain ⟨t, shared, t', spawns, ht, hnext, rfl⟩ := Program.step_task hstep
    intro hp
    change shared.pending ≠ [] at hp
    -- either the stepping task still drains, or somebody else does
    have hgoal : t'.willDrain = true ∨ ((∃ u ∈ s.tasks, u.willDrain) ∧ ¬ t.willDrain = true) := by
      by_cases hown : t.willDrain = true
      · refine .inl ?_
        cases task_effect hnext with
        | closes hc hc' hclose hfinish hlost hdrain =>
          refine (hdrain hown).resolve_right ?_
          rintro rfl
          rw [closing_pending hclose hfinish] at hp
          exact hp rfl
        | opens heq => cases hown
        | resolves id outcome hanswer heq => rfl
        | calls hcall => cases hown
        | quiet hsame hc hc' hcall hdrain => exact hdrain hown
      -- a task that does not drain fills the map only by an insert, and that is in time
      · refine .inr ⟨?_, hown⟩
        cases task_effect hnext with
        | closes hc hc' hclose hfinish hlost hdrain =>
          rw [closing_pending hclose hfinish] at hp
          split at hp
          · exact absurd rfl hp
          · exact h hp
        | opens heq =>
          subst heq
          exact h hp
        | resolves id outcome hanswer heq => exact absurd rfl hown
        | calls hcall =>
          rcases call_pending hcall hp with hold | ⟨rfl, id, rfl⟩
          · exact h hold
          · exact hok id ht
        | quiet hsame hc hc' hcall hdrain =>
          rw [hsame.pending] at hp
          exact h hp
    rcases hgoal with hown | ⟨hother, hown⟩
    · exact ⟨t', Program.stepped_mem ht spawns, hown⟩
    · exact Program.exists_after ht hother hown t' spawns
  | env e => exact e.elim

/-! ### The writer is gone -/

private theorem task_gone {s s' : Shared} {t t' : Task} {input : Input} {spawns : List Task}
    (h : t.next s input = some (s', t', spawns)) (hgone : s.writerGone = true) : s'.writerGone = true := by
  cases task_effect h with
  | closes hc hc' hclose hfinish hlost hdrain =>
    cases hclose with
    | finishes => exact (hfinish s).writerGone hgone
    | _ => exact hgone
  | opens heq =>
    subst heq
    exact hgone
  | resolves id outcome hanswer heq =>
    subst heq
    unfold Shared.resolve
    split <;> exact hgone
  | calls hstep =>
    cases hstep with
    | queues _ => exact (s.same_send _).writerGone hgone
    | _ => exact hgone
  | quiet hsame hc hc' hcall hdrain => exact hsame.writerGone hgone

private theorem task_over {s s' : Shared} {t : Task} {input : Input} {spawns : List Task}
    (h : t.next s input = some (s', .writer (.closing .over), spawns)) : s'.writerGone = true := by
  cases task_moves h with
  | writer hstep =>
    cases hstep with
    | closes hclose =>
      cases hclose with
      | finishes => rfl

/-! ### Every run -/

/-- What holds in every state of a run in which the calls insert themselves in time. -/
structure Orderly (s : System) : Prop where
  ids : Program.Distinct Task.id Shared.nextId s
  held : ∀ t ∈ s.tasks, ∀ id, t.inserted = some id → s.shared.Holds id
  drains : s.shared.pending ≠ [] → ∃ t ∈ s.tasks, t.willDrain
  gone : .writer (.closing .over) ∈ s.tasks → s.shared.writerGone = true

theorem entry_isCall {s : Shared} {t : Task} (h : program.entry s t = true) : t.isCall = true :=
  (Bool.and_eq_true_iff.1 h).2

theorem id_of_isCall {t : Task} (h : t.isCall = true) : t.id = none := by
  revert h
  fun_cases Task.isCall t <;> rintro ⟨⟩ <;> rfl

/-- A step draws the id of its call from the counter, or keeps it. -/
theorem task_id {s s' : Shared} {t t' : Task} {input : Input} {spawns : List Task}
    (h : t.next s input = some (s', t', spawns)) :
    s.nextId ≤ s'.nextId ∧ ∀ id, t'.id = some id → t.id = some id ∨ (id = s.nextId ∧ id < s'.nextId) := by
  have hnone : t'.id = none → s'.nextId = s.nextId →
      s.nextId ≤ s'.nextId ∧ ∀ id, t'.id = some id → t.id = some id ∨ (id = s.nextId ∧ id < s'.nextId) := by
    intro hnone hsame
    refine ⟨Nat.le_of_eq hsame.symm, ?_⟩
    intro id hid
    rw [hnone] at hid
    cases hid
  cases task_effect h with
  | closes hc hc' hclose hfinish hlost hdrain =>
    refine hnone (id_of_closing hc') ?_
    cases hclose with
    | finishes => exact (hfinish s).nextId
    | _ => rfl
  | opens heq =>
    subst heq
    exact hnone rfl rfl
  | resolves id outcome hanswer heq =>
    subst heq
    refine hnone rfl ?_
    unfold Shared.resolve
    split <;> rfl
  | calls hstep =>
    cases hstep with
    | numbers =>
      refine ⟨Nat.le_succ _, ?_⟩
      rintro id ⟨⟩
      exact .inr ⟨rfl, Nat.lt_succ_self _⟩
    | queues _ => exact ⟨Nat.le_of_eq (s.same_send _).nextId.symm, fun _ => .inl⟩
    | refused _ | passes _ | withdraws | answered _ | expires => exact hnone rfl rfl
    | inserts | unheard _ | timesOut _ => exact ⟨Nat.le_refl _, fun _ => .inl⟩
  | quiet hsame hc hc' hcall hdrain => exact hnone (id_of_not_call hcall) hsame.nextId

theorem ids_step {s s' : System} {l : Label} (h : Program.Distinct Task.id Shared.nextId s)
    (hstep : program.step s l = some s') : Program.Distinct Task.id Shared.nextId s' := by
  refine Program.distinct_step hstep h (fun t ht => id_of_isCall (entry_isCall ht)) ?_ (fun e => e.elim)
  intro input t shared t' spawns hnext
  obtain ⟨hle, hid⟩ := task_id hnext
  refine ⟨hle, ?_, hid⟩
  intro u hu
  rw [task_spawns hnext u hu]
  rfl

private theorem held_step {s s' : System} {l : Label} (hids : Program.Distinct Task.id Shared.nextId s)
    (h : ∀ t ∈ s.tasks, ∀ id, t.inserted = some id → s.shared.Holds id) (hstep : program.step s l = some s') :
    ∀ t ∈ s'.tasks, ∀ id, t.inserted = some id → s'.shared.Holds id := by
  cases l with
  | start t =>
    obtain ⟨hentry, rfl⟩ := Program.step_start hstep
    intro u hu id hid
    rcases List.mem_append.1 hu with hu | hu
    · exact h u hu id hid
    · rw [List.mem_singleton.1 hu] at hid
      have hnone := id_of_isCall (entry_isCall hentry)
      rw [Task.id_of_inserted hid] at hnone
      cases hnone
  | task i input =>
    obtain ⟨t, shared, t', spawns, ht, hnext, rfl⟩ := Program.step_task hstep
    obtain ⟨hothers, hown⟩ := task_holds hnext
    intro u hu id hid
    rcases Program.mem_after hu with rfl | hu | ⟨j, hij, hj⟩
    · exact hown (h t (List.mem_of_getElem? ht)) id hid
    · rw [task_spawns hnext u hu] at hid
      cases hid
    · -- another call has another id
      refine hothers id ?_ (h u (List.mem_of_getElem? hj) id hid)
      intro hsame
      exact hij (hids.unique j i u t id hj ht (Task.id_of_inserted hid) hsame)
  | env e => exact e.elim

private theorem gone_step {s s' : System} {l : Label}
    (h : .writer (.closing .over) ∈ s.tasks → s.shared.writerGone = true) (hstep : program.step s l = some s') :
    .writer (.closing .over) ∈ s'.tasks → s'.shared.writerGone = true := by
  have hall : ∀ t ∈ s'.tasks, t = .writer (.closing .over) → s'.shared.writerGone = true := by
    refine Program.forall_step (P := fun s t => t = .writer (.closing .over) → s.writerGone = true) hstep
      (fun t ht heq => h (heq ▸ ht)) ?_ ?_ (fun e => e.elim)
    · rintro t - hentry rfl
      cases entry_isCall hentry
    · intro i input t shared t' spawns _ ht hnext
      refine ⟨?_, ?_, fun u hu heq => task_gone hnext (hu heq)⟩
      · rintro rfl
        exact task_over hnext
      · rintro u hu rfl
        cases task_spawns hnext _ hu
  exact fun hmem => hall _ hmem rfl

theorem orderly_step {s s' : System} {l : Label} (h : Orderly s) (hok : InsertsInTime s l)
    (hstep : program.step s l = some s') : Orderly s' :=
  ⟨ids_step h.ids hstep, held_step h.ids h.held hstep, drains_step h.drains hok hstep, gone_step h.gone hstep⟩

theorem orderly_start : Orderly start := by
  have hid : ∀ t ∈ start.tasks, t.id = none := by
    intro t ht
    simp only [start, List.mem_cons, List.not_mem_nil, or_false] at ht
    rcases ht with rfl | rfl | rfl <;> rfl
  have hnone : ∀ {i : Nat} {t n}, start.tasks[i]? = some t → t.id ≠ some n := by
    intro i t n hi hn
    rw [hid t (List.mem_of_getElem? hi)] at hn
    cases hn
  refine ⟨⟨fun i t n hi hn => absurd hn (hnone hi), fun i j t u n hi hj hn => absurd hn (hnone hi)⟩, ?_, ?_, ?_⟩
  · intro t ht id hinserted
    rw [inserted_of_id (hid t ht)] at hinserted
    cases hinserted
  · exact fun hp => absurd rfl hp
  · intro hmem
    simp [start] at hmem

theorem orderly_run {labels : List Label} {s : System} (hmeets : Meets program.step InsertsInTime start labels)
    (h : exec program.step start labels = some s) : Orderly s :=
  exec_invariant program.step (fun _ _ _ hs hok hstep => orderly_step hs hok hstep) orderly_start hmeets h

/-! ### Every call returns -/

/-- The call has returned this. -/
def Task.Returned (P : Outcome → Prop) (t : Task) : Prop := ∃ outcome, t = .call (.returned outcome) ∧ P outcome

/-- It returned `Closed`. -/
def Closed (outcome : Outcome) : Prop := ∃ reason, outcome = .error (.closed reason)

private theorem comes_call {s : System} {i : Nat} {point point' : CallPoint} {shared : Shared} {G : Task → Prop}
    (hi : s.tasks[i]? = some (.call point)) (hnext : point.next s.shared .run = some (shared, point'))
    (h : ∀ s₁ : System, s₁.shared = shared → s₁.tasks[i]? = some (.call point') → program.Comes s₁ i .run G) :
    program.Comes s i .run G := by
  have htask : program.next s.shared (.call point) .run = some (shared, .call point', []) := by
    change (point.next s.shared .run).map _ = _
    rw [hnext]
    rfl
  exact Program.comes_next hi htask h

private theorem comes_returned {s : System} {i : Nat} {outcome : Outcome} {P : Outcome → Prop}
    (hi : s.tasks[i]? = some (.call (.returned outcome))) (h : P outcome) :
    program.Comes s i .run (Task.Returned P) := Program.comes_here hi ⟨outcome, rfl, h⟩

private theorem comes_withdrawing {s : System} {i id : Nat} (hi : s.tasks[i]? = some (.call (.withdrawing id))) :
    program.Comes s i .run (Task.Returned Closed) := by
  have hnext : (CallPoint.withdrawing id).next s.shared .run =
      some (s.shared.remove id, .returned (.error (.closed "writer task gone"))) := rfl
  exact comes_call hi hnext fun s₁ _ hi₁ => comes_returned hi₁ ⟨_, rfl⟩

private theorem comes_queueing {s : System} {i id : Nat} (hi : s.tasks[i]? = some (.call (.queueing id)))
    (hgone : s.shared.writerGone = true) : program.Comes s i .run (Task.Returned Closed) := by
  have hnext : (CallPoint.queueing id).next s.shared .run = some (s.shared, .withdrawing id) := by
    simp [CallPoint.next, hgone]
  exact comes_call hi hnext fun s₁ _ hi₁ => comes_withdrawing hi₁

private theorem comes_inserting {s : System} {i id : Nat} (hi : s.tasks[i]? = some (.call (.inserting id)))
    (hgone : s.shared.writerGone = true) : program.Comes s i .run (Task.Returned Closed) := by
  have hnext : (CallPoint.inserting id).next s.shared .run =
      some ({ s.shared with pending := s.shared.pending.insert id }, .queueing id) := rfl
  exact comes_call hi hnext fun s₁ hshared hi₁ => comes_queueing hi₁ (by rw [hshared]; exact hgone)

private theorem comes_numbering {s : System} {i : Nat} (hi : s.tasks[i]? = some (.call .numbering))
    (hgone : s.shared.writerGone = true) : program.Comes s i .run (Task.Returned Closed) := by
  have hnext : CallPoint.numbering.next s.shared .run =
      some ({ s.shared with nextId := s.shared.nextId + 1 }, .inserting s.shared.nextId) := rfl
  exact comes_call hi hnext fun s₁ hshared hi₁ => comes_inserting hi₁ (by rw [hshared]; exact hgone)

private theorem comes_checking {s : System} {i : Nat} (hi : s.tasks[i]? = some (.call .checking))
    (hgone : s.shared.writerGone = true) : program.Comes s i .run (Task.Returned Closed) := by
  by_cases hclosed : ∃ reason, s.shared.state = .closed reason
  · obtain ⟨reason, hstate⟩ := hclosed
    have hnext : CallPoint.checking.next s.shared .run = some (s.shared, .returned (.error (.closed reason))) := by
      simp [CallPoint.next, hstate]
    exact comes_call hi hnext fun s₁ _ hi₁ => comes_returned hi₁ ⟨_, rfl⟩
  · have hnext : CallPoint.checking.next s.shared .run = some (s.shared, .numbering) := by
      cases hstate : s.shared.state with
      | closed reason => exact absurd ⟨reason, hstate⟩ hclosed
      | _ => simp [CallPoint.next, hstate]
    exact comes_call hi hnext fun s₁ hshared hi₁ => comes_numbering hi₁ (by rw [hshared, hgone])

/-- The answer of a call that has arrived before it looks at its channel. -/
def CallPoint.Arrived (s : Shared) (point : CallPoint) (outcome : Outcome) : Prop :=
  outcome ≠ .error .timeout ∧ ∃ id, point = .waiting id ∧ s.answers id = some outcome

/-- The call has not returned, and its time has not run out. -/
def CallPoint.underway : CallPoint → Bool
  | .expiring _ | .returned _ => false
  | _ => true

private theorem comes_waiting {s : System} {i id : Nat} {outcome : Outcome}
    (hi : s.tasks[i]? = some (.call (.waiting id))) (hanswer : s.shared.answers id = some outcome)
    (ht : outcome ≠ .error .timeout) :
    program.Comes s i .run (Task.Returned ((CallPoint.waiting id).Arrived s.shared)) := by
  have hnext : (CallPoint.waiting id).next s.shared .run = some (s.shared, .returned outcome) := by
    simp [CallPoint.next, hanswer]
  exact comes_call hi hnext fun s₁ _ hi₁ => comes_returned hi₁ ⟨ht, id, rfl, hanswer⟩

/-- In every run in which a call inserts itself only while `fail_pending` is still ahead of some task: when every
closer has drained and the writer has ended, the map is empty, and every call that is under way returns `Closed`, or
the answer that has arrived, without its timer. -/
theorem no_call_orphaned {labels : List Label} {s : System}
    (hmeets : Meets program.step InsertsInTime start labels) (hrun : exec program.step start labels = some s)
    (hfinished : Finished s) :
    s.shared.pending = [] ∧
      ∀ (i : Nat) point, s.tasks[i]? = some (.call point) → point.underway →
        program.Comes s i .run (Task.Returned fun outcome => Closed outcome ∨ point.Arrived s.shared outcome) := by
  obtain ⟨-, hheld, hdrains, hgone⟩ := orderly_run hmeets hrun
  have hempty : s.shared.pending = [] := by
    by_contra hp
    obtain ⟨t, ht, hdrain⟩ := hdrains hp
    rw [hfinished.drained t ht] at hdrain
    cases hdrain
  have hwriter : s.shared.writerGone = true := hgone hfinished.writer
  refine ⟨hempty, ?_⟩
  intro i point hi hunder
  have hclosed : program.Comes s i .run (Task.Returned Closed) →
      program.Comes s i .run (Task.Returned fun outcome => Closed outcome ∨ point.Arrived s.shared outcome) := by
    intro hcomes
    refine hcomes.mono ?_
    rintro t ⟨outcome, rfl, hout⟩
    exact ⟨outcome, rfl, .inl hout⟩
  cases point with
  | checking => exact hclosed (comes_checking hi hwriter)
  | numbering => exact hclosed (comes_numbering hi hwriter)
  | inserting id => exact hclosed (comes_inserting hi hwriter)
  | queueing id => exact hclosed (comes_queueing hi hwriter)
  | withdrawing id => exact hclosed (comes_withdrawing hi)
  | waiting id =>
    rcases hheld _ (List.mem_of_getElem? hi) id rfl with hmem | ⟨outcome, hanswer, ht⟩
    · rw [hempty] at hmem
      cases hmem
    · refine (comes_waiting hi hanswer ht).mono ?_
      rintro t ⟨outcome, rfl, hout⟩
      exact ⟨outcome, rfl, .inr hout⟩
  | expiring id => cases hunder
  | returned outcome => cases hunder

/-- The call and the end of the stream, in this order; then the writer ends. -/
private def servedCall : List Label :=
  connectSteps ++ [.start (.call .checking), .task 4 .run, .task 4 .run, .task 4 .run, .task 4 .run, .task 1 .lost,
    .task 1 .run, .task 1 .run, .task 1 .run, .task 1 .run, .task 2 .abort, .task 2 .run]

/-- A call whose connection dies while it waits. -/
theorem no_call_orphaned_waiting :
    ∃ s, exec program.step start servedCall = some s ∧ s.shared.pending = [] ∧
      program.Comes s 4 .run (Task.Returned fun outcome =>
        Closed outcome ∨ (CallPoint.waiting 1).Arrived s.shared outcome) := by
  have hrun : ∃ s, exec program.step start servedCall = some s ∧
      s.tasks = [.connect .returned, .reader (.closing ungracefulCloseReason .over), .writer (.closing .over),
        .heartbeat .sleeping, .call (.waiting 1)] := ⟨_, rfl, rfl⟩
  obtain ⟨s, hs, htasks⟩ := hrun
  have hmeets : Meets program.step InsertsInTime start servedCall := by
    unfold servedCall connectSteps
    refine .cons _ rfl ?_ (.cons _ rfl ?_ (.cons _ rfl ?_ (.cons _ rfl ?_ (.cons _ rfl ?_ (.cons _ rfl ?_ (.cons _ rfl ?_
      (.cons _ rfl ?_ (.cons _ rfl ?_ (.cons _ rfl ?_ (.cons _ rfl ?_ (.cons _ rfl ?_ (.cons _ rfl ?_ (.cons _ rfl ?_
      (.cons _ rfl ?_ (.cons _ rfl ?_ trivial)))))))))))))))
    all_goals
      first
      | trivial
      | (rintro id ⟨⟩; done)
      | exact fun id _ => ⟨.reader .reading, List.mem_of_getElem? (i := 1) rfl, rfl⟩
  have hfinished : Finished s := by
    constructor
    · rw [htasks]
      simp [Task.willDrain, Closing.willDrain]
    · rw [htasks]
      simp
  obtain ⟨hempty, hcalls⟩ := no_call_orphaned hmeets hs hfinished
  exact ⟨s, hs, hempty, hcalls 4 (.waiting 1) (by rw [htasks]; rfl) rfl⟩

/-- The call passes its check; the reader publishes the close and drains; the call inserts itself and its line is
queued; the writer is aborted.  The call stands in the map and nothing but its timer wakes it. -/
theorem call_left_behind :
    ∃ s, exec program.step start (connectSteps ++ [.start (.call .checking), .task 4 .run, .task 4 .run,
        .task 1 (.closeFrame (some ⟨1000, "bye"⟩)), .task 1 .run, .task 1 .run, .task 1 .run, .task 4 .run,
        .task 4 .run, .task 1 .run, .task 2 .abort, .task 2 .run]) = some s ∧
      Finished s ∧ s.shared.pending = [1] ∧ s.tasks[4]? = some (.call (.waiting 1)) ∧
      program.step s (.task 4 .run) = none ∧ (program.step s (.task 4 .timeout)).isSome := by
  have hrun : ∃ s, exec program.step start (connectSteps ++ [.start (.call .checking), .task 4 .run, .task 4 .run,
      .task 1 (.closeFrame (some ⟨1000, "bye"⟩)), .task 1 .run, .task 1 .run, .task 1 .run, .task 4 .run,
      .task 4 .run, .task 1 .run, .task 2 .abort, .task 2 .run]) = some s ∧
      s.tasks = [.connect .returned, .reader (.closing "bye" .over), .writer (.closing .over), .heartbeat .sleeping,
        .call (.waiting 1)] ∧ s.shared.pending = [1] ∧ program.step s (.task 4 .run) = none ∧
      (program.step s (.task 4 .timeout)).isSome := ⟨_, rfl, rfl, rfl, rfl, rfl⟩
  obtain ⟨s, hs, htasks, hpending, hrun, htimeout⟩ := hrun
  refine ⟨s, hs, ⟨?_, ?_⟩, hpending, by rw [htasks]; rfl, hrun, htimeout⟩
  · rw [htasks]
    simp [Task.willDrain, Closing.willDrain]
  · rw [htasks]
    simp

end Hermo.Rpc
