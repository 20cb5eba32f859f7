import Hermo.Library.Tasks

/-!
# A task that might as well not be there

A step of a task is silent when it leaves the shared state alone and spawns nothing.  When all steps of a task are
silent, it can be left out of the run: the other labels, with the places behind it moved up, lead to the same shared
state (`exec_without`).
-/

namespace Tasks

open Run

variable {σ τ ι ε : Type}

/-- The system without task `i`. -/
def System.without (s : System σ τ) (i : Nat) : System σ τ := ⟨s.shared, s.tasks.eraseIdx i⟩

/-- The label in the system without task `i`; the labels of that task are gone. -/
def Label.without (i : Nat) : Label τ ι ε → Option (Label τ ι ε)
  | .start t => some (.start t)
  | .task j input => if j = i then none else some (.task (if j < i then j else j - 1) input)
  | .env e => some (.env e)

namespace Program

variable {p : Program σ τ ι ε}

variable (p) in
/-- A step of task `i` leaves the shared state alone and spawns nothing. -/
def Silent (i : Nat) (s : System σ τ) (l : Label τ ι ε) : Prop :=
  ∀ input s', l = .task i input → p.step s l = some s' → s'.shared = s.shared ∧ s'.tasks.length = s.tasks.length

theorem length_step {s s' : System σ τ} {l : Label τ ι ε} (hstep : p.step s l = some s') :
    s.tasks.length ≤ s'.tasks.length := by
  cases l with
  | start t =>
    obtain ⟨-, rfl⟩ := step_start hstep
    simp
  | task i input =>
    obtain ⟨t, shared, t', spawned, -, -, rfl⟩ := step_task hstep
    simp
  | env e =>
    obtain ⟨shared, -, rfl⟩ := step_env hstep
    exact Nat.le_refl _

private theorem without_silent {s s' : System σ τ} {i : Nat} {input : ι}
    (hstep : p.step s (.task i input) = some s') (hsilent : p.Silent i s (.task i input)) :
    s'.without i = s.without i := by
  obtain ⟨hshared, hlength⟩ := hsilent input s' rfl hstep
  obtain ⟨t, shared, t', spawned, -, -, rfl⟩ := step_task hstep
  have hspawned : spawned = [] := by simpa using hlength
  subst hspawned
  unfold System.without
  rw [List.append_nil, List.eraseIdx_set_eq]
  exact congrArg (System.mk · _) hshared

private theorem step_without {s s' : System σ τ} {i : Nat} {l l' : Label τ ι ε} (hi : i < s.tasks.length)
    (hstep : p.step s l = some s') (hl : l.without i = some l') : p.step (s.without i) l' = some (s'.without i) := by
  cases l with
  | start t =>
    cases hl
    obtain ⟨hentry, rfl⟩ := step_start hstep
    unfold step System.without
    dsimp only
    rw [if_pos hentry, List.eraseIdx_append_of_lt_length hi]
  | env e =>
    cases hl
    obtain ⟨shared, henv, rfl⟩ := step_env hstep
    unfold step System.without
    dsimp only
    rw [henv]
    rfl
  | task j input =>
    obtain ⟨t, shared, t', spawned, ht, hnext, rfl⟩ := step_task hstep
    obtain ⟨hji, hl⟩ := Option.ite_none_left_eq_some.1 hl
    cases hl
    by_cases hlt : j < i
    · rw [if_pos hlt]
      have ht' : (s.without i).tasks[j]? = some t := by
        unfold System.without
        rwa [List.getElem?_eraseIdx_of_lt hlt]
      rw [task_step ht' hnext]
      unfold System.without
      dsimp only
      rw [List.eraseIdx_append_of_lt_length (by simpa using hi), List.eraseIdx_set_gt hlt]
    · rw [if_neg hlt]
      have ht' : (s.without i).tasks[j - 1]? = some t := by
        unfold System.without
        rw [List.getElem?_eraseIdx_of_ge (by omega), Nat.sub_add_cancel (by omega), ht]
      rw [task_step ht' hnext]
      unfold System.without
      dsimp only
      rw [List.eraseIdx_append_of_lt_length (by simpa using hi), List.eraseIdx_set_lt (by omega)]

/-- A run, without a task whose steps are all silent. -/
theorem exec_without {s s' : System σ τ} {i : Nat} {labels : List (Label τ ι ε)} (hi : i < s.tasks.length)
    (hsilent : Meets p.step (p.Silent i) s labels) (hrun : exec p.step s labels = some s') :
    exec p.step (s.without i) (labels.filterMap (Label.without i)) = some (s'.without i) := by
  induction labels generalizing s with
  | nil =>
    cases hrun
    rfl
  | cons l labels ih =>
    obtain ⟨t, ht, hrest⟩ := Option.bind_eq_some_iff.1 hrun
    have htail := ih (Nat.lt_of_lt_of_le hi (length_step ht)) (hsilent.2 t ht) hrest
    cases hl : l.without i with
    | none =>
      rw [List.filterMap_cons_none hl]
      cases l with
      | start t => cases hl
      | env e => cases hl
      | task j input =>
        obtain rfl : j = i := by simpa [Label.without] using hl
        rwa [without_silent ht hsilent.1] at htail
    | some l' =>
      rw [List.filterMap_cons_some hl]
      unfold exec
      rw [step_without hi ht hl]
      exact htail

end Program

end Tasks
