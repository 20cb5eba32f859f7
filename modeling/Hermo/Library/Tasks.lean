import Mathlib.Algebra.GroupWithZero.Nat
import Mathlib.Data.List.Basic
import Hermo.Library.Run

/-!
# Tasks over a shared state

A system is a shared state and a list of tasks, each at its own program point.  A label lets one task take its next
step, which may spawn others, starts a new task at an entry point, or is an event of the environment.  An invariant of
such a system is one of four kinds, and each has its step rule: a condition on every task that the steps of the others
leave alone (`forall_step`), a task that must be there for something the shared state says (`exists_step`), a number
in the shared state that counts tasks (`count_step`), and numbers of tasks that a counter hands out (`distinct_step`).
What a task can do without the others is `Comes`.
-/

namespace Tasks

open Run

variable {σ τ ι ε : Type}

structure System (σ τ : Type) where
  shared : σ
  tasks : List τ

/-- What a task does on an input, with the tasks it spawns; what the environment does; where tasks start. -/
structure Program (σ τ ι ε : Type) where
  next : σ → τ → ι → Option (σ × τ × List τ)
  env : σ → ε → Option σ
  entry : σ → τ → Bool

inductive Label (τ ι ε : Type) where
  | start (t : τ)
  | task (i : Nat) (input : ι)
  | env (e : ε)

/-- The system with a part of what its tasks carry. -/
def System.map {τ' : Type} (f : τ → τ') (s : System σ τ) : System σ τ' := ⟨s.shared, s.tasks.map f⟩

def Label.map {τ' ι' : Type} (f : τ → τ') (g : ι → ι') : Label τ ι ε → Label τ' ι' ε
  | .start t => .start (f t)
  | .task i input => .task i (g input)
  | .env e => .env e

namespace Program

variable (p : Program σ τ ι ε)

def step (s : System σ τ) : Label τ ι ε → Option (System σ τ)
  | .start t => if p.entry s.shared t then some ⟨s.shared, s.tasks ++ [t]⟩ else none
  | .task i input =>
    match s.tasks[i]? with
    | none => none
    | some t =>
      (p.next s.shared t input).map fun (shared, t', spawned) => ⟨shared, s.tasks.set i t' ++ spawned⟩
  | .env e => (p.env s.shared e).map fun shared => ⟨shared, s.tasks⟩

variable {p}

theorem step_start {s s' : System σ τ} {t : τ} (h : p.step s (.start t) = some s') :
    p.entry s.shared t ∧ s' = ⟨s.shared, s.tasks ++ [t]⟩ := by
  unfold step at h
  dsimp only at h
  split at h <;> cases h
  rename_i ht
  exact ⟨ht, rfl⟩

theorem step_task {s s' : System σ τ} {i : Nat} {input : ι} (h : p.step s (.task i input) = some s') :
    ∃ t shared t' spawned, s.tasks[i]? = some t ∧ p.next s.shared t input = some (shared, t', spawned) ∧
      s' = ⟨shared, s.tasks.set i t' ++ spawned⟩ := by
  unfold step at h
  dsimp only at h
  split at h
  · cases h
  · rename_i t ht
    obtain ⟨⟨shared, t', spawned⟩, hnext, rfl⟩ := Option.map_eq_some_iff.1 h
    exact ⟨t, shared, t', spawned, ht, hnext, rfl⟩

theorem step_env {s s' : System σ τ} {e : ε} (h : p.step s (.env e) = some s') :
    ∃ shared, p.env s.shared e = some shared ∧ s' = ⟨shared, s.tasks⟩ := by
  obtain ⟨shared, henv, rfl⟩ := Option.map_eq_some_iff.1 h
  exact ⟨shared, henv, rfl⟩

/-- The step a task takes, read as an equation. -/
theorem task_step {s : System σ τ} {i : Nat} {input : ι} {t t' : τ} {shared : σ} {spawned : List τ}
    (ht : s.tasks[i]? = some t) (hnext : p.next s.shared t input = some (shared, t', spawned)) :
    p.step s (.task i input) = some ⟨shared, s.tasks.set i t' ++ spawned⟩ := by
  unfold step
  dsimp only
  rw [ht]
  dsimp only
  rw [hnext]
  rfl

/-- A step of the task that was started last. -/
theorem step_last (shared : σ) (tasks : List τ) (t : τ) (input : ι) :
    p.step ⟨shared, tasks ++ [t]⟩ (.task tasks.length input) =
      (p.next shared t input).map fun (shared', t', spawned) => ⟨shared', tasks ++ t' :: spawned⟩ := by
  unfold step
  dsimp only
  rw [List.getElem?_concat_length]
  dsimp only
  cases p.next shared t input with
  | none => rfl
  | some result => simp

/-! ### The tasks after a step -/

/-- A task of the system after a step of task `i`: the stepping one, a spawned one, or one of the others. -/
theorem mem_after {tasks spawned : List τ} {i : Nat} {t' u : τ} (h : u ∈ tasks.set i t' ++ spawned) :
    u = t' ∨ u ∈ spawned ∨ ∃ j, j ≠ i ∧ tasks[j]? = some u := by
  rcases List.mem_append.1 h with h | h
  · obtain ⟨j, hj⟩ := List.mem_iff_getElem?.1 h
    by_cases hij : j = i
    · subst hij
      have hlt : j < (tasks.set j t').length := (List.getElem?_eq_some_iff.1 hj).1
      rw [List.length_set] at hlt
      rw [List.getElem?_set_self hlt, Option.some_inj] at hj
      exact .inl hj.symm
    · rw [List.getElem?_set_ne (Ne.symm hij)] at hj
      exact .inr (.inr ⟨j, hij, hj⟩)
  · exact .inr (.inl h)

theorem stepped_mem {tasks : List τ} {i : Nat} {t t' : τ} (h : tasks[i]? = some t) (spawned : List τ) :
    t' ∈ tasks.set i t' ++ spawned := by
  obtain ⟨hlt, -⟩ := List.getElem?_eq_some_iff.1 h
  exact List.mem_append_left _ (List.mem_set hlt t')

/-- Another task is still there. -/
theorem other_mem {tasks : List τ} {i j : Nat} {u : τ} (hij : j ≠ i) (h : tasks[j]? = some u) (t' : τ)
    (spawned : List τ) : u ∈ tasks.set i t' ++ spawned := by
  refine List.mem_append_left _ (List.mem_iff_getElem?.2 ⟨j, ?_⟩)
  rw [List.getElem?_set_ne (Ne.symm hij), h]

/-- A task that is not the stepping one stays. -/
theorem exists_after {G : τ → Prop} {tasks : List τ} {i : Nat} {t : τ} (ht : tasks[i]? = some t)
    (h : ∃ u ∈ tasks, G u) (hg : ¬ G t) (t' : τ) (spawned : List τ) : ∃ u ∈ tasks.set i t' ++ spawned, G u := by
  obtain ⟨u, hu, hgu⟩ := h
  obtain ⟨j, hj⟩ := List.mem_iff_getElem?.1 hu
  have hij : j ≠ i := by
    rintro rfl
    rw [ht, Option.some_inj] at hj
    exact hg (hj ▸ hgu)
  exact ⟨u, other_mem hij hj t' spawned, hgu⟩

/-- The place of a task does not change. -/
theorem getElem?_after {tasks : List τ} {i j : Nat} {u : τ} (h : tasks[j]? = some u) (t' : τ) (spawned : List τ) :
    (tasks.set i t' ++ spawned)[j]? = if j = i then some t' else some u := by
  obtain ⟨hlt, -⟩ := List.getElem?_eq_some_iff.1 h
  rw [List.getElem?_append_left (by simpa using hlt)]
  by_cases hij : j = i
  · subst hij
    rw [if_pos rfl, List.getElem?_set_self hlt]
  · rw [if_neg hij, List.getElem?_set_ne (Ne.symm hij), h]

/-- A task at a place after a step. -/
theorem lookup_after {tasks spawned : List τ} {i j : Nat} {t' u : τ} (h : (tasks.set i t' ++ spawned)[j]? = some u) :
    (j = i ∧ u = t') ∨ (j ≠ i ∧ tasks[j]? = some u) ∨ u ∈ spawned := by
  by_cases hlt : j < tasks.length
  · rw [List.getElem?_append_left (by simpa using hlt)] at h
    by_cases hij : j = i
    · subst hij
      rw [List.getElem?_set_self hlt, Option.some_inj] at h
      exact .inl ⟨rfl, h.symm⟩
    · rw [List.getElem?_set_ne (Ne.symm hij)] at h
      exact .inr (.inl ⟨hij, h⟩)
  · rw [List.getElem?_append_right (by simpa using hlt)] at h
    exact .inr (.inr (List.mem_of_getElem? h))

/-- How many tasks count after a step: the stepping task may stop or start to. -/
theorem countP_after {tasks : List τ} {i : Nat} {t : τ} (h : tasks[i]? = some t) (w : τ → Bool) (t' : τ)
    (spawned : List τ) :
    (tasks.set i t' ++ spawned).countP w + (w t).toNat = tasks.countP w + (w t').toNat + spawned.countP w := by
  obtain ⟨hlt, hget⟩ := List.getElem?_eq_some_iff.1 h
  have hmem : w t = true → 0 < tasks.countP w := fun hw => List.countP_pos_iff.2 ⟨t, List.mem_of_getElem? h, hw⟩
  rw [List.countP_append, List.countP_set hlt, hget]
  generalize tasks.countP w = total at hmem ⊢
  cases hw : w t <;> cases hw' : w t' <;>
    simp only [hw, Bool.toNat_true, Bool.toNat_false, Bool.false_eq_true, ↓reduceIte, forall_const] at hmem ⊢ <;>
    omega

/-- A sum over the tasks after a step. -/
theorem sum_after {tasks : List τ} {i : Nat} {t : τ} (h : tasks[i]? = some t) (w : τ → Nat) (t' : τ)
    (spawned : List τ) :
    ((tasks.set i t' ++ spawned).map w).sum + w t = (tasks.map w).sum + w t' + (spawned.map w).sum := by
  rw [List.map_append, List.sum_append]
  induction tasks generalizing i with
  | nil => cases h
  | cons u tasks ih =>
    cases i with
    | zero =>
      cases h
      rw [List.set_cons_zero, List.map_cons, List.map_cons, List.sum_cons, List.sum_cons]
      omega
    | succ i =>
      have hrest := ih h
      rw [List.set_cons_succ, List.map_cons, List.map_cons, List.sum_cons, List.sum_cons]
      omega

/-! ### Step rules -/

/-- A condition on every task: the stepping task and what it spawns meet it, and the others keep it. -/
theorem forall_step {P : σ → τ → Prop} {s s' : System σ τ} {l : Label τ ι ε} (hstep : p.step s l = some s')
    (h : ∀ t ∈ s.tasks, P s.shared t) (hstart : ∀ t, l = .start t → p.entry s.shared t → P s.shared t)
    (htask : ∀ i input t shared t' spawned, l = .task i input → s.tasks[i]? = some t →
      p.next s.shared t input = some (shared, t', spawned) →
        P shared t' ∧ (∀ u ∈ spawned, P shared u) ∧ ∀ u, P s.shared u → P shared u)
    (henv : ∀ e shared, l = .env e → p.env s.shared e = some shared → ∀ u, P s.shared u → P shared u) :
    ∀ t ∈ s'.tasks, P s'.shared t := by
  cases l with
  | start t =>
    obtain ⟨hentry, rfl⟩ := step_start hstep
    intro u hu
    rcases List.mem_append.1 hu with hu | hu
    · exact h u hu
    · rw [List.mem_singleton.1 hu]
      exact hstart t rfl hentry
  | task i input =>
    obtain ⟨t, shared, t', spawned, ht, hnext, rfl⟩ := step_task hstep
    obtain ⟨hown, hspawned, hothers⟩ := htask i input t shared t' spawned rfl ht hnext
    intro u hu
    rcases mem_after hu with rfl | hu | ⟨j, -, hj⟩
    · exact hown
    · exact hspawned u hu
    · exact hothers u (h u (List.mem_of_getElem? hj))
  | env e =>
    obtain ⟨shared, henv', rfl⟩ := step_env hstep
    exact fun u hu => henv e shared rfl henv' u (h u hu)

/-- A need of the shared state that a task stands for: a step that leaves or raises a need leaves a task for it. -/
theorem exists_step {γ : Type} {N : σ → γ → Prop} {G : γ → τ → Prop} {s s' : System σ τ} {l : Label τ ι ε}
    (hstep : p.step s l = some s') (h : ∀ c, N s.shared c → ∃ t ∈ s.tasks, G c t)
    (htask : ∀ i input t shared t' spawned, l = .task i input → s.tasks[i]? = some t →
      p.next s.shared t input = some (shared, t', spawned) → ∀ c, N shared c →
        G c t' ∨ (∃ u ∈ spawned, G c u) ∨ (N s.shared c ∧ ¬ G c t))
    (henv : ∀ e shared, l = .env e → p.env s.shared e = some shared → ∀ c, N shared c → N s.shared c) :
    ∀ c, N s'.shared c → ∃ t ∈ s'.tasks, G c t := by
  cases l with
  | start t =>
    obtain ⟨-, rfl⟩ := step_start hstep
    intro c hc
    obtain ⟨u, hu, hg⟩ := h c hc
    exact ⟨u, List.mem_append_left _ hu, hg⟩
  | task i input =>
    obtain ⟨t, shared, t', spawned, ht, hnext, rfl⟩ := step_task hstep
    intro c hc
    rcases htask i input t shared t' spawned rfl ht hnext c hc with hg | ⟨u, hu, hg⟩ | ⟨hn, hg⟩
    · exact ⟨t', stepped_mem ht spawned, hg⟩
    · exact ⟨u, List.mem_append_right _ hu, hg⟩
    · exact exists_after ht (h c hn) hg t' spawned
  | env e =>
    obtain ⟨shared, henv', rfl⟩ := step_env hstep
    exact fun c hc => h c (henv e shared rfl henv' c hc)

/-- A flag that counts its owner. -/
theorem flag_of_pos {b : Bool} (h : 0 < b.toNat) : b = true := by
  cases b
  · cases h
  · rfl

/-- A number of the shared state that counts tasks: a step moves both by the same amount. -/
theorem balance_step {w : τ → Bool} {f : σ → Int} {s s' : System σ τ} {l : Label τ ι ε}
    (hstep : p.step s l = some s') (h : f s.shared = s.tasks.countP w)
    (hstart : ∀ t, p.entry s.shared t → w t = false)
    (htask : ∀ i input t shared t' spawned, l = .task i input → s.tasks[i]? = some t →
      p.next s.shared t input = some (shared, t', spawned) →
        f shared + (w t).toNat = f s.shared + (w t').toNat + spawned.countP w)
    (henv : ∀ e shared, p.env s.shared e = some shared → f shared = f s.shared) :
    f s'.shared = s'.tasks.countP w := by
  cases l with
  | start t =>
    obtain ⟨hentry, rfl⟩ := step_start hstep
    rw [List.countP_append, List.countP_singleton, hstart t hentry]
    exact h
  | task i input =>
    obtain ⟨t, shared, t', spawned, ht, hnext, rfl⟩ := step_task hstep
    have hbalance := htask i input t shared t' spawned rfl ht hnext
    have hcount := countP_after ht w t' spawned
    change f shared = ((s.tasks.set i t' ++ spawned).countP w : Int)
    omega
  | env e =>
    obtain ⟨shared, henv', rfl⟩ := step_env hstep
    exact (henv e shared henv').trans h

/-- A natural number that counts tasks. -/
theorem count_step {w : τ → Bool} {f : σ → Nat} {s s' : System σ τ} {l : Label τ ι ε}
    (hstep : p.step s l = some s') (h : s.tasks.countP w = f s.shared)
    (hstart : ∀ t, p.entry s.shared t → w t = false)
    (htask : ∀ input t shared t' spawned, p.next s.shared t input = some (shared, t', spawned) →
      (w t = true → 0 < f s.shared) → (w t').toNat + spawned.countP w + f s.shared = (w t).toNat + f shared)
    (henv : ∀ e shared, p.env s.shared e = some shared → f shared = f s.shared) :
    s'.tasks.countP w = f s'.shared := by
  have hbalance : (f s'.shared : Int) = s'.tasks.countP w := by
    refine balance_step (f := fun s => (f s : Int)) hstep (by omega) hstart ?_ ?_
    · intro i input t shared t' spawned _ ht hnext
      have hmem : w t = true → 0 < f s.shared := fun hw =>
        h ▸ List.countP_pos_iff.2 ⟨t, List.mem_of_getElem? ht, hw⟩
      have hmoves := htask input t shared t' spawned hnext hmem
      omega
    · intro e shared henv'
      exact congrArg Nat.cast (henv e shared henv')
  omega

/-- No two tasks have the same number, and the numbers in use lie below the counter. -/
structure Distinct (number : τ → Option Nat) (counter : σ → Nat) (s : System σ τ) : Prop where
  below : ∀ (i : Nat) t n, s.tasks[i]? = some t → number t = some n → n < counter s.shared
  unique : ∀ (i j : Nat) t u n, s.tasks[i]? = some t → s.tasks[j]? = some u → number t = some n →
    number u = some n → i = j

/-- Numbers that are drawn from a counter: a step keeps the number of its task, drops it, or draws a new one. -/
theorem distinct_step {number : τ → Option Nat} {counter : σ → Nat} {s s' : System σ τ} {l : Label τ ι ε}
    (hstep : p.step s l = some s') (h : Distinct number counter s)
    (hstart : ∀ t, p.entry s.shared t → number t = none)
    (htask : ∀ input t shared t' spawned, p.next s.shared t input = some (shared, t', spawned) →
      counter s.shared ≤ counter shared ∧ (∀ u ∈ spawned, number u = none) ∧
        ∀ n, number t' = some n → number t = some n ∨ (n = counter s.shared ∧ n < counter shared))
    (henv : ∀ e shared, p.env s.shared e = some shared → counter s.shared ≤ counter shared) :
    Distinct number counter s' := by
  cases l with
  | start t =>
    obtain ⟨hentry, rfl⟩ := step_start hstep
    have hnone := hstart t hentry
    have hold : ∀ {i : Nat} {u n}, (s.tasks ++ [t])[i]? = some u → number u = some n → s.tasks[i]? = some u := by
      intro i u n hi hn
      by_cases hlt : i < s.tasks.length
      · rwa [List.getElem?_append_left hlt] at hi
      · rw [List.getElem?_append_right (Nat.le_of_not_lt hlt)] at hi
        rw [List.mem_singleton.1 (List.mem_of_getElem? hi), hnone] at hn
        cases hn
    refine ⟨fun i u n hi hn => h.below i u n (hold hi hn) hn, ?_⟩
    exact fun i j u v n hi hj hu hv => h.unique i j u v n (hold hi hu) (hold hj hv) hu hv
  | task k input =>
    obtain ⟨t, shared, t', spawned, ht, hnext, rfl⟩ := step_task hstep
    obtain ⟨hle, hspawned, hnumber⟩ := htask input t shared t' spawned hnext
    -- a numbered task is an old one, or the stepping one with a number it had or drew
    have hcases : ∀ {i : Nat} {u n}, (s.tasks.set k t' ++ spawned)[i]? = some u → number u = some n →
        (i ≠ k ∧ s.tasks[i]? = some u) ∨
          (i = k ∧ (number t = some n ∨ (n = counter s.shared ∧ n < counter shared))) := by
      intro i u n hi hn
      rcases lookup_after hi with ⟨rfl, rfl⟩ | hother | hnew
      · exact .inr ⟨rfl, hnumber n hn⟩
      · exact .inl hother
      · rw [hspawned u hnew] at hn
        cases hn
    constructor
    · intro i u n hi hn
      rcases hcases hi hn with ⟨-, hold⟩ | ⟨rfl, hold | ⟨-, hlt⟩⟩
      · exact Nat.lt_of_lt_of_le (h.below i u n hold hn) hle
      · exact Nat.lt_of_lt_of_le (h.below i t n ht hold) hle
      · exact hlt
    · intro i j u v n hi hj hu hv
      rcases hcases hi hu with ⟨hik, hui⟩ | ⟨rfl, hti⟩ <;> rcases hcases hj hv with ⟨hjk, hvj⟩ | ⟨rfl, htj⟩
      · exact h.unique i j u v n hui hvj hu hv
      · rcases htj with hold | ⟨rfl, -⟩
        · exact h.unique i j u t n hui ht hu hold
        · exact absurd (h.below i u _ hui hu) (Nat.lt_irrefl _)
      · rcases hti with hold | ⟨rfl, -⟩
        · exact h.unique i j t v n ht hvj hold hv
        · exact absurd (h.below j v _ hvj hv) (Nat.lt_irrefl _)
      · rfl
  | env e =>
    obtain ⟨shared, henv', rfl⟩ := step_env hstep
    exact ⟨fun i t n hi hn => Nat.lt_of_lt_of_le (h.below i t n hi hn) (henv e shared henv'), h.unique⟩

/-! ### Tasks that carry more -/

/-- A program whose tasks carry more than another's need does what the other one does. -/
theorem step_map {τ' ι' : Type} {q : Program σ τ' ι' ε} {f : τ → τ'} {g : ι → ι'}
    (hnext : ∀ {shared t input shared' t' spawned}, p.next shared t input = some (shared', t', spawned) →
      q.next shared (f t) (g input) = some (shared', f t', spawned.map f))
    (henv : p.env = q.env) (hentry : ∀ shared t, p.entry shared t → q.entry shared (f t)) {s s' : System σ τ}
    {l : Label τ ι ε} (hstep : p.step s l = some s') : q.step (s.map f) (l.map f g) = some (s'.map f) := by
  cases l with
  | start t =>
    obtain ⟨ht, rfl⟩ := step_start hstep
    unfold step Label.map System.map
    dsimp only
    rw [if_pos (hentry _ _ ht), List.map_append]
    rfl
  | task i input =>
    obtain ⟨t, shared, t', spawned, ht, htask, rfl⟩ := step_task hstep
    have hlookup : (s.tasks.map f)[i]? = some (f t) := by rw [List.getElem?_map, ht]; rfl
    unfold System.map
    dsimp only
    rw [List.map_append, List.map_set]
    exact task_step (s := s.map f) hlookup (hnext htask)
  | env e =>
    obtain ⟨shared, he, rfl⟩ := step_env hstep
    rw [henv] at he
    unfold step Label.map System.map
    dsimp only
    rw [he]
    rfl

theorem exec_map {τ' ι' : Type} {q : Program σ τ' ι' ε} {f : τ → τ'} {g : ι → ι'}
    (hnext : ∀ {shared t input shared' t' spawned}, p.next shared t input = some (shared', t', spawned) →
      q.next shared (f t) (g input) = some (shared', f t', spawned.map f))
    (henv : p.env = q.env) (hentry : ∀ shared t, p.entry shared t → q.entry shared (f t)) {s s' : System σ τ}
    {labels : List (Label τ ι ε)} (hrun : exec p.step s labels = some s') :
    exec q.step (s.map f) (labels.map (Label.map f g)) = some (s'.map f) := by
  induction labels generalizing s with
  | nil =>
    cases hrun
    rfl
  | cons l labels ih =>
    obtain ⟨t, ht, hrest⟩ := Option.bind_eq_some_iff.1 hrun
    refine Option.bind_eq_some_iff.2 ⟨t.map f, ?_, ih hrest⟩
    exact step_map hnext henv hentry ht

/-! ### A task on its own -/

variable (p) in
/-- With this input only, and no step of the others, the task comes to where `G` holds. -/
def Comes (s : System σ τ) (i : Nat) (input : ι) (G : τ → Prop) : Prop :=
  ∃ n s' t, exec p.step s (List.replicate n (.task i input)) = some s' ∧ s'.tasks[i]? = some t ∧ G t

theorem comes_here {s : System σ τ} {i : Nat} {input : ι} {G : τ → Prop} {t : τ} (ht : s.tasks[i]? = some t)
    (h : G t) : p.Comes s i input G := ⟨0, s, t, rfl, ht, h⟩

theorem Comes.mono {s : System σ τ} {i : Nat} {input : ι} {G G' : τ → Prop} (h : p.Comes s i input G)
    (hG : ∀ t, G t → G' t) : p.Comes s i input G' := by
  obtain ⟨n, s', t, hrun, ht, hg⟩ := h
  exact ⟨n, s', t, hrun, ht, hG t hg⟩

theorem comes_next {s : System σ τ} {i : Nat} {input : ι} {G : τ → Prop} {t t' : τ} {shared : σ} {spawned : List τ}
    (ht : s.tasks[i]? = some t) (hnext : p.next s.shared t input = some (shared, t', spawned))
    (h : ∀ s₁ : System σ τ, s₁.shared = shared → s₁.tasks[i]? = some t' → p.Comes s₁ i input G) :
    p.Comes s i input G := by
  have hafter : (s.tasks.set i t' ++ spawned)[i]? = some t' := by rw [getElem?_after ht, if_pos rfl]
  obtain ⟨n, s', u, hrun, hu, hg⟩ := h ⟨shared, s.tasks.set i t' ++ spawned⟩ rfl hafter
  refine ⟨n + 1, s', u, ?_, hu, hg⟩
  rw [List.replicate_succ]
  unfold exec
  rw [task_step ht hnext]
  exact hrun

end Program

end Tasks
