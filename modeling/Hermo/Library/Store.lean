import Mathlib.Algebra.GroupWithZero.Nat
import Mathlib.Data.List.InsertIdx
import Hermo.Library.Run

/-!
# Stores

A store runs a reducer on one thread.  An action changes the state and starts effects; an action may also cancel
effects that are in flight.  An effect waits for an answer; resumed with one it sends at most one action, and goes on
or ends.  What a run of a store preserves is shown with `Run.exec_invariant` from the two kinds of steps, `step_send`
and `step_resume`.
-/

namespace Store

open Run

variable {σ α ε ι : Type}

structure System (σ ε : Type) where
  state : σ
  effects : List ε

/-- `reduce` is `none` where the reducer traps; `sent` are the actions that come from outside. -/
structure Feature (σ α ε ι : Type) where
  reduce : σ → α → Option (σ × List ε)
  cancels : σ → α → ε → Bool
  resume : ε → ι → Option (Option α × Option ε)
  sent : α → Bool

inductive Label (α ι : Type) where
  | send (a : α)
  | resume (i : Nat) (input : ι)

/-- The system with a part of what its effects carry. -/
def System.map {ε' : Type} (onEffect : ε → ε') (s : System σ ε) : System σ ε' := ⟨s.state, s.effects.map onEffect⟩

def Label.map {α' : Type} (onAction : α → α') : Label α ι → Label α' ι
  | .send a => .send (onAction a)
  | .resume i input => .resume i input

namespace Feature

variable (f : Feature σ α ε ι)

def send (s : System σ ε) (a : α) : Option (System σ ε) :=
  (f.reduce s.state a).map fun (state, started) =>
    ⟨state, s.effects.filter (fun e => !f.cancels s.state a e) ++ started⟩

/-- The store after an effect was resumed: the effect is gone, and what it goes on with is in flight. -/
def after (s : System σ ε) (i : Nat) (rest : Option ε) : System σ ε :=
  ⟨s.state, s.effects.eraseIdx i ++ rest.toList⟩

def step (s : System σ ε) : Label α ι → Option (System σ ε)
  | .send a => if f.sent a then f.send s a else none
  | .resume i input =>
    match s.effects[i]? with
    | none => none
    | some e =>
      (f.resume e input).bind fun (action, rest) =>
        match action with
        | none => some (after s i rest)
        | some a => f.send (after s i rest) a

variable {f}

theorem send_eq {s s' : System σ ε} {a : α} (h : f.send s a = some s') :
    ∃ state started, f.reduce s.state a = some (state, started) ∧
      s' = ⟨state, s.effects.filter (fun e => !f.cancels s.state a e) ++ started⟩ := by
  obtain ⟨⟨state, started⟩, hreduce, rfl⟩ := Option.map_eq_some_iff.1 h
  exact ⟨state, started, hreduce, rfl⟩

theorem step_send {s s' : System σ ε} {a : α} (h : f.step s (.send a) = some s') : f.sent a ∧ f.send s a = some s' := by
  unfold step at h
  dsimp only at h
  split at h
  · rename_i hsent
    exact ⟨hsent, h⟩
  · cases h

/-- An effect was resumed, and what it sent was reduced. -/
theorem step_resume {s s' : System σ ε} {i : Nat} {input : ι} (h : f.step s (.resume i input) = some s') :
    ∃ e action rest, s.effects[i]? = some e ∧ f.resume e input = some (action, rest) ∧
      ((action = none ∧ s' = after s i rest) ∨ ∃ a, action = some a ∧ f.send (after s i rest) a = some s') := by
  unfold step at h
  dsimp only at h
  split at h
  · cases h
  · rename_i e he
    obtain ⟨⟨action, rest⟩, hresume, hrest⟩ := Option.bind_eq_some_iff.1 h
    refine ⟨e, action, rest, he, hresume, ?_⟩
    cases action with
    | none =>
      cases hrest
      exact .inl ⟨rfl, rfl⟩
    | some a => exact .inr ⟨a, rfl, hrest⟩

/-! ### Counting effects -/

/-- The effects of a kind, after one of them was resumed. -/
theorem count_after (w : ε → Bool) {s : System σ ε} {i : Nat} {e : ε} (he : s.effects[i]? = some e)
    (rest : Option ε) :
    (after s i rest).effects.countP w + (w e).toNat = s.effects.countP w + rest.toList.countP w := by
  obtain ⟨hlt, hget⟩ := List.getElem?_eq_some_iff.1 he
  have hsplit : s.effects.countP w = (s.effects.take i).countP w + (e :: s.effects.drop (i + 1)).countP w := by
    rw [← hget, ← List.drop_eq_getElem_cons hlt, ← List.countP_append, List.take_append_drop]
  unfold after
  rw [List.countP_append, List.eraseIdx_eq_take_drop_succ, List.countP_append]
  rw [List.countP_cons] at hsplit
  cases hw : w e <;> simp only [hw, Bool.toNat_true, Bool.toNat_false, Bool.false_eq_true, ↓reduceIte] at hsplit ⊢ <;>
    omega

/-- An action that cancels no effect of a kind adds those it starts. -/
theorem count_send (w : ε → Bool) {s : System σ ε} {a : α} (started : List ε)
    (hkeep : ∀ e ∈ s.effects, w e = true → f.cancels s.state a e = false) :
    (s.effects.filter (fun e => !f.cancels s.state a e) ++ started).countP w =
      s.effects.countP w + started.countP w := by
  rw [List.countP_append, List.countP_filter]
  congr 1
  apply List.countP_congr
  intro e he
  constructor
  · intro h
    exact (Bool.and_eq_true_iff.1 h).1
  · intro hw
    rw [hkeep e he hw, hw]
    rfl

/-- A sum over effects, without one of them. -/
theorem sum_eraseIdx {effects : List ε} {i : Nat} {e : ε} (he : effects[i]? = some e) (w : ε → Nat) :
    ((effects.eraseIdx i).map w).sum + w e = (effects.map w).sum := by
  induction effects generalizing i with
  | nil => cases he
  | cons e' effects ih =>
    cases i with
    | zero =>
      cases he
      rw [List.eraseIdx_cons_zero, List.map_cons, List.sum_cons, Nat.add_comm]
    | succ i =>
      have hrest := ih he
      rw [List.eraseIdx_cons_succ, List.map_cons, List.map_cons, List.sum_cons, List.sum_cons]
      omega

/-- A sum over effects, split by what is cancelled. -/
theorem sum_filter (effects : List ε) (p : ε → Bool) (w : ε → Nat) :
    ((effects.filter fun e => !p e).map w).sum + ((effects.filter p).map w).sum = (effects.map w).sum := by
  induction effects with
  | nil => rfl
  | cons e effects ih =>
    rw [List.filter_cons, List.filter_cons, List.map_cons, List.sum_cons]
    cases hp : p e <;> simp only [Bool.not_true, Bool.not_false, Bool.false_eq_true, ↓reduceIte, List.map_cons,
      List.sum_cons] <;> omega

/-- An effect in flight after a step was in flight before it, or is what one goes on with, or was started. -/
theorem mem_after {s : System σ ε} {i : Nat} {rest : Option ε} {e : ε} (h : e ∈ (after s i rest).effects) :
    e ∈ s.effects ∨ rest = some e := by
  unfold after at h
  rcases List.mem_append.1 h with h | h
  · exact .inl (List.mem_of_mem_eraseIdx h)
  · exact .inr (Option.mem_toList.1 h)

/-- An effect that was in flight before a step still is, or is the one that was resumed. -/
theorem mem_before {s : System σ ε} {i : Nat} {e e' : ε} (he : s.effects[i]? = some e) (h : e' ∈ s.effects)
    (rest : Option ε) : e' = e ∨ e' ∈ (after s i rest).effects := by
  obtain ⟨j, hj⟩ := List.mem_iff_getElem?.1 h
  by_cases hij : j = i
  · subst hij
    rw [he, Option.some_inj] at hj
    exact .inl hj.symm
  · exact .inr (List.mem_append_left _ (List.mem_eraseIdx_iff_getElem?.2 ⟨j, hij, hj⟩))

theorem mem_rest {s : System σ ε} {i : Nat} {rest : Option ε} {e : ε} (h : rest = some e) :
    e ∈ (after s i rest).effects := List.mem_append_right _ (Option.mem_toList.2 h)

theorem mem_send {s : System σ ε} {p : ε → Bool} {started : List ε} {e : ε} (h : e ∈ s.effects.filter p ++ started) :
    e ∈ s.effects ∨ e ∈ started := by
  rcases List.mem_append.1 h with h | h
  · exact .inl (List.mem_filter.1 h).1
  · exact .inr h

/-! ### Effects that carry more -/

/-- A feature whose actions and effects carry more than another's need does what the other one does. -/
theorem step_map {α' ε' : Type} {g : Feature σ α' ε' ι} {onAction : α → α'} {onEffect : ε → ε'}
    (hreduce : ∀ state a, g.reduce state (onAction a) =
      (f.reduce state a).map fun (state, started) => (state, started.map onEffect))
    (hcancels : ∀ state a e, g.cancels state (onAction a) (onEffect e) = f.cancels state a e)
    (hresume : ∀ {e input action rest}, f.resume e input = some (action, rest) →
      g.resume (onEffect e) input = some (action.map onAction, rest.map onEffect))
    (hsent : ∀ a, f.sent a → g.sent (onAction a)) {s s' : System σ ε} {l : Label α ι} (hstep : f.step s l = some s') :
    g.step (s.map onEffect) (l.map onAction) = some (s'.map onEffect) := by
  have hsend : ∀ {s s' : System σ ε} {a : α}, f.send s a = some s' →
      g.send (s.map onEffect) (onAction a) = some (s'.map onEffect) := by
    intro s s' a h
    obtain ⟨state, started, hstate, rfl⟩ := send_eq h
    have hkept : (s.effects.map onEffect).filter (fun e => !g.cancels s.state (onAction a) e) =
        (s.effects.filter fun e => !f.cancels s.state a e).map onEffect := by
      rw [List.filter_map]
      refine congrArg (List.map onEffect) (List.filter_congr fun e _ => ?_)
      rw [Function.comp_apply, hcancels]
    unfold send System.map
    dsimp only
    rw [hreduce, hstate, hkept, List.map_append]
    rfl
  cases l with
  | send a =>
    obtain ⟨ha, hs⟩ := step_send hstep
    exact (if_pos (hsent a ha)).trans (hsend hs)
  | resume i input =>
    obtain ⟨e, action, rest, he, hr, hafter⟩ := step_resume hstep
    have hlookup : (s.effects.map onEffect)[i]? = some (onEffect e) := by
      rw [List.getElem?_map, he]
      rfl
    have hrest : after (s.map onEffect) i (rest.map onEffect) = (after s i rest).map onEffect := by
      unfold after System.map
      dsimp only
      rw [List.map_append, List.eraseIdx_map]
      cases rest <;> rfl
    unfold step Label.map System.map
    dsimp only
    rw [hlookup]
    dsimp only
    rw [hresume hr]
    rcases hafter with ⟨rfl, rfl⟩ | ⟨a, rfl, hs⟩
    · exact congrArg some hrest
    · exact (congrArg (g.send · (onAction a)) hrest).trans (hsend hs)

theorem exec_map {α' ε' : Type} {g : Feature σ α' ε' ι} {onAction : α → α'} {onEffect : ε → ε'}
    (hreduce : ∀ state a, g.reduce state (onAction a) =
      (f.reduce state a).map fun (state, started) => (state, started.map onEffect))
    (hcancels : ∀ state a e, g.cancels state (onAction a) (onEffect e) = f.cancels state a e)
    (hresume : ∀ {e input action rest}, f.resume e input = some (action, rest) →
      g.resume (onEffect e) input = some (action.map onAction, rest.map onEffect))
    (hsent : ∀ a, f.sent a → g.sent (onAction a)) {s s' : System σ ε} {labels : List (Label α ι)}
    (hrun : exec f.step s labels = some s') :
    exec g.step (s.map onEffect) (labels.map (Label.map onAction)) = some (s'.map onEffect) := by
  induction labels generalizing s with
  | nil =>
    cases hrun
    rfl
  | cons l labels ih =>
    obtain ⟨t, ht, hrest⟩ := Option.bind_eq_some_iff.1 hrun
    refine Option.bind_eq_some_iff.2 ⟨t.map onEffect, ?_, ih hrest⟩
    exact step_map hreduce hcancels hresume hsent ht

end Feature

end Store
