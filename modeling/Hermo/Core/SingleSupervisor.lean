import Hermo.Core.Lifecycle

/-!
# Never two supervisors

The `supervising` flag has one owner at a time: a call that swapped it to true, and then the supervisor it spawned.
Every owner clears the flag or hands it on, so the owners are one when the flag is set and none when it is not.
-/

namespace Hermo.Lifecycle

open Run Tasks

/-- A supervisor task that has not ended. -/
def SupervisorPoint.alive : SupervisorPoint → Bool
  | .ended _ => false
  | _ => true

/-- The call swapped the flag and has not spawned its supervisor yet. -/
def ConnectPoint.owns : ConnectPoint → Bool
  | .spawning _ => true
  | _ => false

/-- The call swapped the flag and has neither released it nor spawned its supervisor. -/
def ForegroundPoint.owns : ForegroundPoint → Bool
  | .holding | .establishing | .releasing | .expired | .established _ | .installed _ | .spawning _ => true
  | .start | .probing | .swapping | .reporting | .returned => false

namespace Task

def alive : Task → Bool
  | .supervisor point _ => point.alive
  | _ => false

/-- The owner of the flag. -/
def owns : Task → Bool
  | .supervisor point _ => point.alive
  | .connect point => point.owns
  | .foreground point => point.owns
  | .disconnect _ | .forget _ => false

/-- A `connect` or `app_did_foreground` that has not returned. -/
def connecting : Task → Bool
  | .connect point => point != .returned
  | .foreground point => point != .returned
  | _ => false

theorem owns_of_alive {t : Task} (h : t.alive) : t.owns := by
  cases t with
  | supervisor point last => exact h
  | _ => cases h

/-- Whoever owns the flag is an alive supervisor or a call in progress. -/
theorem alive_or_connecting {t : Task} (h : t.owns) : t.alive ∨ t.connecting := by
  cases t with
  | supervisor point last => exact .inl h
  | connect point =>
    cases point with
    | spawning c => exact .inr rfl
    | _ => cases h
  | foreground point => cases point <;> first | exact .inr rfl | cases h
  | disconnect point => cases h
  | forget point => cases h

end Task

/-! ### The flag changes hands -/

private theorem supervisor_hands {s s' : Shared} {point point' : SupervisorPoint} {input : Input}
    {status : Option ConnectionStatus} (h : point.Step s input s' point' status)
    (hflag : point.alive = true → s.supervising = true) :
    point'.alive.toNat + s.supervising.toNat = point.alive.toNat + s'.supervising.toNat := by
  cases h with
  -- the flag is cleared behind `supervise_inner`, by the task that owns it
  | clears =>
    rw [hflag rfl]
    rfl
  | _ => rfl

private theorem spawned_owns (client : Option Nat) : (spawned client).countP Task.owns = client.isSome.toNat := by
  cases client <;> rfl

private theorem connect_hands {s s' : Shared} {point point' : ConnectPoint} {input : Input} {client : Option Nat}
    (h : point.Step s input s' point' client) :
    point'.owns.toNat + client.isSome.toNat + s.supervising.toNat = point.owns.toNat + s'.supervising.toNat := by
  cases h with
  | takes hflag | finds hflag =>
    rw [hflag]
    rfl
  | _ => simp [ConnectPoint.owns, Shared.connected]

private theorem foreground_hands {s s' : Shared} {point point' : ForegroundPoint} {input : Input}
    {client : Option Nat} (h : point.Step s input s' point' client)
    (hflag : point.owns = true → s.supervising = true) :
    point'.owns.toNat + client.isSome.toNat + s.supervising.toNat = point.owns.toNat + s'.supervising.toNat := by
  cases h with
  | takes hset | finds hset =>
    rw [hset]
    rfl
  -- an `establish` that failed: the flag goes back without a supervisor
  | releases | releasesExpired =>
    rw [hflag rfl]
    rfl
  | _ => simp [ForegroundPoint.owns, Shared.connected]

private theorem disconnect_hands {s s' : Shared} {point point' : DisconnectPoint}
    (h : point.Step s s' point') : s'.supervising = s.supervising := by
  cases h <;> rfl

private theorem forget_hands {s s' : Shared} {point point' : ForgetPoint}
    (h : point.Step s s' point') : s'.supervising = s.supervising := by
  cases h <;> rfl

/-- Every step of a task hands the flag on, takes it or clears it. -/
private theorem task_hands {s s' : Shared} {t t' : Task} {input : Input} {spawns : List Task}
    (h : t.next s input = some (s', t', spawns)) (hflag : t.owns = true → 0 < s.supervising.toNat) :
    t'.owns.toNat + spawns.countP Task.owns + s.supervising.toNat = t.owns.toNat + s'.supervising.toNat := by
  have hflag' : t.owns = true → s.supervising = true := fun ht => Program.flag_of_pos (hflag ht)
  cases task_moves h with
  | supervisor hnext => exact supervisor_hands hnext hflag'
  | connect hnext =>
    rw [spawned_owns]
    exact connect_hands hnext
  | foreground hnext =>
    rw [spawned_owns]
    exact foreground_hands hnext hflag'
  | disconnect hnext =>
    rw [disconnect_hands hnext]
    rfl
  | forget hnext =>
    rw [forget_hands hnext]
    rfl

private theorem entry_owns {t : Task} (h : t.isCall) : t.owns = false := by
  revert h
  fun_cases Task.isCall t
  all_goals first | (intro h; rfl) | (intro h; cases h)

/-- The flag is set exactly when it has an owner, and it has at most one. -/
theorem owners {labels : List Label} {s : System} (h : exec program.step start labels = some s) :
    s.tasks.countP Task.owns = s.shared.supervising.toNat := by
  have hstep : ∀ (s : System) (l : Label) (s' : System), s.tasks.countP Task.owns = s.shared.supervising.toNat →
      program.step s l = some s' → s'.tasks.countP Task.owns = s'.shared.supervising.toNat := by
    intro s l s' hs hstep
    refine Program.count_step (f := fun s => s.supervising.toNat) hstep hs (fun t ht => entry_owns ht) ?_ ?_
    · exact fun input t shared t' spawns hnext hflag => task_hands hnext hflag
    · rintro ⟨c, reason⟩ shared henv
      obtain ⟨-, rfl⟩ := Event.next_closed henv
      rfl
  exact exec_preserves program.step hstep rfl h

/-! ### A supervisor starts when there is none -/

/-- The steps of a call at place `i` of the task list. -/
def callSteps (i : Nat) (t : Task) (inputs : List Input) : List Label := .start t :: inputs.map (.task i ·)

def connectInputs : List Input := [.run, .establish .connected, .run, .run, .run, .run]

def foregroundInputs : List Input := [.run, .run, .run, .establish .connected, .run, .run, .run]

private theorem connect_starts {s : System} (h : s.shared.supervising = false) :
    ∃ s', exec program.step s (callSteps s.tasks.length (.connect .start) connectInputs) = some s' ∧
      s'.tasks = s.tasks ++ [.connect .returned, .supervisor (.top s.shared.published.length) none] := by
  obtain ⟨shared, tasks⟩ := s
  change shared.supervising = false at h
  have hfirst : program.step ⟨shared, tasks⟩ (.start (.connect .start)) =
      some ⟨shared, tasks ++ [.connect .start]⟩ := rfl
  simp [callSteps, exec, hfirst, connectInputs, Program.step_last, Task.next, ConnectPoint.next,
    Shared.connected, spawned, h]

private theorem foreground_starts {s : System} (h : s.shared.supervising = false) (hsink : s.shared.sink = true) :
    ∃ s', exec program.step s (callSteps s.tasks.length (.foreground .start) foregroundInputs) = some s' ∧
      s'.tasks = s.tasks ++ [.foreground .returned, .supervisor (.top s.shared.published.length) none] := by
  obtain ⟨shared, tasks⟩ := s
  change shared.supervising = false at h
  change shared.sink = true at hsink
  have hfirst : program.step ⟨shared, tasks⟩ (.start (.foreground .start)) =
      some ⟨shared, tasks ++ [.foreground .start]⟩ := rfl
  simp [callSteps, exec, hfirst, foregroundInputs, Program.step_last, Task.next, ForegroundPoint.next,
    Shared.connected, spawned, h, hsink]

/-- At most one supervisor is alive in every state of every run; when there is none and neither call is in progress
the flag is clear, and the next `connect` or `app_did_foreground` that reaches the gateway starts one. -/
theorem at_most_one_supervisor {labels : List Label} {s : System} (h : exec program.step start labels = some s) :
    s.tasks.countP Task.alive ≤ 1 ∧
      ((∀ t ∈ s.tasks, t.alive = false ∧ t.connecting = false) →
        s.shared.supervising = false ∧
        (∃ s', exec program.step s (callSteps s.tasks.length (.connect .start) connectInputs) = some s' ∧
          s'.tasks.countP Task.alive = 1) ∧
        (s.shared.sink = true →
          ∃ s', exec program.step s (callSteps s.tasks.length (.foreground .start) foregroundInputs) = some s' ∧
            s'.tasks.countP Task.alive = 1)) := by
  have howners := owners h
  constructor
  · have hle : s.tasks.countP Task.alive ≤ s.tasks.countP Task.owns :=
      List.countP_mono_left fun _ _ => Task.owns_of_alive
    have hflag := s.shared.supervising.toNat_le
    omega
  · intro hquiet
    -- without an alive supervisor and without a call nobody owns the flag
    have hnone : s.tasks.countP Task.owns = 0 := by
      rw [List.countP_eq_zero]
      intro t ht howns
      rcases Task.alive_or_connecting howns with halive | hcall
      · rw [(hquiet t ht).1] at halive
        cases halive
      · rw [(hquiet t ht).2] at hcall
        cases hcall
    have hdead : s.tasks.countP Task.alive = 0 := by
      rw [List.countP_eq_zero]
      intro t ht halive
      rw [(hquiet t ht).1] at halive
      cases halive
    have hclear : s.shared.supervising = false := by
      cases hflag : s.shared.supervising
      · rfl
      · rw [hflag, hnone] at howners
        cases howners
    refine ⟨hclear, ?_, ?_⟩
    · obtain ⟨s', hrun, htasks⟩ := connect_starts hclear
      refine ⟨s', hrun, ?_⟩
      rw [htasks, List.countP_append, hdead]
      rfl
    · intro hsink
      obtain ⟨s', hrun, htasks⟩ := foreground_starts hclear hsink
      refine ⟨s', hrun, ?_⟩
      rw [htasks, List.countP_append, hdead]
      rfl

/-- A second `connect` while the supervisor of the first is alive. -/
theorem at_most_one_supervisor_reconnect :
    ∃ s, exec program.step start
        (callSteps 0 (.connect .start) connectInputs ++ callSteps 2 (.connect .start) connectInputs.dropLast) = some s ∧
      s.tasks.countP Task.alive ≤ 1 := by
  have hrun : ∃ s, exec program.step start (callSteps 0 (.connect .start) connectInputs ++
      callSteps 2 (.connect .start) connectInputs.dropLast) = some s := ⟨_, rfl⟩
  obtain ⟨s, hs⟩ := hrun
  exact ⟨s, hs, (at_most_one_supervisor hs).1⟩

end Hermo.Lifecycle
