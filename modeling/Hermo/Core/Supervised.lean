import Hermo.Core.SingleSupervisor

/-!
# Every installed connection is supervised

Between the install of a client and the spawn of its supervisor the call stands for the client.  A `connect` that
finds the flag taken returns without a supervisor of its own, and the one that is alive keeps its old client; so it
must not leave behind an open client that is still installed.
-/

namespace Hermo.Lifecycle

open Run Tasks

/-- The client whose events and state the supervisor consumes. -/
def SupervisorPoint.client : SupervisorPoint → Option Nat
  | .top c | .sawOpen c | .resume c | .resuming c | .events c => some c
  | _ => none

/-- The installed client a supervisor is to be spawned for. -/
def ConnectPoint.client : ConnectPoint → Option Nat
  | .installed c | .unstopped c | .spawning c => some c
  | _ => none

def ForegroundPoint.client : ForegroundPoint → Option Nat
  | .installed c | .spawning c => some c
  | _ => none

/-- The client a task stands for. -/
def Task.client : Task → Option Nat
  | .supervisor point _ => point.client
  | .connect point => point.client
  | .foreground point => point.client
  | .disconnect _ | .forget _ => none

/-- A call that has not returned. -/
def Task.inProgress : Task → Bool
  | .supervisor _ _ => false
  | .connect point => point != .returned
  | .foreground point => point != .returned
  | .disconnect point => point != .returned
  | .forget point => point != .returned

/-- `state.client` is this client, and it is open. -/
def Shared.Installed (s : Shared) (c : Nat) : Prop := s.client = some c ∧ s.reason c = none

/-- A `connect` that finds the flag taken does not leave its client installed and open. -/
def LeavesNoClient (s : System) : Label → Prop
  | .task i .run => ∀ c, s.tasks[i]? = some (.connect (.unstopped c)) → s.shared.supervising = true →
      ¬ s.shared.Installed c
  | _ => True

/-! ### One step -/

/-- A point with the same client before and after. -/
private theorem stays {s : Shared} {c c' : Nat} (hc : s.Installed c) :
    some c' = some c ∨ (s.Installed c ∧ some c' ≠ some c) := by
  by_cases heq : some c' = some c
  · exact .inl heq
  · exact .inr ⟨hc, heq⟩

/-- A point whose client is closed. -/
private theorem loses {s : Shared} {c c' : Nat} {reason : String} (hc : s.Installed c)
    (hclosed : s.reason c' = some reason) : s.Installed c ∧ some c' ≠ some c := by
  refine ⟨hc, ?_⟩
  rintro ⟨⟩
  rw [hc.2] at hclosed
  cases hclosed

private theorem installed_connected {s : Shared} {c : Nat} (hc : s.connected.Installed c) : s.Installed c :=
  ⟨hc.1, (s.reason_connected c).symm.trans hc.2⟩

private theorem installed_close {s : Shared} {c c' : Nat} {reason : String} (hc : (s.close c' reason).Installed c) :
    s.Installed c := by
  refine ⟨hc.1, ?_⟩
  cases hr : s.reason c with
  | none => rfl
  | some r =>
    have hstill := Shared.reason_close_of_closed hr c' reason
    rw [hc.2] at hstill
    cases hstill

private theorem supervisor_client {s s' : Shared} {point point' : SupervisorPoint} {input : Input}
    {status : Option ConnectionStatus} (h : point.Step s input s' point' status) {c : Nat}
    (hc : s'.Installed c) : point'.client = some c ∨ (s.Installed c ∧ point.client ≠ some c) := by
  cases h with
  | topOpen _ | reportsOpen | startsResume | resumed => exact stays hc
  -- a supervisor lets go of a client that is closed only
  | topClosed hclosed | loses hclosed => exact .inr (loses hc hclosed)
  | connected => exact .inr ⟨installed_connected hc, by rintro ⟨⟩⟩
  | installs => exact .inl hc.1
  | _ => exact .inr ⟨hc, by rintro ⟨⟩⟩

private theorem connect_client {s s' : Shared} {point point' : ConnectPoint} {input : Input} {spawn : Option Nat}
    (h : point.Step s input s' point' spawn) {c : Nat} (hc : s'.Installed c)
    (hok : point = .unstopped c → s.supervising = true → ¬ s.Installed c) :
    point'.client = some c ∨ spawn = some c ∨ (s.Installed c ∧ point.client ≠ some c) := by
  cases h with
  | connected => exact .inr (.inr ⟨installed_connected hc, by rintro ⟨⟩⟩)
  | installs => exact .inl hc.1
  | unstops => exact (stays hc).imp_right .inr
  | takes _ =>
    have hc' : s.Installed c := hc
    exact (stays hc').imp_right .inr
  -- the flag is taken, so that no supervisor is spawned for the client of this call
  | finds hflag =>
    have hc' : s.Installed c := hc
    refine .inr (.inr ⟨hc', ?_⟩)
    rintro ⟨⟩
    exact hok rfl hflag hc'
  | spawns => exact .inr (stays hc)
  | _ => exact .inr (.inr ⟨hc, by rintro ⟨⟩⟩)

private theorem foreground_client {s s' : Shared} {point point' : ForegroundPoint} {input : Input}
    {spawn : Option Nat} (h : point.Step s input s' point' spawn) {c : Nat} (hc : s'.Installed c) :
    point'.client = some c ∨ spawn = some c ∨ (s.Installed c ∧ point.client ≠ some c) := by
  cases h with
  | connected => exact .inr (.inr ⟨installed_connected hc, by rintro ⟨⟩⟩)
  | installs => exact .inl hc.1
  | unstops => exact (stays hc).imp_right .inr
  | spawns => exact .inr (stays hc)
  | _ => exact .inr (.inr ⟨hc, by rintro ⟨⟩⟩)

private theorem disconnect_client {s s' : Shared} {point point' : DisconnectPoint}
    (h : point.Step s s' point') {c : Nat} (hc : s'.Installed c) : s.Installed c := by
  cases h with
  | raises => exact hc
  | takes _ | noClient _ => cases hc.1
  | closes => exact installed_close hc

private theorem forget_client {s s' : Shared} {point point' : ForgetPoint}
    (h : point.Step s s' point') {c : Nat} (hc : s'.Installed c) : s.Installed c := by
  cases h with
  | raises | clears => exact hc
  | closes _ | noClient _ => cases hc.1

/-! ### Every run -/

private theorem spawned_client {spawn : Option Nat} {c : Nat} (h : spawn = some c) :
    ∃ t ∈ spawned spawn, t.client = some c := by
  subst h
  exact ⟨_, List.mem_singleton_self _, rfl⟩

/-- A task stands for the installed client after a step. -/
private theorem installed_step {s s' : System} {l : Label}
    (h : ∀ c, s.shared.Installed c → ∃ t ∈ s.tasks, t.client = some c) (hok : LeavesNoClient s l)
    (hstep : program.step s l = some s') :
    ∀ c, s'.shared.Installed c → ∃ t ∈ s'.tasks, t.client = some c := by
  refine Program.exists_step (N := Shared.Installed) (G := fun c t => t.client = some c) hstep h ?_ ?_
  · intro i input t shared t' spawns hl ht hnext c hc
    cases task_moves hnext with
    | supervisor hpoint => exact (supervisor_client hpoint hc).imp_right .inr
    | @connect point _ _ hpoint =>
      have hown : point = .unstopped c → s.shared.supervising = true → ¬ s.shared.Installed c := by
        rintro rfl
        cases input with
        | run =>
          subst hl
          exact hok c ht
        | _ => cases hpoint
      rcases connect_client hpoint hc hown with hclient | hspawn | hrest
      · exact .inl hclient
      · exact .inr (.inl (spawned_client hspawn))
      · exact .inr (.inr hrest)
    | foreground hpoint =>
      rcases foreground_client hpoint hc with hclient | hspawn | hrest
      · exact .inl hclient
      · exact .inr (.inl (spawned_client hspawn))
      · exact .inr (.inr hrest)
    | disconnect hpoint => exact .inr (.inr ⟨disconnect_client hpoint hc, by rintro ⟨⟩⟩)
    | forget hpoint => exact .inr (.inr ⟨forget_client hpoint hc, by rintro ⟨⟩⟩)
  · rintro ⟨c', reason⟩ shared - henv c hc
    obtain ⟨-, rfl⟩ := Event.next_closed henv
    exact installed_close hc

/-- In every run in which no `connect` that finds the flag taken leaves its client installed and open: when no call is
in progress, an open installed client is the one an alive supervisor consumes. -/
theorem installed_supervised {labels : List Label} {s : System}
    (hmeets : Meets program.step LeavesNoClient start labels) (hrun : exec program.step start labels = some s)
    (hquiet : ∀ t ∈ s.tasks, t.inProgress = false) {c : Nat} (hclient : s.shared.client = some c)
    (hopen : s.shared.reason c = none) :
    ∃ point last, .supervisor point last ∈ s.tasks ∧ point.alive = true ∧ point.client = some c := by
  have hinv : ∀ c, s.shared.Installed c → ∃ t ∈ s.tasks, t.client = some c :=
    exec_invariant program.step (fun _ _ _ h hok hstep => installed_step h hok hstep)
      (by rintro c ⟨⟨⟩, -⟩) hmeets hrun
  obtain ⟨t, ht, hstands⟩ := hinv c ⟨hclient, hopen⟩
  -- every call has returned, so what stands for the client is a supervisor
  have hreturned := hquiet t ht
  cases t with
  | supervisor point last =>
    refine ⟨point, last, ht, ?_, hstands⟩
    cases point <;> first | rfl | cases hstands
  | connect point => cases point <;> first | (cases hstands; done) | cases hreturned
  | foreground point => cases point <;> first | (cases hstands; done) | cases hreturned
  | disconnect point => cases hstands
  | forget point => cases hstands

/-- One `connect`, and the supervisor it spawns. -/
theorem installed_supervised_connect :
    ∃ s, exec program.step start (callSteps 0 (.connect .start) connectInputs) = some s ∧
      ∃ point last, .supervisor point last ∈ s.tasks ∧ point.alive = true ∧ point.client = some 0 := by
  have hrun : ∃ s, exec program.step start (callSteps 0 (.connect .start) connectInputs) = some s ∧
      (∀ t ∈ s.tasks, t.inProgress = false) ∧ s.shared.client = some 0 ∧ s.shared.reason 0 = none :=
    ⟨_, rfl, by decide, rfl, rfl⟩
  obtain ⟨s, hs, hquiet, hclient, hopen⟩ := hrun
  have hmeets : Meets program.step LeavesNoClient start (callSteps 0 (.connect .start) connectInputs) := by
    unfold callSteps connectInputs
    refine .cons _ rfl trivial (.cons _ rfl ?_ (.cons _ rfl trivial (.cons _ rfl ?_ (.cons _ rfl ?_ (.cons _ rfl ?_
      (.cons _ rfl ?_ trivial))))))
    all_goals
      intro c ht hflag
      first | (cases hflag; done) | cases ht
  exact ⟨s, hs, installed_supervised hmeets hs hquiet hclient hopen⟩

/-- A second `connect` while the supervisor of the first is alive: its client is installed and open, and the
supervisor still consumes the first one. -/
theorem second_connect_unsupervised :
    ∃ s, exec program.step start
        (callSteps 0 (.connect .start) connectInputs ++ callSteps 2 (.connect .start) connectInputs.dropLast) = some s ∧
      (∀ t ∈ s.tasks, t.inProgress = false) ∧ s.shared.client = some 1 ∧ s.shared.reason 1 = none ∧
        ∀ point last, .supervisor point last ∈ s.tasks → point.client = some 0 := by
  have hrun : ∃ s, exec program.step start (callSteps 0 (.connect .start) connectInputs ++
      callSteps 2 (.connect .start) connectInputs.dropLast) = some s ∧
      s.tasks = [.connect .returned, .supervisor (.top 0) none, .connect .returned] ∧
      s.shared.client = some 1 ∧ s.shared.reason 1 = none := ⟨_, rfl, rfl, rfl, rfl⟩
  obtain ⟨s, hs, htasks, hclient, hopen⟩ := hrun
  refine ⟨s, hs, ?_, hclient, hopen, ?_⟩
  · rw [htasks]
    decide
  · intro point last hmem
    rw [htasks] at hmem
    simp only [List.mem_cons, reduceCtorEq, List.not_mem_nil, or_false, false_or, Task.supervisor.injEq] at hmem
    rw [hmem.1]
    rfl

end Hermo.Lifecycle
