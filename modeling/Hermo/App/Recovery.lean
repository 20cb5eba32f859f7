import Hermo.App.Registration

/-!
# The phase after a reconnect

The statuses of the connection drive the phase through `PhaseMachine.reduce`, which leaves `connecting` only where an
open completes.  A reconnect issues no open: `recovers_iff` says that the app is ready again exactly when the first
open completes after the last `connecting` of the connection.
-/

namespace Hermo

open Lifecycle

/-- The statuses a supervisor delivers as long as it connects again after every loss. -/
inductive Ladder : List ConnectionStatus → Prop where
  | connected : Ladder [.connecting, .open]
  | reconnected {statuses : List ConnectionStatus} (h : Ladder statuses) {reason : String}
      (hreason : PhaseMachine.authStyle reason = false) (attempts : Nat) :
      Ladder (statuses ++ .closed reason :: List.replicate (attempts + 1) .connecting ++ [.connecting, .open])

namespace AppState

def onConnectionStatuses (s : AppState) (statuses : List ConnectionStatus) : AppState :=
  statuses.foldl onConnectionStatus s

/-- An open that completed: its key is registered and goes on the screen. -/
def showOpened (p : Platform) (s : AppState) (key : String) : Except AppState AppState :=
  (s.registerKey p key).map fun s => { s.finishInFlightOpen p with currentKey := some key }

/-- The first open among the statuses of the connection: some come before its registration, some before the end of its
header refresh, and some after it. -/
def launch [HeaderReader] (p : Platform) (s : AppState) (key : String) (summary : Option SessionSummary)
    (before between after : List ConnectionStatus) : Except AppState AppState :=
  ((s.onConnectionStatuses before).showOpened p key).map fun s =>
    ((s.onConnectionStatuses between).afterOpen p key summary).onConnectionStatuses after

/-! ### Statuses -/

/-- A status writes the phase only. -/
theorem onConnectionStatuses_eq (s : AppState) (statuses : List ConnectionStatus) :
    ∃ phase, s.onConnectionStatuses statuses = { s with phase := phase } := by
  unfold onConnectionStatuses
  induction statuses generalizing s with
  | nil => exact ⟨s.phase, rfl⟩
  | cons status statuses ih =>
    obtain ⟨phase, hphase⟩ := ih (s.onConnectionStatus status)
    exact ⟨phase, hphase⟩

private theorem isReady_onConnectionStatus (s : AppState) (status : ConnectionStatus) :
    (s.onConnectionStatus status).phase.isReady ↔ s.phase.isReady ∧ status = .open := by
  cases status with
  | connecting => simp [onConnectionStatus, PhaseMachine.reduce, AppPhase.isReady]
  | «open» =>
    have hopen := PhaseMachine.isReady_open s.phase s.endpointText
    simp only [onConnectionStatus, hopen, and_true]
  | closed reason =>
    simp only [onConnectionStatus, PhaseMachine.reduce]
    split
    · simp [AppPhase.isReady]
    · split <;> simp [AppPhase.isReady]
  | needsPassword =>
    simp only [onConnectionStatus, PhaseMachine.reduce]
    split <;> simp [AppPhase.isReady]

/-- A ready phase survives opens only. -/
theorem isReady_onConnectionStatuses (s : AppState) (statuses : List ConnectionStatus) :
    (s.onConnectionStatuses statuses).phase.isReady ↔ s.phase.isReady ∧ ∀ status ∈ statuses, status = .open := by
  unfold onConnectionStatuses
  induction statuses generalizing s with
  | nil => simp
  | cons status statuses ih =>
    rw [List.foldl_cons, ih, isReady_onConnectionStatus, and_assoc, List.forall_mem_cons]

/-! ### Completions -/

theorem showOpened_eq {p : Platform} {s s' : AppState} {key : String} (h : s.showOpened p key = .ok s') :
    s'.currentKey = some key ∧ s'.tabs = s.tabs.add key := by
  unfold showOpened at h
  cases hreg : s.registerKey p key with
  | error left =>
    rw [hreg] at h
    cases h
  | ok registered =>
    rw [hreg] at h
    cases h
    exact ⟨rfl, (registered_of_ok hreg).tabs⟩

end AppState

/-- Every reconnect ends like the first connect. -/
private theorem Ladder.eq_append {statuses : List ConnectionStatus} (h : Ladder statuses) :
    ∃ earlier, statuses = earlier ++ [.connecting, .open] := by
  cases h with
  | connected => exact ⟨[], rfl⟩
  | reconnected _ _ _ => exact ⟨_, rfl⟩

/-- Without a `connecting` the end of a ladder has only an open. -/
private theorem Ladder.opens_only {statuses after : List ConnectionStatus} (h : Ladder statuses)
    (hafter : after <:+ statuses) : (∀ status ∈ after, status = .open) ↔ .connecting ∉ after := by
  constructor
  · intro hopens hmem
    cases hopens _ hmem
  · intro hmem
    obtain ⟨earlier, rfl⟩ := h.eq_append
    have hsplit : earlier ++ [ConnectionStatus.connecting, .open] = (earlier ++ [.connecting]) ++ [.open] := by simp
    rw [hsplit, List.suffix_concat_iff] at hafter
    rcases hafter with rfl | ⟨opens, rfl, hopens⟩
    · simp
    · rcases List.suffix_concat_iff.1 hopens with rfl | ⟨more, rfl, -⟩
      · simp
      · exact absurd (by simp) hmem

namespace AppState

/-- In every trace of a connection that is lost and comes back any number of times, with the completion of the first
open anywhere in it: its session is open and on the screen in the end, and the app is ready exactly when no
`connecting` was delivered after the completion. -/
theorem recovers_iff [HeaderReader] (p : Platform) {s s' : AppState} {key : String} {summary : Option SessionSummary}
    {before between after : List ConnectionStatus} (hladder : Ladder (before ++ between ++ after))
    (hrun : s.launch p key summary before between after = .ok s') :
    (s'.currentKey = some key ∧ s'.tabs.current = some key ∧ key ∈ s'.tabs.keys) ∧
      (s'.phase.isReady ↔ .connecting ∉ after) := by
  unfold launch at hrun
  cases hopened : (s.onConnectionStatuses before).showOpened p key with
  | error left =>
    rw [hopened] at hrun
    cases hrun
  | ok shown =>
    rw [hopened] at hrun
    cases hrun
    obtain ⟨hcurrent, htabs⟩ := showOpened_eq hopened
    obtain ⟨phase, hbetween⟩ := shown.onConnectionStatuses_eq between
    obtain ⟨model, sessions, hready⟩ := (shown.onConnectionStatuses between).afterOpen_eq p key summary
    dsimp only
    rw [hready, hbetween]
    constructor
    · obtain ⟨phase', hafter⟩ := onConnectionStatuses_eq { shown with phase := .ready model, sessions := sessions } after
      rw [hafter]
      refine ⟨hcurrent, ?_⟩
      dsimp only
      rw [htabs]
      exact ⟨TabSet.current_add _ key, TabSet.mem_add.2 (.inr rfl)⟩
    · rw [isReady_onConnectionStatuses, hladder.opens_only (List.suffix_append _ _)]
      exact and_iff_right rfl

/-! ### A chat that is open when the connection is lost -/

section

attribute [local instance] HeaderReader.blank

private def paired : AppState := { phase := .connecting, endpointText := "Home (ada) — http://gateway:9123" }

private def firstConnect : List ConnectionStatus := [.connecting, .open]

private def lostAndBack : List ConnectionStatus := [.closed "timeout", .connecting, .connecting, .open]

private theorem ladder_lostAndBack : Ladder (firstConnect ++ [] ++ lostAndBack) :=
  .reconnected .connected (by decide) 0

/-- The open completes while the connection that came back is up. -/
theorem ready_after_reconnect : ∃ s', paired.launch .android "chat" none firstConnect lostAndBack [] = .ok s' ∧
    s'.phase.isReady := by
  have hladder : Ladder (firstConnect ++ lostAndBack ++ []) := ladder_lostAndBack
  obtain ⟨s', hrun⟩ : ∃ s', paired.launch .android "chat" none firstConnect lostAndBack [] = .ok s' := ⟨_, rfl⟩
  exact ⟨s', hrun, (recovers_iff .android hladder hrun).2.2 (by decide)⟩

/-- The connection is lost and comes back after the open completed: the last status is `open`, the chat is open and on
the screen, and both apps stay in `connecting`. -/
theorem stuck_after_reconnect : Ladder (firstConnect ++ [] ++ lostAndBack) ∧
    (∃ s', paired.launch .android "chat" none firstConnect [] lostAndBack = .ok s' ∧
      s'.tabs = ⟨["chat"], some "chat"⟩ ∧ s'.currentKey = some "chat" ∧ s'.phase = .connecting) ∧
    ∃ s', paired.launch .ios "chat" none firstConnect [] lostAndBack = .ok s' ∧
      s'.tabs = ⟨["chat"], some "chat"⟩ ∧ s'.currentKey = some "chat" ∧ s'.phase = .connecting :=
  ⟨ladder_lostAndBack, ⟨_, rfl, by decide, rfl, by decide⟩, _, rfl, by decide, rfl, by decide⟩

end

end AppState

end Hermo
