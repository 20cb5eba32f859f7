import Mathlib.Data.List.Infix

/-!
# The phase of the app

The reducer of `PhaseMachine.kt` and `PhaseMachine.swift`, which agree.  Only `header` and `open` keep a phase, and no
event makes one ready: that is left to the flows that open a session.
-/

namespace Hermo

inductive AppPhase where
  /-- No gateway paired yet. -/
  | unpaired
  /-- The endpoint is known, a password is required; `overlay` when a transcript lies under the sheet. -/
  | needsPassword (endpoint : String) (overlay : Bool)
  /-- `connect` or `login` in flight. -/
  | connecting
  /-- At least one session open. -/
  | ready (model : String)
  /-- The socket died with a reason that asks for no password. -/
  | offline (reason : String)
  deriving DecidableEq, Repr

namespace AppPhase

def isReady : AppPhase → Bool
  | ready _ => true
  | _ => false

def isOffline : AppPhase → Bool
  | offline _ => true
  | _ => false

end AppPhase

namespace PhaseMachine

inductive ConnEvent where
  | connecting | open
  | closed (reason : String)
  | needsPassword
  /-- A call failed with an error of the auth class. -/
  | authFailed
  | header (model : String)
  deriving DecidableEq, Repr

/-- `reason.contains(part)`. -/
def contains (reason part : String) : Bool := decide (part.toList <:+: reason.toList)

/-- A close that asks for the password. -/
def authStyle (reason : String) : Bool := contains reason "user logout" || contains reason "session expired"

def reduce (phase : AppPhase) (event : ConnEvent) (savedEndpoint : String) (hasLiveSession : Bool := false) :
    AppPhase :=
  match event with
  | .connecting => .connecting
  -- the first `open_session` lands after the open
  | .open => if phase.isReady then phase else .connecting
  | .closed reason =>
    if savedEndpoint = "" then .unpaired
    else if authStyle reason then .needsPassword savedEndpoint hasLiveSession
    else .offline reason
  | .needsPassword => if savedEndpoint = "" then .unpaired else .needsPassword savedEndpoint hasLiveSession
  | .authFailed => if savedEndpoint = "" then .unpaired else .needsPassword savedEndpoint hasLiveSession
  -- an empty model never wipes the one that is shown
  | .header model => if phase.isReady ∧ model ≠ "" then .ready model else phase

/-- No event makes a phase ready. -/
theorem isReady_of_reduce {phase : AppPhase} {event : ConnEvent} {savedEndpoint : String} {hasLiveSession : Bool}
    (h : (reduce phase event savedEndpoint hasLiveSession).isReady) : phase.isReady := by
  unfold reduce at h
  cases event with
  | connecting => cases h
  | «open» =>
    dsimp only at h
    by_cases hp : phase.isReady
    · exact hp
    · rw [if_neg hp] at h
      cases h
  | header model =>
    dsimp only at h
    by_cases hp : phase.isReady ∧ model ≠ ""
    · exact hp.1
    · rwa [if_neg hp] at h
  | closed reason =>
    dsimp only at h
    split at h
    · cases h
    · split at h <;> cases h
  | needsPassword =>
    dsimp only at h
    split at h <;> cases h
  | authFailed =>
    dsimp only at h
    split at h <;> cases h

/-- An open keeps a ready phase and makes no other one ready. -/
theorem isReady_open (phase : AppPhase) (savedEndpoint : String) :
    (reduce phase .open savedEndpoint).isReady = phase.isReady := by
  cases phase <;> rfl

end PhaseMachine

end Hermo
