import Hermo.Core.Ledger
import Hermo.Core.Routing
import Hermo.Core.Supervisor
import Hermo.Library.Run

/-!
# The system with its bookkeeping

`World` is the system next to what an observer of both sides knows: the ledger of every session, the replay epochs
under which its watermark was taken and its transcript rebuilt, the approvals that are pending and answered, and how
much of the event log the last resumed history reflects.  No step depends on it.  `Input` adds to a label how much of
the log the history it brings reflects, and `FromGateway` says what the gateway promises about its frames and replies.
-/

namespace Hermo

structure World where
  sys : Sys
  ledger : String → Ledger := fun _ => {}
  /-- The epoch of the connection under which the watermark of a record moved last. -/
  taken : String → String
  /-- The epoch of the connection under which a session was rebuilt last, forgotten when it is closed. -/
  rebuilt : String → Option String := fun _ => none
  /-- The requests the gateway reported as pending in the re-emission that is running, by session. -/
  reported : List (String × String) := []
  /-- The requests that were answered from this device. -/
  answered : List (String × String) := []
  /-- What the history of the last `session.resume` reply of the supervisor reflects. -/
  resumed : Snapshot := {}

/-- One label, and what the history it brings in reflects. -/
structure Input where
  label : Label
  snapshot : Snapshot := {}

/-- The events `start + 1, …, upTo` of the log, as `session.events.since` sends them. -/
def EventLog.since (log : EventLog) (epoch key : String) (start upTo : Nat) : List ReplayedEvent :=
  (List.range' (start + 1) (upTo - start)).map fun n => ⟨(log epoch key n).1, key, n, (log epoch key n).2⟩

/-- An answer of `session.events.since`: every recorded event after `asked`, or `truncated` and some of them. -/
def EventLog.Answers (log : EventLog) (epoch key : String) (asked : Int) (replay : EventsSince) : Prop :=
  if replay.truncated then ∃ start upTo, replay.events = log.since epoch key start upTo
  else ∃ upTo : Nat, replay.events = log.since epoch key asked.toNat upTo ∧ replay.latestSeq = upTo

/-- The requests an `approval.pending` reply names for a session; an entry without an id names none. -/
def pendingIds (key : String) (pending : Value) : List (String × String) :=
  (((pendingList pending).map (·.strAt "request_id")).filter (· ≠ "")).map fun requestId => (key, requestId)

/-- The epoch of the last rebuild after a tab action. -/
def TabAction.remember (a : TabAction) (t : Tab) (epoch : String) (rebuilt : Option String) : Option String :=
  match a with
  | .rebuildSession _ _ _ => if t.live.isSome then some epoch else rebuilt
  | .close => none
  | _ => rebuilt

/-! ### The log -/

theorem EventLog.since_cons (log : EventLog) (epoch key : String) {start upTo : Nat} (h : start < upTo) :
    log.since epoch key start upTo =
      ⟨(log epoch key (start + 1)).1, key, (start + 1 : Nat), (log epoch key (start + 1)).2⟩ ::
        log.since epoch key (start + 1) upTo := by
  unfold since
  obtain ⟨k, hk⟩ : ∃ k, upTo - start = k + 1 := ⟨upTo - start - 1, by omega⟩
  have hk' : upTo - (start + 1) = k := by omega
  rw [hk, hk', List.range'_succ]
  rfl

theorem EventLog.since_nil (log : EventLog) (epoch key : String) {start upTo : Nat} (h : upTo ≤ start) :
    log.since epoch key start upTo = [] := by
  unfold since
  rw [Nat.sub_eq_zero_of_le h]
  rfl

namespace World

/-- The start of the app: the watermarks on disk are taken to be of the epochs on disk. -/
def new (registry : SessionRegistry) : World :=
  { sys := ⟨.new registry, .idle, ""⟩, taken := fun key => ((registry.get key).map (·.replayEpoch)).getD "" }

/-- What the gateway promises: an id names one session, a frame is the recorded event of its seq, and replays answer
from the log of the epoch of the connection. -/
def FromGateway (log : EventLog) (owner : String → String) (w : World) (i : Input) : Prop :=
  match i.label, w.sys.supervisor with
  | .live ev, _ => ∀ seq, ev.seq = some seq → ∃ n, log.Records w.sys.freshEpoch (owner ev.sessionId) n ev
  | .resumeReply (some reply), .resuming key _ _ => owner reply.sessionId = key
  | .sinceReply (some replay), .asking key record _ _ =>
    owner key = key ∧ log.Answers w.sys.freshEpoch key record.lastSeenSeq replay
  | .sinceReply (some replay), .catchUpCall key lastSeen _ =>
    owner key = key ∧ log.Answers w.sys.freshEpoch key lastSeen replay
  | .task a, _ => a.Named owner
  | _, _ => True

variable [Serializer]

/-- The ledgers after a lock section. -/
def note (w : World) (snapshot : Snapshot) (a : Action) (key : String) : Ledger :=
  (w.ledger key).noteOption (w.sys.core.tab key) key w.sys.freshEpoch snapshot (w.sys.core.onTab key a)

/-- A watermark that moves is taken under the epoch of the connection. -/
def take (w : World) (a : Action) (key : String) : String :=
  if (((w.sys.core.act a).1.tab key).record.map (·.lastSeenSeq)) = ((w.sys.core.tab key).record.map (·.lastSeenSeq))
  then w.taken key
  else w.sys.freshEpoch

def remember (w : World) (a : Action) (key : String) : Option String :=
  match w.sys.core.onTab key a with
  | none => w.rebuilt key
  | some b => b.remember (w.sys.core.tab key) w.sys.freshEpoch (w.rebuilt key)

/-- A rebuild installs the history of the last resume, an open the one its label brings. -/
def installs (w : World) (i : Input) : Action → Snapshot
  | .rebuildSession _ _ _ => w.resumed
  | _ => i.snapshot

def after (w : World) (i : Input) (a : Option Action) (supervisor : Supervisor) (epoch : String) : World :=
  { sys := w.sys.after a supervisor epoch
    ledger := match a with
      | none => w.ledger
      | some a => w.note (w.installs i a) a
    taken := match a with
      | none => w.taken
      | some a => w.take a
    rebuilt := match a with
      | none => w.rebuilt
      | some a => w.remember a
    reported := match i.label, w.sys.supervisor with
      | .pendingReply (some pending), .pendingCall key _ => w.reported ++ pendingIds key pending
      | .advance, .reemitNext [] => []
      | _, _ => w.reported
    answered := match a with
      | some (.respondApproval key requestId) => (key, requestId) :: w.answered
      | _ => w.answered
    resumed := match i.label with
      | .resumeReply (some _) => i.snapshot
      | _ => w.resumed }

def step (w : World) (i : Input) : Option World :=
  (w.sys.next i.label).map fun (a, supervisor, epoch) => w.after i a supervisor epoch

theorem step_eq {w w' : World} {i : Input} (h : w.step i = some w') :
    ∃ a supervisor epoch, w.sys.next i.label = some (a, supervisor, epoch) ∧ w' = w.after i a supervisor epoch := by
  unfold step at h
  obtain ⟨⟨a, supervisor, epoch⟩, hnext, rfl⟩ := Option.map_eq_some_iff.1 h
  exact ⟨a, supervisor, epoch, hnext, rfl⟩

end World

end Hermo
