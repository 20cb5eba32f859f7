import Hermo.Core.Tab

/-!
# The supervisor

The supervisor is the one task that owns the broadcast of a connection.  `Supervisor` is its program counter inside
`resume_all`, `catch_up_all` and `reemit_approvals`, with the local data of these functions; it stops at every await
and between two lock sections, so that any other task can run there.  A `Label` is one step of the system: a reply or
a frame for the supervisor, its next local step, or a lock section of another task.  Replies are inputs, so a
property of the gateway is a condition on the labels of a run.
-/

namespace Hermo

/-- Where the supervisor is.  `idle` is the event loop, and everything between two connections. -/
inductive Supervisor where
  | idle
  /-- `resume_all`, about to take the next key. -/
  | resumeNext (keys : List String)
  /-- Awaiting `session.resume`. -/
  | resuming (key : String) (record : SessionRecord) (rest : List String)
  /-- The reply is there, the live sid not yet re-pointed. -/
  | resumed (key : String) (record : SessionRecord) (reply : ResumedSession) (rest : List String)
  /-- Awaiting `session.events.since`. -/
  | asking (key : String) (record : SessionRecord) (reply : ResumedSession) (rest : List String)
  /-- Both replies are there, the branch not yet taken. -/
  | answered (key : String) (record : SessionRecord) (reply : ResumedSession) (replay : EventsSince)
    (rest : List String)
  /-- Filling the gap, `events` still to be delivered. -/
  | replaying (key : String) (events : List ReplayedEvent) (replay : EventsSince) (rest : List String)
  /-- `reemit_approvals`, before the keys are read. -/
  | reemitKeys
  | reemitNext (keys : List String)
  /-- Awaiting `approval.pending`. -/
  | pendingCall (key : String) (rest : List String)
  | cards (key : String) (cards : List Value) (rest : List String)
  /-- `catch_up_all`, with the watermarks it read. -/
  | catchUpNext (snapshots : List (String × Int))
  /-- Awaiting `session.events.since`. -/
  | catchUpCall (key : String) (lastSeen : Int) (rest : List (String × Int))
  | catchUp (key : String) (events : List ReplayedEvent) (rest : List (String × Int))

/-- The system: the core, the supervisor, and the replay epoch of the current connection. -/
structure Sys where
  core : CoreState
  supervisor : Supervisor := .idle
  freshEpoch : String := ""

inductive Label where
  /-- A connection came up with this replay epoch: `resume_all` starts. -/
  | connected (epoch : String)
  /-- The event loop receives a frame. -/
  | live (ev : EventParams)
  /-- The event loop is told that frames were dropped: `catch_up_all` starts. -/
  | lagged
  /-- A reply of `session.resume`, `none` when the call failed. -/
  | resumeReply (reply : Option ResumedSession)
  /-- A reply of `session.events.since`. -/
  | sinceReply (reply : Option EventsSince)
  /-- A reply of `approval.pending`. -/
  | pendingReply (reply : Option Value)
  /-- `reemit_approvals` reads the keys of the open sessions, in the order of the hash map. -/
  | readKeys (keys : List String)
  /-- The next local step of the supervisor. -/
  | advance
  /-- A lock section of another task. -/
  | task (a : Action)

/-- The event a replayed one is delivered as. -/
def ReplayedEvent.params (ev : ReplayedEvent) : EventParams := ⟨ev.eventType, ev.sessionId, some ev.seq, ev.payload⟩

/-- The choice of `resume_all` between a rebuild and a gap fill. -/
def rebuilds (freshEpoch : String) (record : SessionRecord) (replay : EventsSince) : Bool :=
  let storedEpochChanged := record.replayEpoch != "" && record.replayEpoch != freshEpoch
  let replayEpochChanged := replay.epoch != "" && record.replayEpoch != "" && replay.epoch != record.replayEpoch
  replay.truncated || storedEpochChanged || replayEpochChanged

/-- The lock sections the other tasks run: they never rebuild, re-point, touch or re-emit, and the only event they
deliver is the synthetic `session.title`, which has no seq. -/
def Action.ofTask : Action → Bool
  | .deliver ev => ev.eventType == "session.title" && ev.seq.isNone
  | .openSession _ _ _ | .closeSession _ | .clearSessions | .forgetGateway => true
  | .appendUserRow _ _ _ | .respondApproval _ _ | .respondClarify _ _ => true
  | .rebuildSession _ _ _ | .repointLiveSid _ _ | .touch _ _ _ | .reemitCard _ _ => false

namespace Supervisor

/-- The next local step: the lock section it runs, if it writes anything, and where the supervisor is then. -/
def advance (core : CoreState) (freshEpoch : String) : Supervisor → Option (Option Action × Supervisor)
  | .resumeNext [] => some (none, .reemitKeys)
  | .resumeNext (key :: rest) =>
    match core.registry.get key with
    | none => some (none, .resumeNext rest)
    | some record => some (none, .resuming key record rest)
  | .resumed key record reply rest => some (some (.repointLiveSid key reply.sessionId), .asking key record reply rest)
  | .answered key record reply replay rest =>
    if rebuilds freshEpoch record replay then
      let epoch := if replay.epoch = "" then none else some replay.epoch
      some (some (.rebuildSession key reply.messages epoch), .resumeNext rest)
    else some (none, .replaying key replay.events replay rest)
  | .replaying key (ev :: events) replay rest => some (some (.deliver ev.params), .replaying key events replay rest)
  | .replaying key [] replay rest => some (some (.touch key replay.latestSeq replay.epoch), .resumeNext rest)
  | .reemitNext [] => some (none, .idle)
  | .reemitNext (key :: rest) =>
    if key ∈ core.sessions then some (none, .pendingCall key rest) else some (none, .reemitNext rest)
  | .cards _ [] rest => some (none, .reemitNext rest)
  | .cards key (card :: more) rest => some (some (.reemitCard key card), .cards key more rest)
  | .catchUpNext [] => some (none, .idle)
  | .catchUpNext ((key, lastSeen) :: rest) => some (none, .catchUpCall key lastSeen rest)
  | .catchUp key (ev :: events) rest => some (some (.deliver ev.params), .catchUp key events rest)
  | .catchUp _ [] rest => some (none, .catchUpNext rest)
  | .idle | .resuming _ _ _ | .asking _ _ _ _ | .reemitKeys | .pendingCall _ _ | .catchUpCall _ _ _ => none

/-- The local steps, by name. -/
inductive Advances (core : CoreState) (freshEpoch : String) : Supervisor → Option Action → Supervisor → Prop where
  | resumedAll : Advances core freshEpoch (.resumeNext []) none .reemitKeys
  | unknown {key : String} {rest : List String} (hrecord : core.registry.get key = none) :
    Advances core freshEpoch (.resumeNext (key :: rest)) none (.resumeNext rest)
  | resume {key : String} {record : SessionRecord} {rest : List String}
    (hrecord : core.registry.get key = some record) :
    Advances core freshEpoch (.resumeNext (key :: rest)) none (.resuming key record rest)
  | repoint {key : String} {record : SessionRecord} {reply : ResumedSession} {rest : List String} :
    Advances core freshEpoch (.resumed key record reply rest) (some (.repointLiveSid key reply.sessionId))
      (.asking key record reply rest)
  | rebuild {key : String} {record : SessionRecord} {reply : ResumedSession} {replay : EventsSince}
    {rest : List String} (hrebuilds : rebuilds freshEpoch record replay = true) :
    Advances core freshEpoch (.answered key record reply replay rest)
      (some (.rebuildSession key reply.messages (if replay.epoch = "" then none else some replay.epoch)))
      (.resumeNext rest)
  | fill {key : String} {record : SessionRecord} {reply : ResumedSession} {replay : EventsSince}
    {rest : List String} (hfills : rebuilds freshEpoch record replay = false) :
    Advances core freshEpoch (.answered key record reply replay rest) none (.replaying key replay.events replay rest)
  | replay {key : String} {ev : ReplayedEvent} {events : List ReplayedEvent} {replay : EventsSince}
    {rest : List String} :
    Advances core freshEpoch (.replaying key (ev :: events) replay rest) (some (.deliver ev.params))
      (.replaying key events replay rest)
  | touch {key : String} {replay : EventsSince} {rest : List String} :
    Advances core freshEpoch (.replaying key [] replay rest) (some (.touch key replay.latestSeq replay.epoch))
      (.resumeNext rest)
  | reemittedAll : Advances core freshEpoch (.reemitNext []) none .idle
  | askPending {key : String} {rest : List String} (hopen : key ∈ core.sessions) :
    Advances core freshEpoch (.reemitNext (key :: rest)) none (.pendingCall key rest)
  | skipClosed {key : String} {rest : List String} (hclosed : key ∉ core.sessions) :
    Advances core freshEpoch (.reemitNext (key :: rest)) none (.reemitNext rest)
  | reemitted {key : String} {rest : List String} :
    Advances core freshEpoch (.cards key [] rest) none (.reemitNext rest)
  | card {key : String} {card : Value} {more : List Value} {rest : List String} :
    Advances core freshEpoch (.cards key (card :: more) rest) (some (.reemitCard key card)) (.cards key more rest)
  | caughtUpAll : Advances core freshEpoch (.catchUpNext []) none .idle
  | askSince {key : String} {lastSeen : Int} {rest : List (String × Int)} :
    Advances core freshEpoch (.catchUpNext ((key, lastSeen) :: rest)) none (.catchUpCall key lastSeen rest)
  | deliver {key : String} {ev : ReplayedEvent} {events : List ReplayedEvent} {rest : List (String × Int)} :
    Advances core freshEpoch (.catchUp key (ev :: events) rest) (some (.deliver ev.params)) (.catchUp key events rest)
  | caughtUp {key : String} {rest : List (String × Int)} :
    Advances core freshEpoch (.catchUp key [] rest) none (.catchUpNext rest)

theorem advances_of_advance {core : CoreState} {freshEpoch : String} {s s' : Supervisor} {a : Option Action}
    (h : s.advance core freshEpoch = some (a, s')) : s.Advances core freshEpoch a s' := by
  cases s with
  | resumeNext keys =>
    cases keys with
    | nil =>
      cases h
      exact .resumedAll
    | cons key rest =>
      simp only [advance] at h
      split at h <;> cases h
      · exact .unknown ‹_›
      · exact .resume ‹_›
  | resumed key record reply rest =>
    cases h
    exact .repoint
  | answered key record reply replay rest =>
    simp only [advance] at h
    split at h <;> cases h
    · exact .rebuild ‹_›
    · exact .fill (Bool.eq_false_iff.2 ‹_›)
  | replaying key events replay rest =>
    cases events with
    | nil =>
      cases h
      exact .touch
    | cons ev events =>
      cases h
      exact .replay
  | reemitNext keys =>
    cases keys with
    | nil =>
      cases h
      exact .reemittedAll
    | cons key rest =>
      simp only [advance] at h
      split at h <;> cases h
      · exact .askPending ‹_›
      · exact .skipClosed ‹_›
  | cards key cards rest =>
    cases cards with
    | nil =>
      cases h
      exact .reemitted
    | cons card more =>
      cases h
      exact .card
  | catchUpNext snapshots =>
    cases snapshots with
    | nil =>
      cases h
      exact .caughtUpAll
    | cons snapshot rest =>
      cases h
      exact .askSince
  | catchUp key events rest =>
    cases events with
    | nil =>
      cases h
      exact .caughtUp
    | cons ev events =>
      cases h
      exact .deliver
  | _ => cases h

end Supervisor

namespace Sys

/-- One step: the lock section it runs, where the supervisor is then, and the epoch of the connection. -/
def next (s : Sys) : Label → Option (Option Action × Supervisor × String)
  | .connected epoch =>
    match s.supervisor with
    | .idle => some (none, .resumeNext (s.core.registry.sessions.map (·.storedId)), epoch)
    | _ => none
  | .live ev =>
    match s.supervisor with
    | .idle => some (some (.deliver ev), .idle, s.freshEpoch)
    | _ => none
  | .lagged =>
    match s.supervisor with
    | .idle =>
      some (none, .catchUpNext (s.core.registry.sessions.map fun r => (r.storedId, r.lastSeenSeq)), s.freshEpoch)
    | _ => none
  | .resumeReply reply =>
    match s.supervisor, reply with
    | .resuming _ _ rest, none => some (none, .resumeNext rest, s.freshEpoch)
    | .resuming key record rest, some reply => some (none, .resumed key record reply rest, s.freshEpoch)
    | _, _ => none
  | .sinceReply reply =>
    match s.supervisor, reply with
    | .asking _ _ _ rest, none => some (none, .resumeNext rest, s.freshEpoch)
    | .asking key record resumed rest, some replay =>
      some (none, .answered key record resumed replay rest, s.freshEpoch)
    | .catchUpCall _ _ rest, none => some (none, .catchUpNext rest, s.freshEpoch)
    | .catchUpCall key _ rest, some replay => some (none, .catchUp key replay.events rest, s.freshEpoch)
    | _, _ => none
  | .pendingReply reply =>
    match s.supervisor, reply with
    | .pendingCall _ rest, none => some (none, .reemitNext rest, s.freshEpoch)
    | .pendingCall key rest, some pending => some (none, .cards key (pendingList pending) rest, s.freshEpoch)
    | _, _ => none
  | .readKeys keys =>
    match s.supervisor with
    | .reemitKeys => if keys.Perm s.core.sessions.keys then some (none, .reemitNext keys, s.freshEpoch) else none
    | _ => none
  | .advance => (s.supervisor.advance s.core s.freshEpoch).map fun (a, supervisor) => (a, supervisor, s.freshEpoch)
  | .task a => if a.ofTask then some (some a, s.supervisor, s.freshEpoch) else none

/-- The steps, by name. -/
inductive Steps (s : Sys) : Label → Option Action → Supervisor → String → Prop where
  | connected {epoch : String} (hsup : s.supervisor = .idle) :
    s.Steps (.connected epoch) none (.resumeNext (s.core.registry.sessions.map (·.storedId))) epoch
  | live {ev : EventParams} (hsup : s.supervisor = .idle) : s.Steps (.live ev) (some (.deliver ev)) .idle s.freshEpoch
  | lagged (hsup : s.supervisor = .idle) :
    s.Steps .lagged none (.catchUpNext (s.core.registry.sessions.map fun r => (r.storedId, r.lastSeenSeq))) s.freshEpoch
  | resumeFailed {key : String} {record : SessionRecord} {rest : List String}
    (hsup : s.supervisor = .resuming key record rest) :
    s.Steps (.resumeReply none) none (.resumeNext rest) s.freshEpoch
  | resumed {key : String} {record : SessionRecord} {reply : ResumedSession} {rest : List String}
    (hsup : s.supervisor = .resuming key record rest) :
    s.Steps (.resumeReply (some reply)) none (.resumed key record reply rest) s.freshEpoch
  | sinceFailed {key : String} {record : SessionRecord} {reply : ResumedSession} {rest : List String}
    (hsup : s.supervisor = .asking key record reply rest) :
    s.Steps (.sinceReply none) none (.resumeNext rest) s.freshEpoch
  | answered {key : String} {record : SessionRecord} {reply : ResumedSession} {replay : EventsSince}
    {rest : List String} (hsup : s.supervisor = .asking key record reply rest) :
    s.Steps (.sinceReply (some replay)) none (.answered key record reply replay rest) s.freshEpoch
  | catchUpFailed {key : String} {lastSeen : Int} {rest : List (String × Int)}
    (hsup : s.supervisor = .catchUpCall key lastSeen rest) :
    s.Steps (.sinceReply none) none (.catchUpNext rest) s.freshEpoch
  | catchUp {key : String} {lastSeen : Int} {replay : EventsSince} {rest : List (String × Int)}
    (hsup : s.supervisor = .catchUpCall key lastSeen rest) :
    s.Steps (.sinceReply (some replay)) none (.catchUp key replay.events rest) s.freshEpoch
  | pendingFailed {key : String} {rest : List String} (hsup : s.supervisor = .pendingCall key rest) :
    s.Steps (.pendingReply none) none (.reemitNext rest) s.freshEpoch
  | pending {key : String} {pending : Value} {rest : List String} (hsup : s.supervisor = .pendingCall key rest) :
    s.Steps (.pendingReply (some pending)) none (.cards key (pendingList pending) rest) s.freshEpoch
  | readKeys {keys : List String} (hsup : s.supervisor = .reemitKeys) (hkeys : keys.Perm s.core.sessions.keys) :
    s.Steps (.readKeys keys) none (.reemitNext keys) s.freshEpoch
  | advance {a : Option Action} {supervisor : Supervisor}
    (hadvances : s.supervisor.Advances s.core s.freshEpoch a supervisor) : s.Steps .advance a supervisor s.freshEpoch
  | task {a : Action} (htask : a.ofTask) : s.Steps (.task a) (some a) s.supervisor s.freshEpoch

theorem steps_of_next {s : Sys} {l : Label} {a : Option Action} {supervisor : Supervisor} {epoch : String}
    (h : s.next l = some (a, supervisor, epoch)) : s.Steps l a supervisor epoch := by
  unfold next at h
  cases l with
  | connected e =>
    dsimp only at h
    split at h <;> cases h
    exact .connected ‹_›
  | live ev =>
    dsimp only at h
    split at h <;> cases h
    exact .live ‹_›
  | lagged =>
    dsimp only at h
    split at h <;> cases h
    exact .lagged ‹_›
  | resumeReply reply =>
    dsimp only at h
    split at h <;> cases h
    · exact .resumeFailed ‹_›
    · exact .resumed ‹_›
  | sinceReply reply =>
    dsimp only at h
    split at h <;> cases h
    · exact .sinceFailed ‹_›
    · exact .answered ‹_›
    · exact .catchUpFailed ‹_›
    · exact .catchUp ‹_›
  | pendingReply reply =>
    dsimp only at h
    split at h <;> cases h
    · exact .pendingFailed ‹_›
    · exact .pending ‹_›
  | readKeys keys =>
    dsimp only at h
    split at h
    · split at h <;> cases h
      exact .readKeys ‹_› ‹_›
    · cases h
  | advance =>
    obtain ⟨⟨a', supervisor'⟩, hadvance, heq⟩ := Option.map_eq_some_iff.1 h
    cases heq
    exact .advance (Supervisor.advances_of_advance hadvance)
  | task a =>
    dsimp only at h
    split at h <;> cases h
    exact .task ‹_›

variable [Serializer]

/-- The system after a step that runs the lock section `a`. -/
def after (s : Sys) (a : Option Action) (supervisor : Supervisor) (freshEpoch : String) : Sys :=
  ⟨match a with
    | some a => (s.core.act a).1
    | none => s.core, supervisor, freshEpoch⟩

def step (s : Sys) (l : Label) : Option Sys := (s.next l).map fun (a, supervisor, epoch) => s.after a supervisor epoch

end Sys

end Hermo
