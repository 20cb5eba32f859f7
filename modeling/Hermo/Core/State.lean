import Hermo.Api
import Hermo.SessionRegistry
import Hermo.Transcript.Reducer

/-!
# State of the core and its lock sections

`CoreState` is the part of the state behind the mutex that concerns the chats: the routing index, the live sessions,
the registry, the approvals that were re-emitted and the history-epoch counter (`core.rs`).  Every definition below
is the body of one lock section, under the name of the function it stands in; it returns the new state and the
changes the function hands to the sink after it released the lock.  The sink is registered before the first client
exists, so it is always there; what is written to disk is no part of this state.
-/

namespace Hermo

/-- One open chat.  `lastSeenSeq` is the watermark, `historyEpoch` the counter at the last rebuild. -/
structure LiveSession where
  liveSid : String
  reducer : Reducer
  lastSeenSeq : Int
  historyEpoch : UInt64

structure CoreState where
  /-- live sid → session key. -/
  sidIndex : AList (fun _ : String => String) := ∅
  /-- Durable key → live session. -/
  sessions : AList (fun _ : String => LiveSession) := ∅
  registry : SessionRegistry := {}
  /-- Request ids already re-emitted, per key. -/
  emittedApprovals : AList (fun _ : String => List String) := ∅
  /-- Bumped on every rebuild; a `u64`, so it wraps. -/
  historyEpoch : UInt64 := 0

inductive TranscriptChangeKind where
  | rowAppended | rowUpdated | reset | headerUpdated
  deriving DecidableEq, Repr

/-- One transcript change as the sink receives it. -/
structure TranscriptChangeDto where
  key : String
  kind : TranscriptChangeKind
  index : Nat
  rowJson : String
  title : String
  deriving DecidableEq, Repr

/-- `u32::MAX`. -/
def u32Max : Nat := 4294967295

section

variable [Serializer]

/-- The derived `Debug` form of a status kind. -/
def StatusKind.debug : StatusKind → String
  | status => "Status"
  | lifecycle => "Lifecycle"
  | compacting => "Compacting"
  | compacted => "Compacted"
  | heartbeat => "Heartbeat"
  | other kind => "Other(" ++ debugStr kind ++ ")"

/-- The JSON object of one row. -/
def rowValue : RowKind → Value
  | .user text => .object [("kind", .string "user"), ("text", .string text)]
  | .assistant text streaming usage warning => .object
      [("kind", .string "assistant"), ("text", .string text), ("streaming", .bool streaming),
        ("usage", .string usage), ("warning", .string warning)]
  | .thinking text => .object [("kind", .string "thinking"), ("text", .string text)]
  | .tool card => .object
      [("kind", .string "tool"), ("tool_id", .string card.toolId), ("name", .string card.name),
        ("complete", .bool card.complete), ("context", .string card.context), ("args", .string card.argsJson),
        ("result", .string card.resultJson), ("duration_s", .number (.float card.durationS))]
  | .approval card => .object
      [("kind", .string "approval"), ("request_id", .string card.requestId), ("command", .string card.command),
        ("description", .string card.description), ("choices", .array (card.choices.map .string)),
        ("resolved", .bool card.resolved)]
  | .clarify card =>
      let question (q : ClarifyQuestion) : Value := .object
        [("qid", .string q.qid), ("question", .string q.question), ("choices", .array (q.choices.map .string)),
          ("multi_select", .bool q.multiSelect)]
      .object
        [("kind", .string "clarify"), ("request_id", .string card.requestId),
          ("questions", .array (card.questions.map question)), ("resolved", .bool card.resolved)]
  | .status kind text => .object
      [("kind", .string "status"), ("status", .string kind.debug), ("text", .string text)]
  | .error message => .object [("kind", .string "error"), ("message", .string message)]

/-- `row_json`: compact JSON of a row, `""` when there is none. -/
def rowJson : Option Row → String
  | none => ""
  | some row => toCompactString (rowValue row.kind)

/-- `change_to_dto`: the row at the index, as it is after the operation, travels with the change. -/
def changeToDto (key : String) (change : TranscriptChange) (rows : List Row) (title : String) :
    TranscriptChangeDto :=
  match change with
  | .rowAppended index => ⟨key, .rowAppended, min index u32Max, rowJson rows[index]?, ""⟩
  | .rowUpdated index => ⟨key, .rowUpdated, min index u32Max, rowJson rows[index]?, ""⟩
  | .reset => ⟨key, .reset, u32Max, "", ""⟩
  | .headerUpdated => ⟨key, .headerUpdated, u32Max, "", title⟩

/-- The loop `for change in &changes`, all stamped with the durable key. -/
def changesToDtos (key : String) (changes : List SessionChange) (rows : List Row) (title : String) :
    List TranscriptChangeDto :=
  changes.map fun c => changeToDto key c.change rows title

/-- `route_event` on the session it found: the reducer gets the event, the watermark never goes down. -/
def LiveSession.applyEvent (live : LiveSession) (ev : EventParams) : LiveSession × List SessionChange :=
  let (reducer, changes) := live.reducer.apply ev
  let lastSeenSeq := match ev.seq with
    | some seq => if live.lastSeenSeq < seq then seq else live.lastSeenSeq
    | none => live.lastSeenSeq
  ({ live with reducer := reducer, lastSeenSeq := lastSeenSeq }, changes)

end

/-- The reducer of a session that is opened: the history is ingested only when there is one. -/
def openReducer (reply : OpenReply) : Reducer × List SessionChange :=
  if reply.messages = [] then ({}, []) else Reducer.ingestResumeMessages {} reply.key reply.messages

/-- The record of a session that is opened.  The watermark is reset; the epoch, the title and, when this open learned
nothing new, the owner of the old record stay. -/
def openRecord (reply : OpenReply) (profile : Option String) (cols : Int) (previous : Option SessionRecord) :
    SessionRecord :=
  let profileName := if reply.wireProfile = "" then profile.getD "" else reply.wireProfile
  { storedId := reply.key
    lastSeenSeq := 0
    replayEpoch := (previous.map SessionRecord.replayEpoch).getD ""
    cols := if cols ≤ 0 then 80 else cols
    title := (previous.map SessionRecord.title).getD ""
    profileName :=
      if profileName = "" then (previous.map SessionRecord.profileName).getD "" else profileName }

/-- The registry writes of `deliver_event`: the watermark moves, and a changed header is a rename to persist. -/
def deliverRegistry (registry : SessionRegistry) (key : String) (ev : EventParams) (changes : List SessionChange)
    (title : String) : SessionRegistry :=
  let registry := match ev.seq with
    | some seq => registry.touch key seq ""
    | none => registry
  if changes.any fun c => c.change == .headerUpdated then
    registry.modify key fun record => { record with title := title }
  else registry

namespace CoreState

/-- The key an event is routed to: a live sid first, else the stored key of an open session. -/
def resolve (s : CoreState) (sessionId : String) : Option String :=
  if sessionId = "" then none
  else
    match s.sidIndex.lookup sessionId with
    | some key => some key
    | none => if sessionId ∈ s.sessions then some sessionId else none

def setSession (s : CoreState) (key : String) (live : LiveSession) : CoreState :=
  { s with sessions := s.sessions.insert key live }

section

variable [Serializer]

/-- `route_event`: at most one session gets the event. -/
def routeEvent (s : CoreState) (ev : EventParams) : CoreState × Option (String × List SessionChange × String) :=
  match s.resolve ev.sessionId with
  | none => (s, none)
  | some key =>
    match s.sessions.lookup key with
    | none => (s, none)
    | some live =>
      let (live, changes) := live.applyEvent ev
      (s.setSession key live, some (key, changes, live.reducer.state.header.title))

/-- The lock section of `deliver_event`. -/
def deliverEvent (s : CoreState) (ev : EventParams) : CoreState × List TranscriptChangeDto :=
  match s.routeEvent ev with
  | (s, none) => (s, [])
  | (s, some (key, changes, title)) =>
    let rows := ((s.sessions.lookup key).map fun l => l.reducer.state.rows).getD []
    ({ s with registry := deliverRegistry s.registry key ev changes title },
      changesToDtos key changes rows title)

/-- The body `send`, `submit_slash_message`, `respond_approval` and `respond_clarify` share: edit the reducer of an
open session, report the changes with the rows as they are then. -/
def editReducer (s : CoreState) (key : String) (edit : Reducer → Reducer × List SessionChange) :
    CoreState × List TranscriptChangeDto :=
  match s.sessions.lookup key with
  | none => (s, [])
  | some live =>
    let (reducer, changes) := edit live.reducer
    (s.setSession key { live with reducer := reducer }, changesToDtos key changes reducer.state.rows "")

/-- The lock section after the submit in `send` and `submit_slash_message`: the row is appended only when the
session was not rebuilt since `historyEpoch` was captured. -/
def appendUserRow (s : CoreState) (key text : String) (historyEpoch : UInt64) :
    CoreState × List TranscriptChangeDto :=
  match s.sessions.lookup key with
  | none => (s, [])
  | some live =>
    if live.historyEpoch = historyEpoch then s.editReducer key fun r => r.appendUserRow key text else (s, [])

/-- The lock section of `respond_approval`, entered when the RPC succeeded. -/
def respondApproval (s : CoreState) (key requestId : String) : CoreState × List TranscriptChangeDto :=
  s.editReducer key fun r => r.resolveApproval key requestId

/-- The lock section of `respond_clarify`, entered when the RPC succeeded. -/
def respondClarify (s : CoreState) (key requestId : String) : CoreState × List TranscriptChangeDto :=
  s.editReducer key fun r => r.resolveClarify key requestId

/-- The lock section of `open_session_inner`, before the registry is saved. -/
def openSession (s : CoreState) (reply : OpenReply) (profile : Option String) (cols : Int) :
    CoreState × List TranscriptChangeDto :=
  let key := reply.key
  let historyEpoch := s.historyEpoch + 1
  let (reducer, changes) := openReducer reply
  let record := openRecord reply profile cols (s.registry.get key)
  ({ s with
      historyEpoch := historyEpoch
      sessions := s.sessions.insert key ⟨reply.liveSid, reducer, 0, historyEpoch⟩
      sidIndex := s.sidIndex.insert reply.liveSid key
      registry := (s.registry.upsert record).setActive (some key) },
    changesToDtos key changes reducer.state.rows "")

/-- `rebuild_session`.  The counter moves even when the session is gone. -/
def rebuildSession (s : CoreState) (key : String) (messages : List Value) (replayEpoch : Option String) :
    CoreState × List TranscriptChangeDto :=
  let s := { s with historyEpoch := s.historyEpoch + 1 }
  match s.sessions.lookup key with
  | none => (s, [])
  | some live =>
    let (reducer, changes) := live.reducer.ingestResumeMessages key messages
    let live := { live with historyEpoch := s.historyEpoch, reducer := reducer, lastSeenSeq := 0 }
    let registry := s.registry.modify key fun record =>
      { record with lastSeenSeq := 0, replayEpoch := replayEpoch.getD record.replayEpoch }
    ({ s with sessions := s.sessions.insert key live, registry := registry },
      changesToDtos key changes reducer.state.rows "")

/-- One card of `reemit_approvals`: deduped against the re-emitted ids and the transcript. -/
def reemitCard (s : CoreState) (key : String) (card : Value) : CoreState × List TranscriptChangeDto :=
  let requestId := card.strAt "request_id"
  if requestId = "" then (s, [])
  else if ((s.emittedApprovals.lookup key).getD []).contains requestId then (s, [])
  else
    match s.sessions.lookup key with
    | none => (s, [])
    | some live =>
      if live.reducer.hasUnresolvedApproval requestId then (s, [])
      else
        let (reducer, emitted) := live.reducer.applyApprovalCard key requestId card
        let s := s.setSession key { live with reducer := reducer }
        match emitted with
        | none | some [] => (s, [])
        | some changes =>
          let ids := (s.emittedApprovals.lookup key).getD []
          ({ s with emittedApprovals := s.emittedApprovals.insert key (ids ++ [requestId]) },
            changesToDtos key changes reducer.state.rows "")

end

/-- `repoint_live_sid`. -/
def repointLiveSid (s : CoreState) (key newLiveSid : String) : CoreState :=
  match s.sessions.lookup key with
  | none => s
  | some live =>
    if live.liveSid = newLiveSid then s
    else
      { s with
        sessions := s.sessions.insert key { live with liveSid := newLiveSid }
        sidIndex := (s.sidIndex.erase live.liveSid).insert newLiveSid key }

/-- The lock section of `close_session`, before the registry is saved. -/
def closeSession (s : CoreState) (key : String) : CoreState :=
  { s with
    sessions := s.sessions.erase key
    sidIndex := match s.sessions.lookup key with
      | some live => s.sidIndex.erase live.liveSid
      | none => s.sidIndex
    emittedApprovals := s.emittedApprovals.erase key
    registry := s.registry.close key }

/-- `clear_sessions` and `forget_gateway` empty the same fields. -/
def clearSessions (s : CoreState) : CoreState :=
  { s with sessions := ∅, sidIndex := ∅, emittedApprovals := ∅, registry := {} }

/-- The watermark update of `resume_all` after a gap fill. -/
def touch (s : CoreState) (key : String) (seq : Int) (epoch : String) : CoreState :=
  { s with registry := s.registry.touch key seq epoch }

/-- `HermesCore::new` on the registry that `sessions.json` held. -/
def new (registry : SessionRegistry) : CoreState := { registry := registry }

end CoreState

end Hermo
