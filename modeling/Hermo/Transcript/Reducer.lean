import Hermo.Protocol
import Hermo.Transcript.Model
import Mathlib.Data.List.AList

/-!
# The per-session reducer

`Reducer` is the transcript state machine of one open chat (`transcript/reducer.rs`): decoded events and the
local operations go in, a list of routable changes comes out.  The handlers are translated one by one, under
their names in the source.  `rows[i]` in the source panics when `i` is out of range; here such an index leaves the
rows alone, and `Reducer.WellFormed` (next module) shows that it never happens.
-/

namespace Hermo

/-- Every observable transcript change. -/
inductive TranscriptChange where
  | rowAppended (index : Nat)
  | rowUpdated (index : Nat)
  | reset
  | headerUpdated
  deriving DecidableEq, Repr

/-- A change and the session key it was computed for. -/
structure SessionChange where
  key : String
  change : TranscriptChange
  deriving DecidableEq, Repr

structure Reducer where
  state : Transcript := {}
  /-- Index of the streaming assistant row, if one is open. -/
  streaming : Option Nat := none
  /-- Index of the open thinking row, if there is one. -/
  thinking : Option Nat := none
  /-- Row of each tool id. -/
  tools : AList (fun _ : String => Nat) := ∅

/-- `str_list`: the strings of a JSON array; everything else is dropped. -/
def strList (value : Option Value) : List String :=
  ((value.bind Value.asArray).map fun list => list.filterMap Value.asStr).getD []

namespace Reducer

variable [Serializer]

def wrap (key : String) (changes : List TranscriptChange) : List SessionChange :=
  changes.map fun change => ⟨key, change⟩

def isStreaming (r : Reducer) : Bool := r.streaming.isSome

def isUnresolvedApproval (requestId : String) : RowKind → Bool
  | .approval card => card.requestId == requestId && !card.resolved
  | _ => false

def isUnresolvedClarify (requestId : String) : RowKind → Bool
  | .clarify card => card.requestId == requestId && !card.resolved
  | _ => false

def hasUnresolvedApproval (r : Reducer) (requestId : String) : Bool :=
  r.state.rows.any fun row => isUnresolvedApproval requestId row.kind

def find (r : Reducer) (pred : RowKind → Bool) : Option Nat :=
  r.state.rows.findIdx? fun row => pred row.kind

/-- The last unpaired `tool.generating` placeholder for `name`, searched from the end. -/
def pendingGeneratingRow (r : Reducer) (name : String) : Option Nat :=
  (r.state.rows.reverse.findIdx? fun row =>
    match row.kind with
    | .tool card => card.toolId == "" && card.name == name
    | _ => false).map fun i => r.state.rows.length - 1 - i

/-! ### Event handlers -/

def onMessageStart (r : Reducer) : Reducer × List TranscriptChange :=
  let index := r.state.rows.length
  ({ r with
      thinking := none
      state := r.state.push (.assistant "" true "" "")
      streaming := some index },
    [.rowAppended index])

def appendStreamingText (r : Reducer) (text : String) : Reducer × List TranscriptChange :=
  if text = "" then (r, [])
  else
    let opened : Reducer × List TranscriptChange :=
      ({ r with
          state := r.state.push (.assistant text true "" "")
          streaming := some r.state.rows.length },
        [.rowAppended r.state.rows.length])
    match r.streaming with
    | some index =>
      match r.state.kindOf index with
      | some (.assistant slot streaming usage warning) =>
        ({ r with state := r.state.revise index fun _ => .assistant (slot ++ text) streaming usage warning },
          [.rowUpdated index])
      | _ => opened
    | none => opened

def onMessageDelta (r : Reducer) (payload : Value) : Reducer × List TranscriptChange :=
  r.appendStreamingText (payload.strAt "text")

def onMessageInterim (r : Reducer) (payload : Value) : Reducer × List TranscriptChange :=
  let alreadyStreamed := payload.boolAt "already_streamed"
  match r.streaming with
  | some index =>
    ({ r with
        streaming := none
        state := r.state.revise index fun
          | .assistant slot _ usage warning =>
            .assistant (if alreadyStreamed then slot else payload.strAt "text") false usage warning
          | kind => kind },
      [.rowUpdated index])
  | none => (r, [])

def onMessageComplete (r : Reducer) (payload : Value) : Reducer × List TranscriptChange :=
  if payload.isObject = false then (r, [])
  else
    let text := payload.strAt "text"
    let usage := ((payload.get "usage").map toCompactString).getD ""
    let warning := payload.strAt "warning"
    match r.streaming with
    | some target =>
      ({ r with
          streaming := none
          state := r.state.revise target fun
            | .assistant _ _ _ _ => .assistant text false usage warning
            | kind => kind },
        [.rowUpdated target])
    | none => (r, [])

def onThinkingDelta (r : Reducer) (payload : Value) : Reducer × List TranscriptChange :=
  let text := payload.strAt "text"
  let opened : Reducer × List TranscriptChange :=
    ({ r with
        state := r.state.push (.thinking text)
        thinking := some r.state.rows.length },
      [.rowAppended r.state.rows.length])
  match r.thinking with
  | some index =>
    match r.state.kindOf index with
    | some (.thinking slot) =>
      ({ r with state := r.state.revise index fun _ => .thinking (slot ++ text) }, [.rowUpdated index])
    | _ => opened
  | none => opened

def onToolGenerating (r : Reducer) (payload : Value) : Reducer × List TranscriptChange :=
  let name := payload.strAt "name"
  ({ r with state := r.state.push (.tool ⟨"", name, false, "", "", "", .zero⟩) },
    [.rowAppended r.state.rows.length])

def onToolStart (r : Reducer) (payload : Value) : Reducer × List TranscriptChange :=
  let toolId := payload.strAt "tool_id"
  if toolId = "" then (r, [])
  else
    let name := payload.strAt "name"
    let context := payload.strAt "context"
    let argsJson := ((payload.get "args").map toCompactString).getD ""
    match r.tools.lookup toolId with
    | some index =>
      -- a restart of a known id updates its card, it never opens a second one
      ({ r with
          state := r.state.revise index fun
            | .tool card => .tool { card with
                name := name, context := context, argsJson := argsJson, complete := false }
            | kind => kind },
        [.rowUpdated index])
    | none =>
      match r.pendingGeneratingRow name with
      | some index =>
        ({ r with
            state := r.state.revise index fun
              | .tool card => .tool { card with toolId := toolId, context := context, argsJson := argsJson }
              | kind => kind
            tools := r.tools.insert toolId index },
          [.rowUpdated index])
      | none =>
        ({ r with
            state := r.state.push (.tool ⟨toolId, name, false, context, argsJson, "", .zero⟩)
            tools := r.tools.insert toolId r.state.rows.length },
          [.rowAppended r.state.rows.length])

def onToolProgress (r : Reducer) (payload : Value) : Reducer × List TranscriptChange :=
  let preview := payload.strAt "preview"
  if preview = "" then (r, [])
  else
    match r.tools.lookup (payload.strAt "tool_id") with
    | none => (r, [])
    | some index =>
      match r.state.kindOf index with
      | some (.tool card) =>
        ({ r with state := r.state.revise index fun _ => .tool { card with context := preview } },
          [.rowUpdated index])
      | _ => (r, [])

def onToolComplete (r : Reducer) (payload : Value) : Reducer × List TranscriptChange :=
  let resultJson := ((payload.get "result").map toCompactString).getD ""
  let durationS := payload.f64At "duration_s"
  match r.tools.lookup (payload.strAt "tool_id") with
  | some index =>
    ({ r with
        state := r.state.revise index fun
          | .tool card => .tool { card with resultJson := resultJson, durationS := durationS, complete := true }
          | kind => kind },
      [.rowUpdated index])
  | none => (r, [])

def onStatusUpdate (r : Reducer) (payload : Value) : Reducer × List TranscriptChange :=
  let kindStr := payload.strAt "kind"
  if kindStr = "" then (r, [])
  else
    let kind := StatusKind.parse kindStr
    if kind = .heartbeat then (r, [])
    else
      ({ r with state := r.state.push (.status kind (payload.strAt "text")) },
        [.rowAppended r.state.rows.length])

/-- The card an `approval.request` payload describes. -/
def approvalCard (payload : Value) : ApprovalCard :=
  { requestId := payload.strAt "request_id"
    command := payload.strAt "command"
    description := payload.strAt "description"
    choices := strList (payload.get "choices")
    resolved := false }

def onApprovalRequest (r : Reducer) (payload : Value) : Reducer × List TranscriptChange :=
  if payload.strAt "request_id" = "" then (r, [])
  else
    ({ r with state := r.state.push (.approval (approvalCard payload)) },
      [.rowAppended r.state.rows.length])

/-- The questions of a `clarify.request` payload, batch shape first; empty when there is nothing to ask. -/
def clarifyQuestions (payload : Value) : List ClarifyQuestion :=
  match (payload.get "questions").bind Value.asArray with
  | some list => list.map fun q =>
      { qid := if q.strAt "qid" = "" then "q0" else q.strAt "qid"
        question := q.strAt "question"
        choices := strList (q.get "choices")
        multiSelect := q.boolAt "multi_select" }
  | none =>
    if payload.strAt "question" = "" then []
    else
      [{ qid := "q0"
         question := payload.strAt "question"
         choices := strList (payload.get "choices")
         multiSelect := payload.boolAt "multi_select" }]

def onClarifyRequest (r : Reducer) (payload : Value) : Reducer × List TranscriptChange :=
  let questions := clarifyQuestions payload
  if questions = [] then (r, [])
  else
    ({ r with state := r.state.push (.clarify ⟨payload.strAt "request_id", questions, false⟩) },
      [.rowAppended r.state.rows.length])

/-- `merge_header`: the non-empty fields of `info` replace the old ones. -/
def mergeHeader (r : Reducer) (info : SessionHeader) : Reducer × List TranscriptChange :=
  if info.title = "" ∧ info.model = "" ∧ info.cwd = "" ∧ info.branch = "" ∧ info.usageJson = "" then (r, [])
  else
    let keep (new old : String) : String := if new = "" then old else new
    let old := r.state.header
    ({ r with
        state := { r.state with
          header :=
            { title := keep info.title old.title
              model := keep info.model old.model
              cwd := keep info.cwd old.cwd
              branch := keep info.branch old.branch
              usageJson := keep info.usageJson old.usageJson } } },
      [.headerUpdated])

/-- The header a `session.info` payload carries. -/
def infoHeader (payload : Value) : SessionHeader :=
  { title := payload.strAt "title"
    model := payload.strAt "model"
    cwd := payload.strAt "cwd"
    branch := payload.strAt "branch"
    usageJson := ((payload.get "usage").map toCompactString).getD "" }

/-- The header a `session.title` payload carries. -/
def titleHeader (payload : Value) : SessionHeader := { title := payload.strAt "title" }

def onSessionInfo (r : Reducer) (payload : Value) : Reducer × List TranscriptChange :=
  r.mergeHeader (infoHeader payload)

def onSessionTitle (r : Reducer) (payload : Value) : Reducer × List TranscriptChange :=
  r.mergeHeader (titleHeader payload)

def onError (r : Reducer) (payload : Value) : Reducer × List TranscriptChange :=
  ({ r with state := r.state.push (.error (payload.strAt "message")) }, [.rowAppended r.state.rows.length])

/-- The dispatch of `Reducer::apply`, before the session key is stamped on the changes. -/
def handle (r : Reducer) (kind : EventKind) (payload : Value) : Reducer × List TranscriptChange :=
  match kind with
  | .messageStart => r.onMessageStart
  | .messageDelta => r.onMessageDelta payload
  | .messageInterim => r.onMessageInterim payload
  | .messageComplete => r.onMessageComplete payload
  | .thinkingDelta => r.onThinkingDelta payload
  | .toolGenerating => r.onToolGenerating payload
  | .toolStart => r.onToolStart payload
  | .toolProgress => r.onToolProgress payload
  | .toolComplete => r.onToolComplete payload
  | .statusUpdate => r.onStatusUpdate payload
  | .approvalRequest => r.onApprovalRequest payload
  | .clarifyRequest => r.onClarifyRequest payload
  | .sessionInfo => r.onSessionInfo payload
  | .sessionTitle => r.onSessionTitle payload
  | .error => r.onError payload
  | .unknown => (r, [])

/-- `Reducer::apply`: an event without a session id is no reducer input. -/
def apply (r : Reducer) (event : EventParams) : Reducer × List SessionChange :=
  if event.sessionId = "" then (r, [])
  else
    let (r', changes) := r.handle (.parse event.eventType) event.payload
    (r', wrap event.sessionId changes)

/-! ### Local operations -/

/-- The shared body of `resolve_approval` and `resolve_clarify`. -/
def resolveCard (r : Reducer) (pred : RowKind → Bool) (settle : RowKind → RowKind) (key : String) :
    Reducer × List SessionChange :=
  match r.find pred with
  | some index => ({ r with state := r.state.revise index settle }, wrap key [.rowUpdated index])
  | none => (r, [])

/-- Mark an approval card resolved. -/
def settleApproval : RowKind → RowKind
  | .approval card => .approval { card with resolved := true }
  | kind => kind

/-- Mark a clarify card resolved. -/
def settleClarify : RowKind → RowKind
  | .clarify card => .clarify { card with resolved := true }
  | kind => kind

def resolveApproval (r : Reducer) (key requestId : String) : Reducer × List SessionChange :=
  r.resolveCard (isUnresolvedApproval requestId) settleApproval key

def resolveClarify (r : Reducer) (key requestId : String) : Reducer × List SessionChange :=
  r.resolveCard (isUnresolvedClarify requestId) settleClarify key

def resetFromResume (_ : Reducer) (key : String) : Reducer × List SessionChange :=
  ({}, [⟨key, .reset⟩])

/-- The row kind of one history message. -/
def messageKind (msg : Value) : RowKind :=
  let text := msg.strAt "text"
  match msg.strAt "role" with
  | "tool" => .tool
      { toolId := ((msg.get "display_metadata").getD .null).strAt "tool_id"
        name := msg.strAt "name"
        complete := true
        context := msg.strAt "context"
        argsJson := ""
        resultJson := text
        durationS := .zero }
  | "user" | "system" => .user text
  | _ => .assistant text false "" ""

/-- One round of the loop of `ingest_resume_messages`; entries that are no objects are skipped. -/
def ingestMessage (acc : Reducer × List TranscriptChange) (msg : Value) : Reducer × List TranscriptChange :=
  let (r, changes) := acc
  if msg.isObject = false then (r, changes)
  else
    let index := r.state.rows.length
    let kind := messageKind msg
    let tools := match kind with
      | .tool card => if card.toolId = "" then r.tools else r.tools.insert card.toolId index
      | _ => r.tools
    ({ r with state := r.state.push kind, tools := tools }, changes ++ [.rowAppended index])

/-- `ingest_resume_messages`: a `Reset`, then one `RowAppended` for each rebuilt row. -/
def ingestResumeMessages (_ : Reducer) (key : String) (messages : List Value) :
    Reducer × List SessionChange :=
  let (r, changes) := messages.foldl ingestMessage ({}, [.reset])
  (r, wrap key changes)

def appendUserRow (r : Reducer) (key text : String) : Reducer × List SessionChange :=
  ({ r with state := r.state.push (.user text) }, wrap key [.rowAppended r.state.rows.length])

/-- `apply_approval_card`: an `approval.pending` card as an approval row. -/
def applyApprovalCard (r : Reducer) (key requestId : String) (card : Value) :
    Reducer × Option (List SessionChange) :=
  if requestId = "" then (r, none)
  else
    let payload := card.setField "request_id" (.string requestId)
    let (r', changes) := r.apply ⟨"approval.request", key, none, payload⟩
    (r', if changes = [] then none else some changes)

end Reducer

end Hermo
