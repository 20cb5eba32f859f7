import Hermo.Json

/-!
# Replies of the gateway

The decoded results of the typed RPC wrappers (`rpc/api.rs`), with the fields the core reads.  A failed call
(`ClientError` in the source) is `none` wherever a reply is expected: the core only ever asks whether a call failed.
-/

namespace Hermo

/-- Result of `session.create`. -/
structure CreatedSession where
  sessionId : String
  storedSessionId : String
  profileName : String

def CreatedSession.fromValue (value : Value) : CreatedSession :=
  { sessionId := value.strAt "session_id"
    storedSessionId := value.strAt "stored_session_id"
    profileName := ((value.get "info").getD .null).strAt "profile_name" }

/-- Result of `session.resume`. -/
structure ResumedSession where
  sessionId : String
  messages : List Value
  profileName : String

/-- Result of `prompt.submit`. -/
inductive SubmitStatus where
  | streaming | redirected | other
  deriving DecidableEq, Repr

/-- The statuses under which `send` and `submit_slash_message` publish the user row. -/
def SubmitStatus.accepted : SubmitStatus → Bool
  | streaming | redirected => true
  | other => false

/-- Reply of `clarify.respond`, `remaining` for the batch shape. -/
structure ClarifyAck where
  status : String
  remaining : List String
  deriving DecidableEq, Repr

def ClarifyAck.fromValue (value : Value) : ClarifyAck :=
  { status := value.strAt "status"
    remaining := (((value.get "remaining").bind Value.asArray).map fun a => a.map fun v => v.asStr.getD "").getD [] }

/-- One replayed event of `session.events.since`. -/
structure ReplayedEvent where
  eventType : String
  sessionId : String
  seq : Int
  payload : Value

structure EventsSince where
  events : List ReplayedEvent
  latestSeq : Int
  /-- The server dropped older events. -/
  truncated : Bool
  epoch : String

def ReplayedEvent.fromValue (value : Value) : ReplayedEvent :=
  { eventType := value.strAt "type"
    sessionId := value.strAt "session_id"
    seq := value.i64At "seq"
    payload := (value.get "payload").getD .null }

def EventsSince.fromValue (value : Value) : EventsSince :=
  { events := (((value.get "events").bind Value.asArray).map fun a => a.map ReplayedEvent.fromValue).getD []
    latestSeq := value.i64At "latest_seq"
    truncated := value.boolAt "truncated"
    epoch := value.strAt "epoch" }

/-- What `open_session_inner` got: a fresh session, or a resumed one under its stored id. -/
inductive OpenReply where
  | created (reply : CreatedSession)
  | resumed (storedId : String) (reply : ResumedSession)

namespace OpenReply

def key : OpenReply → String
  | created reply => reply.storedSessionId
  | resumed storedId _ => storedId

def liveSid : OpenReply → String
  | created reply => reply.sessionId
  | resumed _ reply => reply.sessionId

def messages : OpenReply → List Value
  | created _ => []
  | resumed _ reply => reply.messages

def wireProfile : OpenReply → String
  | created reply => reply.profileName
  | resumed _ reply => reply.profileName

end OpenReply

/-- The `approval.pending` list: `pending`, else `approvals`, else empty. -/
def pendingList (pending : Value) : List Value :=
  (((pending.get "pending").or (pending.get "approvals")).bind Value.asArray).getD []

end Hermo
