import Hermo.Core.Storage
import Hermo.Rpc.Slash

/-!
# The operations of the app

The exported methods that change the tabs, with their RPCs, over the store of `Storage`.  A point of an operation is an
RPC it awaits, or the gap before a lock section; what an RPC is answered, and whether a write succeeds, are inputs.
The lock section that follows on an answer is taken with it.
-/

namespace Hermo.Operations

open Run Rpc

inductive CoreError where
  | notConnected
  | timeout
  | rpc (code : Int) (detail : String)
  | io
  | unexpectedStatus
  deriving DecidableEq, Repr

/-- The error of a failed call, as the app sees it. -/
def CoreError.ofClient : ClientError → CoreError
  | .rpc code detail => .rpc code detail
  | .timeout => .timeout
  | .closed _ => .notConnected

inductive SlashOutcome where
  | output (text : String)
  | prefill (text : String)
  | submitted
  | empty
  deriving DecidableEq, Repr

/-- What an operation returns. -/
inductive Answer where
  | done
  | key (key : String)
  | slash (outcome : SlashOutcome)
  deriving DecidableEq, Repr

inductive Operation where
  | openSession (storedId : Option String) (cols : Int)
  | openBotChat (profile : String) (cols : Int)
  | closeSession (key : String)
  | clearSessions
  | setSessionTitle (key title : String)
  | send (key text : String)
  | runSlash (key command : String)
  | respondApproval (key requestId : String)
  | respondClarify (key requestId : String)
  deriving DecidableEq, Repr

inductive Point where
  | call (op : Operation)
  /-- `open_bot_chat` awaits `session.list`. -/
  | listing (profile : String) (cols : Int)
  /-- `open_session_inner`, before it takes the client. -/
  | openInner (storedId profile : Option String) (cols : Int)
  | creating (profile : Option String) (cols : Int)
  | resuming (storedId : String) (profile : Option String) (cols : Int)
  /-- `session.title` is out. -/
  | titling (sessionId title : String)
  /-- Behind the lock section of `deliver_event`, `registry_dirty` not yet raised. -/
  | marking
  /-- `prompt.submit` is out. -/
  | submitting (key message rowText : String) (historyEpoch : UInt64) (answer : Answer)
  /-- `run_slash_ladder`, before it takes the client. -/
  | ladder (key command : String) (hop : Nat)
  /-- `slash.exec` is out. -/
  | executing (key command : String) (hop : Nat)
  /-- `command.dispatch` is out. -/
  | dispatching (key name arg : String) (hop : Nat)
  /-- `submit_slash_message`, before it captures the history epoch. -/
  | slashSubmit (key message rowText : String)
  | approving (key requestId : String)
  | clarifying (key requestId : String)
  | returned (result : Except CoreError Answer)

inductive Input where
  | run
  | disk (succeeds : Bool)
  | created (reply : Except ClientError CreatedSession) (written : Bool)
  | resumed (reply : Except ClientError ResumedSession) (written : Bool)
  | listed (reply : Except ClientError (List (String × String)))
  | submitted (reply : Except ClientError SubmitStatus)
  | executed (reply : Outcome)
  | dispatched (reply : Except ClientError DispatchOutcome)
  /-- The answer of a call whose result is not looked at. -/
  | answered (reply : Except ClientError Unit)
  | store (input : Storage.Input)

structure Shared where
  /-- There is a client. -/
  client : Bool := false
  store : Storage.Shared

namespace Point

/-- The operation returned an error. -/
def fail (e : CoreError) : Point := .returned (.error e)

/-- `open_session_inner` takes the client. -/
def openWith (s : Shared) (storedId profile : Option String) (cols : Int) : Point :=
  if s.client = false then fail .notConnected
  else
    match storedId with
    | none => .creating profile cols
    | some id => .resuming id profile cols

/-- The lock section most operations begin with: the client, and the live session of the key. -/
def withSession (s : Shared) (key : String) (next : LiveSession → Point) : Point :=
  if s.client = false then fail .notConnected
  else
    match s.store.core.sessions.lookup key with
    | none => fail .notConnected
    | some live => next live

/-- The next round of the slash ladder. -/
def startLadder (s : Shared) (key command : String) (hop : Nat) : Point :=
  withSession s key fun _ => .executing key command hop

/-- What `run_slash_ladder` does with a plan. -/
def afterExec (key : String) (hop : Nat) : Except ClientError SlashPlan → Point
  | .ok (.output text) => .returned (.ok (.slash (.output text)))
  | .ok .empty => .returned (.ok (.slash .empty))
  | .ok (.dispatch name arg) => .dispatching key name arg hop
  | .error e => fail (.ofClient e)

def afterDispatch (key : String) (hop : Nat) : SlashDispatch → Point
  | .output text => .returned (.ok (.slash (.output text)))
  | .prefill text => .returned (.ok (.slash (.prefill text)))
  | .unknown => .returned (.ok (.slash (.output "unknown dispatch type")))
  | .submit message display => .slashSubmit key message (if display = "" then message else display)
  | .alias target =>
    if maxAliasHops ≤ hop then fail (.rpc aliasLoopCode "slash alias chain exceeded 8 hops")
    else .ladder key (aliasCommand target) (hop + 1)

end Point

section

variable [Serializer]

/-- The end of `respond_approval` and `respond_clarify`. -/
def settle (s : Shared) (a : Action) : Except ClientError Unit → Shared × Point
  | .ok () => ({ s with store := s.store.act a }, .returned (.ok .done))
  | .error e => (s, .fail (.ofClient e))

/-- The lock section of `open_session_inner`. -/
def opened (s : Shared) (profile : Option String) (cols : Int) (written : Bool) :
    Except ClientError OpenReply → Shared × Point
  | .ok reply =>
    ({ s with store := (s.store.act (.openSession reply profile cols)).save written },
      .returned (.ok (.key reply.key)))
  | .error e => (s, .fail (.ofClient e))

/-- The first step of an operation; `written` says whether a save in it succeeds. -/
def begin (s : Shared) (written : Bool) : Operation → Shared × Point
  | .openSession storedId cols => (s, .openWith s storedId none cols)
  | .openBotChat profile cols => (s, if s.client then .listing profile cols else .fail .notConnected)
  | .closeSession key =>
    ({ s with store := (s.store.act (.closeSession key)).save written }, .returned (.ok .done))
  | .clearSessions =>
    ({ s with store := (s.store.act .clearSessions).save written },
      if written then .returned (.ok .done) else .fail .io)
  | .setSessionTitle key title =>
    (s, if s.client = false then .fail .notConnected
      else .titling (((s.store.core.sessions.lookup key).map LiveSession.liveSid).getD key) title)
  | .send key text => (s, .withSession s key fun live => .submitting key text text live.historyEpoch .done)
  | .runSlash key command => (s, .startLadder s key command 0)
  | .respondApproval key requestId => (s, .withSession s key fun _ => .approving key requestId)
  | .respondClarify key requestId => (s, .withSession s key fun _ => .clarifying key requestId)

def Point.next (s : Shared) : Point → Input → Option (Shared × Point)
  | .call op, .disk written => some (begin s written op)
  | .listing profile cols, .listed (.ok rows) =>
    match resolveBotChat rows with
    | .resume storedId => some (s, .openInner (some storedId) (some profile) cols)
    | .create => some (s, .openInner none (some profile) cols)
  | .listing _ _, .listed (.error e) => some (s, .fail (.ofClient e))
  | .openInner storedId profile cols, .run => some (s, .openWith s storedId profile cols)
  | .creating profile cols, .created reply written => some (opened s profile cols written (reply.map .created))
  | .resuming storedId profile cols, .resumed reply written =>
    some (opened s profile cols written (reply.map (.resumed storedId)))
  | .titling sessionId title, .answered (.ok ()) =>
    let ev : EventParams := ⟨"session.title", sessionId, none, .object [("title", .string title)]⟩
    some ({ s with store := s.store.act (.deliver ev) },
      if (s.store.core.routeEvent ev).2.isSome then .marking else .returned (.ok .done))
  | .titling _ _, .answered (.error e) => some (s, .fail (.ofClient e))
  | .marking, .run => some ({ s with store := { s.store with registryDirty := true } }, .returned (.ok .done))
  | .submitting key _ rowText historyEpoch answer, .submitted (.ok status) =>
    if status.accepted then
      some ({ s with store := s.store.act (.appendUserRow key rowText historyEpoch) }, .returned (.ok answer))
    else some (s, .fail .unexpectedStatus)
  | .submitting _ _ _ _ _, .submitted (.error e) => some (s, .fail (.ofClient e))
  | .ladder key command hop, .run => some (s, .startLadder s key command hop)
  | .executing key command hop, .executed reply => some (s, .afterExec key hop (planAfterSlashExec command reply))
  | .dispatching key _ _ hop, .dispatched (.ok outcome) => some (s, .afterDispatch key hop (planFromDispatch outcome))
  | .dispatching _ _ _ _, .dispatched (.error e) => some (s, .fail (.ofClient e))
  | .slashSubmit key message rowText, .run =>
    some (s, match s.store.core.sessions.lookup key with
      | none => .fail .notConnected
      | some live => .submitting key message rowText live.historyEpoch (.slash .submitted))
  | .approving key requestId, .answered reply => some (settle s (.respondApproval key requestId) reply)
  | .clarifying key requestId, .answered reply => some (settle s (.respondClarify key requestId) reply)
  | _, _ => none

end

inductive Task where
  | op (point : Point)
  /-- `deliver_event`, `flush_registry` or `forget_gateway`. -/
  | store (t : Storage.Task)

inductive Event where
  /-- A lock section of the supervisor. -/
  | act (a : Action)
  /-- A client is installed, or taken. -/
  | client (installed : Bool)

section

variable [Serializer]

def Task.next (s : Shared) : Task → Input → Option (Shared × Task × List Task)
  | .op point, input => (point.next s input).map fun (s', point') => (s', .op point', [])
  | .store t, .store input =>
    (t.next s.store input).map fun (after, t', _) => ({ s with store := after }, .store t', [])
  | _, _ => none

def Event.next (s : Shared) : Event → Option Shared
  | .act a => if a.unsaved ∧ a.Typed then some { s with store := s.store.act a } else none
  | .client installed => some { s with client := installed }

/-- Where an operation, or a task of the store, begins. -/
def Task.isCall : Task → Bool
  | .op (.call _) => true
  | .store t => t.isCall
  | _ => false

def program : Tasks.Program Shared Task Input Event := ⟨Task.next, Event.next, fun _ => Task.isCall⟩

end

abbrev System := Tasks.System Shared Task

abbrev Label := Tasks.Label Task Input Event

def start [JsonReader] (file : Option String) : System := ⟨{ store := (Storage.start file).shared }, []⟩

end Hermo.Operations
