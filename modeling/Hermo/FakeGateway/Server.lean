import Hermo.Library.OrderedMap
import Hermo.Library.PercentEncoding
import Hermo.Library.Tasks
import Hermo.FakeGateway.Fixtures

/-!
# The fake gateway

`server.rs` of the fake gateway: HTTP requests, WebSocket connections and the turns they start run as tasks over one
`GatewayState`.  A step of a task is one of its lock sections, an atomic operation or a send, and other tasks may run
between any two of them.  A line on a channel is the JSON value it is the text of; the bytes of HTTP and the clock are
left out.
-/

namespace Hermo

/-- `Value::as_i64`. -/
def Value.asI64 : Value → Option Int
  | .number (.int n) => if i64Min ≤ n ∧ n ≤ i64Max then some n else none
  | _ => none

namespace FakeGateway

open OrderedMap (put)
open Tasks (Program)
open Hermo.Rpc (trim)

structure Config where
  user : String
  password : String
  failProfiles : Nat := 0
  dropAfter : Option Nat := none

structure ReplayedEventRecord where
  seq : Nat
  eventType : String
  payload : Value

structure SessionRecord where
  id : String
  title : String
  startedAt : String
  order : Nat
  running : Bool := false
  seq : Nat := 0
  events : List ReplayedEventRecord := []
  /-- The turn of `turn_handle`. -/
  turnHandle : Option Nat := none

/-- The next event of a record. -/
def SessionRecord.push (record : SessionRecord) (eventType : String) (payload : Value) : SessionRecord :=
  { record with
    seq := record.seq + 1
    events := record.events ++ [⟨record.seq + 1, eventType, payload⟩] }

structure GatewayState where
  config : Config
  fixtures : Fixtures
  sessions : AList fun _ : String => SessionRecord := ∅
  nextSessionId : Nat := 1
  nextOrder : Nat := 0
  tickets : AList fun _ : String => Bool := ∅
  nextTicket : Nat := 1
  profileFailuresLeft : Nat
  dropArmed : Bool
  /-- The channels of the open connections. -/
  channels : AList fun _ : Nat => List Value := ∅
  nextChannel : Nat := 0
  /-- The lines that went out, with the connection. -/
  wire : List (Nat × Value) := []
  nextTurn : Nat := 0
  /-- The turns whose handle was aborted. -/
  aborted : List Nat := []

structure HttpRequest where
  method : String
  path : String
  cookieHeader : String
  body : String

structure HttpResponse where
  status : Nat
  body : Value
  cookies : List String := []

def ok : Value := .object [("ok", .bool true)]

def detail (text : String) : Value := .object [("detail", .string text)]

def replyOk (id result : Value) : Value :=
  .object [("jsonrpc", .string "2.0"), ("id", id), ("result", result)]

def replyErr (id : Value) (code : Int) (message : String) : Value :=
  .object [("jsonrpc", .string "2.0"), ("id", id),
    ("error", .object [("code", .number (.int code)), ("message", .string message)])]

def eventFrame (eventType sessionId : String) (seq : Nat) (payload : Value) : Value :=
  .object [("jsonrpc", .string "2.0"), ("method", .string "event"),
    ("params", .object [("type", .string eventType), ("session_id", .string sessionId),
      ("seq", .number (.int seq)), ("payload", payload)])]

def sessionEntryJson (record : SessionRecord) : Value :=
  .object [("id", .string record.id), ("resolved_id", .string record.id), ("title", .string record.title),
    ("preview", .string ""), ("started_at", .string record.startedAt), ("message_count", .number (.int 0)),
    ("source", .string "fake")]

namespace GatewayState

def new (config : Config) (fixtures : Fixtures) : GatewayState :=
  { config := config
    fixtures := fixtures
    profileFailuresLeft := config.failProfiles
    dropArmed := config.dropAfter.isSome }

/-- The state behind `should_drop`, and its result. -/
def shouldDrop (s : GatewayState) (sent : Nat) : GatewayState × Bool :=
  match s.config.dropAfter with
  | some n => if n ≤ sent ∧ s.dropArmed then ({ s with dropArmed := false }, true) else (s, false)
  | none => (s, false)

def takeProfileFailure (s : GatewayState) : GatewayState × Bool :=
  if s.profileFailuresLeft = 0 then (s, false)
  else ({ s with profileFailuresLeft := s.profileFailuresLeft - 1 }, true)

def takeTicket (s : GatewayState) (ticket : String) : GatewayState × Bool :=
  match s.tickets.lookup ticket with
  | some true => ({ s with tickets := put ticket false s.tickets }, true)
  | _ => (s, false)

/-- `sessions.insert`, and every write to a record. -/
def setRecord (s : GatewayState) (key : String) (record : SessionRecord) : GatewayState :=
  { s with sessions := put key record s.sessions }

/-- `sessions.entry(key).or_insert_with(..)`. -/
def entry (s : GatewayState) (key now : String) : GatewayState × SessionRecord :=
  match s.sessions.lookup key with
  | some record => (s, record)
  | none =>
    let record : SessionRecord := { id := key, title := "", startedAt := now, order := s.nextOrder }
    ({ s with nextOrder := s.nextOrder + 1 }.setRecord key record, record)

def nextSeqAndRecord (s : GatewayState) (key eventType : String) (payload : Value) : Option (GatewayState × Nat) :=
  (s.sessions.lookup key).map fun record =>
    (s.setRecord key (record.push eventType payload), record.seq + 1)

def abort (s : GatewayState) (handle : Option Nat) : GatewayState :=
  { s with aborted := handle.toList ++ s.aborted }

/-- `out.send`: a channel whose receiver is gone takes nothing. -/
def send (s : GatewayState) (channel : Nat) (line : Value) : GatewayState :=
  match s.channels.lookup channel with
  | some lines => { s with channels := put channel (lines ++ [line]) s.channels }
  | none => s

/-- The connection is gone, and with it the receiver. -/
def hangUp (s : GatewayState) (channel : Nat) : GatewayState := { s with channels := s.channels.erase channel }

/-- `sessions.values()`, for the order in which the map yields its keys. -/
def values (s : GatewayState) (keys : List String) : List SessionRecord := keys.filterMap s.sessions.lookup

end GatewayState

/-! ### The handlers of a connection -/

/-- What is left of a handler behind one of its steps. -/
inductive Job where
  /-- The lines it still sends. -/
  | sending (lines : List Value)
  /-- `session.create`, before its order, before its insert, before its reply and before it records the title. -/
  | ordering (id : Value) (profile title sessionId : String)
  | inserting (id : Value) (profile title sessionId : String) (order : Nat)
  | created (id : Value) (profile title sessionId : String)
  | titling (title sessionId : String)
  /-- `prompt.submit`, before its reply and before it keeps the handle of its turn. -/
  | streaming (id : Value) (sessionId text : String)
  | keeping (sessionId : String) (turn : Nat)

inductive Method where
  | gatewayPing | sessionCreate | sessionList | sessionMostRecent | sessionResume | sessionEventsSince | sessionTitle
  | sessionClose | sessionInterrupt | promptSubmit | slashExec | commandDispatch | completeSlash | approvalPending
  | approvalRespond | clarifyRespond | unknown
  deriving DecidableEq, Repr

def Method.parse (method : String) : Method :=
  match method with
  | "gateway.ping" => gatewayPing
  | "session.create" => sessionCreate
  | "session.list" => sessionList
  | "session.most_recent" => sessionMostRecent
  | "session.resume" => sessionResume
  | "session.events.since" => sessionEventsSince
  | "session.title" => sessionTitle
  | "session.close" => sessionClose
  | "session.interrupt" => sessionInterrupt
  | "prompt.submit" => promptSubmit
  | "slash.exec" => slashExec
  | "command.dispatch" => commandDispatch
  | "complete.slash" => completeSlash
  | "approval.pending" => approvalPending
  | "approval.respond" => approvalRespond
  | "clarify.respond" => clarifyRespond
  | _ => unknown

def slashCompletions : Value :=
  let item (text description : String) : Value :=
    .object [("display", .string text), ("text", .string text), ("kind", .string "command"),
      ("meta", .string description)]
  .object [("items", .array [item "/help" "list available commands", item "/model" "switch the active model",
    item "/clear" "clear the transcript", item "/quit" "end the session"]), ("replace_from", .number (.int 0))]

def execResult (output : String) : Value := .object [("type", .string "exec"), ("output", .string output)]

def handleSlashExec (id params : Value) : Value :=
  let command := params.strAt "command"
  if trim command.toList = [] then replyErr id 4004 "empty command" else replyOk id (execResult ("ran " ++ command))

def handleCommandDispatch (id params : Value) : Value :=
  let name := params.strAt "name"
  let arg := params.strAt "arg"
  replyOk id (execResult (if arg = "" then "dispatched " ++ name else "dispatched " ++ name ++ " " ++ arg))

namespace GatewayState

def handleSessionTitle (s : GatewayState) (now : String) (id params : Value) : GatewayState × Job :=
  let sessionId := params.strAt "session_id"
  let requested := (params.get "title").bind Value.asStr
  let (s, record) := s.entry sessionId now
  let record := match requested with
    | some title => { record with title := title }
    | none => record
  let reply := replyOk id (.object [("title", .string record.title), ("pending", .bool false)])
  (s.setRecord sessionId record, .sending [reply])

def handleSessionList (s : GatewayState) (channel : Nat) (keys : List String) (id params : Value) : GatewayState :=
  let limit := ((((params.get "limit").bind Value.asI64).filter (0 ≤ ·)).getD 20).toNat
  let entries := (s.values keys).mergeSort fun a b => b.order ≤ a.order
  s.send channel (replyOk id (.object [("sessions", .array ((entries.take limit).map sessionEntryJson))]))

def handleSessionMostRecent (s : GatewayState) (channel : Nat) (keys : List String) (id : Value) : GatewayState :=
  let result := ((maxByKey SessionRecord.order (s.values keys)).map sessionEntryJson).getD (.object [])
  s.send channel (replyOk id result)

def handleSessionResume (s : GatewayState) (channel : Nat) (now : String) (id params : Value) : GatewayState :=
  let sessionId := params.strAt "session_id"
  let resumed := (s.sessions.lookup sessionId).isSome
  let (s, record) := s.entry sessionId now
  s.send channel (replyOk id (.object [("session_id", .string sessionId), ("resumed", .bool resumed),
    ("message_count", .number (.int 0)), ("messages", .array []), ("running", .bool record.running),
    ("inflight", .bool false), ("info", .object [("profile_name", .string "")])]))

/-- An event of a `session.events.since` reply. -/
def eventJson (sessionId : String) (e : ReplayedEventRecord) : Value :=
  .object [("type", .string e.eventType), ("session_id", .string sessionId), ("seq", .number (.int e.seq)),
    ("payload", e.payload)]

/-- `replay_epoch` of the recorded `gateway.ready`. -/
def epoch (s : GatewayState) : String := s.fixtures.ready.strAt "replay_epoch"

def readyFrame (s : GatewayState) : Value :=
  .object [("jsonrpc", .string "2.0"), ("method", .string "event"),
    ("params", .object [("type", .string "gateway.ready"), ("payload", s.fixtures.ready)])]

/-- The result of `session.events.since`. -/
def eventsSince (s : GatewayState) (sessionId : String) (lastSeen : Int) : Value :=
  let (events, latestSeq, truncated) := match s.sessions.lookup sessionId with
    | some record =>
      ((record.events.filter fun e => lastSeen < e.seq).map (eventJson sessionId), (record.seq : Int), false)
    | none => ([], lastSeen, true)
  .object [("events", .array events), ("latest_seq", .number (.int latestSeq)), ("truncated", .bool truncated),
    ("epoch", .string s.epoch)]

def handleEventsSince (s : GatewayState) (channel : Nat) (id params : Value) : GatewayState :=
  let lastSeen := ((params.get "last_seen").bind Value.asI64).getD 0
  s.send channel (replyOk id (s.eventsSince (params.strAt "session_id") lastSeen))

def handleSessionClose (s : GatewayState) (id params : Value) : GatewayState × Job :=
  let sessionId := params.strAt "session_id"
  match s.sessions.lookup sessionId with
  | some record =>
    ({ s with sessions := s.sessions.erase sessionId }.abort record.turnHandle, .sending [replyOk id ok])
  | none => (s, .sending [replyOk id ok])

def handleSessionInterrupt (s : GatewayState) (id params : Value) : GatewayState × Job :=
  let sessionId := params.strAt "session_id"
  let payload : Value := .object [("status", .string "interrupted")]
  match s.sessions.lookup sessionId with
  | some record =>
    if record.running then
      let s := s.abort record.turnHandle
      let record := { record with running := false, turnHandle := none }.push "message.complete" payload
      let frame := eventFrame "message.complete" sessionId record.seq payload
      (s.setRecord sessionId record, .sending [frame, replyOk id ok])
    else (s, .sending [replyOk id ok])
  | none => (s, .sending [replyOk id ok])

def handlePromptSubmit (s : GatewayState) (now : String) (id params : Value) : GatewayState × Job :=
  let sessionId := params.strAt "session_id"
  let (s, record) := s.entry sessionId now
  if record.running then (s, .sending [replyOk id (.object [("status", .string "redirected")])])
  else (s.setRecord sessionId { record with running := true }, .streaming id sessionId (params.strAt "text"))

/-- `session.create`, up to the id it draws. -/
def handleSessionCreate (s : GatewayState) (id params : Value) : GatewayState × Job :=
  ({ s with nextSessionId := s.nextSessionId + 1 },
    .ordering id (params.strAt "profile") (params.strAt "title") ("fake-session-" ++ toString s.nextSessionId))

/-- `handle_rpc_line` up to the first step of its handler; the map yields its keys in the order `keys`. -/
def handleRpcLine [JsonReader] (s : GatewayState) (channel : Nat) (now : String) (keys : List String) (line : String) :
    GatewayState × Job :=
  match fromStr line with
  | none => (s, .sending [])
  | some value =>
    let id := (value.get "id").getD .null
    let params := (value.get "params").getD .null
    match Method.parse (value.strAt "method") with
    | .gatewayPing | .approvalRespond => (s, .sending [replyOk id ok])
    | .sessionCreate => s.handleSessionCreate id params
    | .sessionList => (s.handleSessionList channel keys id params, .sending [])
    | .sessionMostRecent => (s.handleSessionMostRecent channel keys id, .sending [])
    | .sessionResume => (s.handleSessionResume channel now id params, .sending [])
    | .sessionEventsSince => (s.handleEventsSince channel id params, .sending [])
    | .sessionTitle => s.handleSessionTitle now id params
    | .sessionClose => s.handleSessionClose id params
    | .sessionInterrupt => s.handleSessionInterrupt id params
    | .promptSubmit => s.handlePromptSubmit now id params
    | .slashExec => (s, .sending [handleSlashExec id params])
    | .commandDispatch => (s, .sending [handleCommandDispatch id params])
    | .completeSlash => (s, .sending [replyOk id slashCompletions])
    | .approvalPending => (s, .sending [replyOk id (.object [("pending", .array [])])])
    | .clarifyRespond =>
      (s, .sending [replyOk id (.object [("status", .string "ok"), ("remaining", .array [])])])
    | .unknown => (s, .sending [replyErr id (-32601) "method not found"])

end GatewayState

/-! ### HTTP -/

inductive Route where
  | status | passwordLogin | wsTicket | me | logout | profiles | unknown

def Route.parse (method path : String) : Route :=
  match method, path with
  | "GET", "/api/status" => status
  | "POST", "/auth/password-login" => passwordLogin
  | "POST", "/api/auth/ws-ticket" => wsTicket
  | "GET", "/api/auth/me" => me
  | "POST", "/auth/logout" => logout
  | "GET", "/api/profiles" => profiles
  | _, _ => unknown

def HttpRequest.hasSessionCookie (request : HttpRequest) : Bool :=
  containsText request.cookieHeader "hermes_session_at" || containsText request.cookieHeader "hermes_session_rt"

def unauthorized : HttpResponse := { status := 401, body := detail "unauthorized" }

def statusBody : Value :=
  .object [("ok", .bool true), ("version", .string "fake-0.1"), ("auth_required", .bool true),
    ("auth_providers", .array [.string "basic"])]

def profilesBody : Value :=
  let profile (name : String) (isDefault : Bool) (model description : String) : Value :=
    .object [("name", .string name), ("is_default", .bool isDefault), ("model", .string model),
      ("description", .string description)]
  .object [("profiles", .array [profile "default" true "fake-model-a" "the default fake profile",
    profile "second" false "fake-model-b" "a second fake profile"])]

def login [JsonReader] (config : Config) (body : String) : HttpResponse :=
  let parsed := (fromStr body).getD .null
  if parsed.strAt "provider" ≠ "basic" then { status := 404, body := detail "unknown provider" }
  else if parsed.strAt "username" ≠ config.user ∨ parsed.strAt "password" ≠ config.password then
    { status := 401, body := detail "invalid credentials" }
  else
    { status := 200
      body := .object [("ok", .bool true), ("next", .string "")]
      cookies := ["hermes_session_at=fake-access-token; Path=/; HttpOnly",
        "hermes_session_rt=fake-refresh-token; Path=/; HttpOnly"] }

/-- `fake-ticket-{n}`. -/
def ticketText (number : Nat) : String := "fake-ticket-" ++ toString number

def ticketResponse (number : Nat) : HttpResponse :=
  { status := 200
    body := .object [("ticket", .string (ticketText number)), ("ttl_seconds", .number (.int 30))] }

/-- `str::split_once`. -/
def splitOnce (d : Char) (text : List Char) : Option (List Char × List Char) :=
  if d ∈ text then some (text.takeWhile (· != d), (text.dropWhile (· != d)).tail) else none

def ticketFromQuery (query : String) : Option String :=
  (query.toList.splitOn '&').findSome? fun pair =>
    (splitOnce '=' pair).bind fun (key, value) =>
      if key = "ticket".toList then some (String.ofList (Percent.fromUtf8Lossy (Percent.decode value)))
      else none

/-! ### The tasks -/

/-- `serve_ws`, behind the greeting. -/
structure Connection where
  ticket : String
  channel : Nat
  sent : Nat
  /-- The lines of the text frame that is being handled. -/
  lines : List String := []
  job : Job := .sending []

/-- Where `run_turn` is. -/
inductive TurnPoint where
  | sleeping (frames : List Value)
  | awake (frame : Value) (frames : List Value)
  | recorded (frame : Value) (frames : List Value)
  | finishing

structure Turn where
  number : Nat
  sessionId : String
  channel : Nat
  point : TurnPoint

inductive Task where
  | http (request : HttpRequest)
  /-- `mint_ticket`, before it keeps the ticket it numbered, and behind it. -/
  | minting (request : HttpRequest) (number : Nat)
  | minted (request : HttpRequest) (number : Nat)
  | answered (request : HttpRequest) (response : HttpResponse)
  | upgrade (query : Option String)
  | rejected
  /-- Before `gateway.ready` is sent. -/
  | greeting (ticket : String) (channel : Nat)
  | connection (c : Connection)
  /-- A connection that was dropped, and one that ended otherwise. -/
  | dropped (ticket : String) (sent : Nat)
  | gone (ticket : String)
  | turn (t : Turn)
  /-- A frame that is sent after a delay. -/
  | delayed (channel : Nat) (frame : Value)
  | ended

/-- The response of a request. -/
def Task.response : Task → Option HttpResponse
  | .answered _ response => some response
  | .minted _ number => some (ticketResponse number)
  | _ => none

inductive Input where
  /-- The task goes on; the clock, and the order in which the map yields its keys. -/
  | go (now : String) (keys : List String)
  /-- `sink.send` returns. -/
  | sent (delivered : Bool)
  | text (frame : String)
  | close

namespace GatewayState

section

variable [JsonReader]

def routeHttp (s : GatewayState) (request : HttpRequest) : GatewayState × Task :=
  match Route.parse request.method request.path with
  | .status => (s, .answered request { status := 200, body := statusBody })
  | .passwordLogin => (s, .answered request (login s.config request.body))
  | .wsTicket =>
    if request.hasSessionCookie then ({ s with nextTicket := s.nextTicket + 1 }, .minting request s.nextTicket)
    else (s, .answered request unauthorized)
  | .me =>
    if request.hasSessionCookie then
      (s, .answered request
        { status := 200, body := .object [("username", .string s.config.user), ("provider", .string "basic")] })
    else (s, .answered request unauthorized)
  | .logout =>
    (s, .answered request
      { status := 200
        body := ok
        cookies := ["hermes_session_at=; Path=/; HttpOnly; Max-Age=0",
          "hermes_session_rt=; Path=/; HttpOnly; Max-Age=0"] })
  | .profiles =>
    let (s, failed) := s.takeProfileFailure
    if failed then (s, .answered request { status := 500, body := detail "profiles unavailable" })
    else if request.hasSessionCookie then (s, .answered request { status := 200, body := profilesBody })
    else (s, .answered request unauthorized)
  | .unknown => (s, .answered request { status := 404, body := detail "no such route" })

end

def keepTicket (s : GatewayState) (request : HttpRequest) (number : Nat) : GatewayState × Task :=
  ({ s with tickets := put (ticketText number) true s.tickets }, .minted request number)

def acceptWs (s : GatewayState) (query : Option String) : GatewayState × Task :=
  match query.bind ticketFromQuery with
  | none => (s, .rejected)
  | some ticket =>
    let (s, accepted) := s.takeTicket ticket
    if accepted then
      ({ s with channels := put s.nextChannel [] s.channels, nextChannel := s.nextChannel + 1 },
        .greeting ticket s.nextChannel)
    else (s, .rejected)

/-- `sink.send` and what follows: a failed send and the drop end the connection. -/
def sendOut (s : GatewayState) (c : Connection) (line : Value) (delivered : Bool) : GatewayState × Task :=
  if delivered then
    let (s, drop) := { s with wire := s.wire ++ [(c.channel, line)] }.shouldDrop c.sent
    if drop then (s.hangUp c.channel, .dropped c.ticket c.sent) else (s, .connection c)
  else (s.hangUp c.channel, .gone c.ticket)

/-- The next step of a handler. -/
def runJob [Lowercase] (s : GatewayState) (channel : Nat) (now : String) :
    Job → Option (GatewayState × Job × List Task)
  | .sending [] => none
  | .sending (line :: lines) => some (s.send channel line, .sending lines, [])
  | .ordering id profile title sessionId =>
    some ({ s with nextOrder := s.nextOrder + 1 }, .inserting id profile title sessionId s.nextOrder, [])
  | .inserting id profile title sessionId order =>
    some (s.setRecord sessionId { id := sessionId, title := title, startedAt := now, order := order },
      .created id profile title sessionId, [])
  | .created id profile title sessionId =>
    let reply := replyOk id (.object [("session_id", .string sessionId), ("stored_session_id", .string sessionId),
      ("message_count", .number (.int 0)), ("info", .object [("profile_name", .string profile)])])
    some (s.send channel reply, if title = "" then .sending [] else .titling title sessionId, [])
  | .titling title sessionId =>
    let payload : Value := .object [("session_id", .string sessionId), ("title", .string title)]
    match s.nextSeqAndRecord sessionId "session.title" payload with
    | none => some (s, .sending [], [])
    | some (s, seq) => some (s, .sending [], [.delayed channel (eventFrame "session.title" sessionId seq payload)])
  | .streaming id sessionId text =>
    let s := s.send channel (replyOk id (.object [("status", .string "streaming")]))
    let turn : Turn := ⟨s.nextTurn, sessionId, channel, .sleeping (s.fixtures.turn (select text))⟩
    some ({ s with nextTurn := s.nextTurn + 1 }, .keeping sessionId s.nextTurn, [.turn turn])
  | .keeping sessionId turn =>
    match s.sessions.lookup sessionId with
    | some record => some (s.setRecord sessionId { record with turnHandle := some turn }, .sending [], [])
    | none => some (s, .sending [], [])

/-- The lines of a text frame that are handled. -/
def linesOf (frame : String) : List String :=
  ((frame.toList.splitOn '\n').map trim |>.filter (· ≠ [])).map String.ofList

/-- `tokio::select!` waits between two text frames. -/
def nextConnection [JsonReader] [Lowercase] (s : GatewayState) (c : Connection) :
    Input → Option (GatewayState × Task × List Task)
  | .go now keys =>
    match c.job, c.lines with
    | .sending [], [] => none
    | .sending [], line :: lines =>
      if keys.Perm s.sessions.keys then
        let (s, job) := s.handleRpcLine c.channel now keys line
        some (s, .connection { c with lines := lines, job := job }, [])
      else none
    | job, _ =>
      (s.runJob c.channel now job).map fun (s, job, spawned) => (s, .connection { c with job := job }, spawned)
  | input =>
    match c.job, c.lines, input, s.channels.lookup c.channel with
    | .sending [], [], .sent delivered, some (out :: waiting) =>
      let (s, t) := { s with channels := put c.channel waiting s.channels }.sendOut { c with sent := c.sent + 1 } out
        delivered
      some (s, t, [])
    | .sending [], [], .text frame, _ => some (s, .connection { c with lines := linesOf frame }, [])
    | .sending [], [], .close, _ => some (s.hangUp c.channel, .gone c.ticket, [])
    | _, _, _, _ => none

/-- A turn that was aborted ends where it sleeps. -/
def nextTurnStep (s : GatewayState) (t : Turn) : GatewayState × Task :=
  match t.point with
  | .sleeping frames =>
    if t.number ∈ s.aborted then (s, .ended)
    else
      match frames with
      | [] => (s, .turn { t with point := .finishing })
      | frame :: frames => (s, .turn { t with point := .awake frame frames })
  | .awake frame frames =>
    match s.nextSeqAndRecord t.sessionId ((typeOf frame).getD "") (payloadOf frame) with
    | none => (s, .ended)
    | some (s, seq) => (s, .turn { t with point := .recorded (rewrite frame t.sessionId seq) frames })
  | .recorded frame frames => (s.send t.channel frame, .turn { t with point := .sleeping frames })
  | .finishing =>
    match s.sessions.lookup t.sessionId with
    | some record => (s.setRecord t.sessionId { record with running := false, turnHandle := none }, .ended)
    | none => (s, .ended)

def next [JsonReader] [Lowercase] (s : GatewayState) (t : Task) (input : Input) :
    Option (GatewayState × Task × List Task) :=
  match t, input with
  | .http request, .go _ _ =>
    let (s, t) := s.routeHttp request
    some (s, t, [])
  | .minting request number, .go _ _ =>
    let (s, t) := s.keepTicket request number
    some (s, t, [])
  | .upgrade query, .go _ _ =>
    let (s, t) := s.acceptWs query
    some (s, t, [])
  | .greeting ticket channel, .sent delivered =>
    let (s, t) := s.sendOut { ticket := ticket, channel := channel, sent := 1 } s.readyFrame delivered
    some (s, t, [])
  | .connection c, input => s.nextConnection c input
  | .turn t, .go _ _ =>
    let (s, t) := s.nextTurnStep t
    some (s, t, [])
  | .delayed channel frame, .go _ _ => some (s.send channel frame, .ended, [])
  | _, _ => none

end GatewayState

/-- The process: requests and upgrades come in at any time. -/
def program [JsonReader] [Lowercase] : Program GatewayState Task Input Empty where
  next := GatewayState.next
  env _ e := e.elim
  entry _ t :=
    match t with
    | .http _ | .upgrade _ => true
    | _ => false

end FakeGateway

end Hermo
