import Hermo.Json
import Hermo.Library.Tasks

/-!
# The tasks of a gateway client

`connect`, the reader, the writer, the heartbeat and any number of `close` and `call_with_timeout` share the published
state, the pending map and the outbound queue of one `GatewayClient`.  A task stands at its next access of what is
shared, or at an await.  The frames of the server, the clock and the results of the sends are inputs; a frame that
changes nothing here is left out.
-/

namespace Hermo.Rpc

/-- `UNGRACEFUL_CLOSE_REASON`. -/
def ungracefulCloseReason : String := "heartbeat timeout"

inductive ConnectionState where
  | idle | connecting | open
  | closed (reason : String)
  deriving DecidableEq, Repr

inductive ClientError where
  | closed (reason : String)
  | timeout
  | rpc (code : Int) (detail : String)
  deriving DecidableEq, Repr

abbrev Outcome := Except ClientError Value

structure CloseFrame where
  code : Nat
  reason : String
  deriving DecidableEq, Repr

/-- The reason of a negotiated close: the text of the frame, or its code when there is no text. -/
def serverCloseReason : Option CloseFrame → String
  | some f => if f.reason = "" then "closed by server (code " ++ toString f.code ++ ")" else f.reason
  | none => "closed by server"

inductive Outbound where
  | line (id : Nat)
  /-- A line of the heartbeat, which nobody waits for. -/
  | ping
  | closeNow (reason : String)
  deriving DecidableEq, Repr

structure Shared where
  state : ConnectionState := .connecting
  /-- `close_lock` is held. -/
  closeLock : Bool := false
  /-- The numbers in the ids of the pending calls. -/
  pending : List Nat := []
  /-- What was sent to a call. -/
  answers : Nat → Option Outcome := fun _ => none
  nextId : Nat := 1
  outbound : List Outbound := []
  /-- The reader aborted the writer. -/
  aborted : Bool := false
  /-- The writer ended, and dropped the queue. -/
  writerGone : Bool := false
  /-- `gateway.ready` waits in the subscription of `connect`. -/
  ready : Bool := false
  /-- `connect` has returned the client. -/
  connected : Bool := false

namespace Shared

def failPending (s : Shared) (err : ClientError) : Shared :=
  { s with pending := [], answers := fun id => if id ∈ s.pending then some (.error err) else s.answers id }

/-- `pending.remove`. -/
def remove (s : Shared) (id : Nat) : Shared := { s with pending := s.pending.filter (· != id) }

/-- A response: its call leaves the map and is answered. -/
def resolve (s : Shared) (id : Nat) (outcome : Outcome) : Shared :=
  if id ∈ s.pending then
    { s.remove id with answers := fun i => if i = id then some outcome else s.answers i }
  else s

/-- `outbound_tx.send`. -/
def send (s : Shared) (msg : Outbound) : Shared :=
  if s.writerGone then s else { s with outbound := s.outbound ++ [msg] }

end Shared

/-- A close: `close_terminal`, which takes the lock and then publishes, `fail_pending`, and a last act. -/
inductive Closing where
  | check | publish | drain | finish | over
  deriving DecidableEq, Repr

/-- `lost` is where a closer goes on that finds the state closed. -/
def Closing.next (c : Closing) (reason : String) (lost : Closing) (finish : Shared → Shared) (s : Shared) :
    Option (Shared × Closing) :=
  match c with
  | .check =>
    if s.closeLock then none
    else match s.state with
      | .closed _ => some (s, lost)
      | _ => some ({ s with closeLock := true }, .publish)
  | .publish => some ({ s with state := .closed reason, closeLock := false }, .drain)
  | .drain => some (s.failPending (.closed reason), .finish)
  | .finish => some (finish s, .over)
  | .over => none

/-- `shutdown`; the heartbeat does the same. -/
def shutdown (reason : String) (s : Shared) (c : Closing) : Option (Shared × Closing) :=
  c.next reason .drain (fun s => s.send (.closeNow reason)) s

inductive ConnectPoint where
  | waiting
  /-- Before `mark_open`. -/
  | opening
  | opened
  | closing (c : Closing)
  | returned
  deriving DecidableEq, Repr

inductive ReaderPoint where
  | reading
  | closing (reason : String) (c : Closing)
  deriving DecidableEq, Repr

inductive WriterPoint where
  | receiving
  | sending (msg : Outbound)
  | closing (c : Closing)
  deriving DecidableEq, Repr

inductive HeartbeatPoint where
  | sleeping | judging
  | closing (c : Closing)
  | ended
  deriving DecidableEq, Repr

inductive CallPoint where
  | checking | numbering
  | inserting (id : Nat)
  | queueing (id : Nat)
  /-- The line could not be queued. -/
  | withdrawing (id : Nat)
  | waiting (id : Nat)
  | expiring (id : Nat)
  | returned (outcome : Outcome)

inductive Task where
  | connect (point : ConnectPoint)
  | reader (point : ReaderPoint)
  | writer (point : WriterPoint)
  | heartbeat (point : HeartbeatPoint)
  | close (reason : String) (c : Closing)
  | call (point : CallPoint)

inductive Input where
  | run
  | timeout
  /-- The frames of the server, and every other end of the stream. -/
  | ready
  | result (id : Nat) (value : Value)
  | error (id : Nat) (code : Int) (detail : String)
  | closeFrame (frame : Option CloseFrame)
  | lost
  /-- The send of the writer succeeded, failed, or was cut off by the abort. -/
  | sent | failed | abort
  /-- No frame arrived for the deadline of the heartbeat. -/
  | silent

/-- `GatewayClient::connect` behind the spawn of the reader; it spawns the heartbeat. -/
def ConnectPoint.next (s : Shared) : ConnectPoint → Input → Option (Shared × ConnectPoint × List Task)
  | .waiting, .run => if s.ready then some ({ s with ready := false }, .opening, []) else none
  | .waiting, .timeout => some (s, .closing .check, [])
  | .opening, .run => some ({ s with state := .open }, .opened, [])
  | .opened, .run => some ({ s with connected := true }, .returned, [.heartbeat .sleeping])
  | .closing c, .run => (shutdown "gateway.ready not received" s c).map fun (s', c') => (s', .closing c', [])
  | _, _ => none

/-- `spawn_reader`. -/
def ReaderPoint.next (s : Shared) : ReaderPoint → Input → Option (Shared × ReaderPoint)
  | .reading, .ready => some ({ s with ready := true }, .reading)
  | .reading, .result id value => some (s.resolve id (.ok value), .reading)
  | .reading, .error id code detail => some (s.resolve id (.error (.rpc code detail)), .reading)
  | .reading, .closeFrame frame => some (s, .closing (serverCloseReason frame) .check)
  | .reading, .lost => some (s, .closing ungracefulCloseReason .check)
  | .closing reason c, .run =>
    (c.next reason .drain (fun s => { s with aborted := true }) s).map fun (s', c') => (s', .closing reason c')
  | _, _ => none

/-- `spawn_writer`; an abort takes effect at its awaits. -/
def WriterPoint.next (s : Shared) : WriterPoint → Input → Option (Shared × WriterPoint)
  | .receiving, .run =>
    match s.outbound with
    | [] => none
    | msg :: rest => some ({ s with outbound := rest }, .sending msg)
  | .sending msg, .sent =>
    match msg with
    | .closeNow _ => some (s, .closing .finish)
    | _ => some (s, .receiving)
  | .sending msg, .failed =>
    match msg with
    | .closeNow _ => some (s, .closing .finish)
    | _ => some (s, .closing .check)
  | .receiving, .abort | .sending _, .abort => if s.aborted then some (s, .closing .finish) else none
  | .closing c, .run =>
    -- only the closer that won drains
    (c.next ungracefulCloseReason .finish (fun s => { s with writerGone := true }) s).map
      fun (s', c') => (s', .closing c')
  | _, _ => none

/-- `spawn_heartbeat`. -/
def HeartbeatPoint.next (s : Shared) : HeartbeatPoint → Input → Option (Shared × HeartbeatPoint)
  | .sleeping, .run =>
    match s.state with
    | .closed _ => some (s, .ended)
    | _ => some (s, .judging)
  | .judging, .silent => some (s, .closing .check)
  | .judging, .run => some (s.send .ping, .sleeping)
  | .closing c, .run => (shutdown ungracefulCloseReason s c).map fun (s', c') => (s', .closing c')
  | _, _ => none

/-- `call_with_timeout`.  Nobody drops the sender of a call without an answer, so `connection lost` does not occur;
its timer is looked at after its channel. -/
def CallPoint.next (s : Shared) : CallPoint → Input → Option (Shared × CallPoint)
  | .checking, .run =>
    match s.state with
    | .closed reason => some (s, .returned (.error (.closed reason)))
    | _ => some (s, .numbering)
  | .numbering, .run => some ({ s with nextId := s.nextId + 1 }, .inserting s.nextId)
  | .inserting id, .run => some ({ s with pending := s.pending.insert id }, .queueing id)
  | .queueing id, .run =>
    if s.writerGone then some (s, .withdrawing id) else some (s.send (.line id), .waiting id)
  | .withdrawing id, .run => some (s.remove id, .returned (.error (.closed "writer task gone")))
  | .waiting id, .run => (s.answers id).map fun outcome => (s, .returned outcome)
  | .waiting id, .timeout =>
    match s.answers id with
    | some _ => none
    | none => some (s, .expiring id)
  | .expiring id, .run => some (s.remove id, .returned (.error .timeout))
  | _, _ => none

def Task.next (s : Shared) : Task → Input → Option (Shared × Task × List Task)
  | .connect point, input => (point.next s input).map fun (s', point', spawns) => (s', .connect point', spawns)
  | .reader point, input => (point.next s input).map fun (s', point') => (s', .reader point', [])
  | .writer point, input => (point.next s input).map fun (s', point') => (s', .writer point', [])
  | .heartbeat point, input => (point.next s input).map fun (s', point') => (s', .heartbeat point', [])
  | .close reason c, .run => (shutdown reason s c).map fun (s', c') => (s', .close reason c', [])
  | .close _ _, _ => none
  | .call point, input => (point.next s input).map fun (s', point') => (s', .call point', [])

/-- A call of the app: `close` or a request. -/
def Task.isCall : Task → Bool
  | .close _ .check | .call .checking => true
  | _ => false

/-- A client with its tasks; nobody can call it before `connect` returned it. -/
def program : Tasks.Program Shared Task Input Empty :=
  ⟨Task.next, fun _ e => e.elim, fun s t => s.connected && t.isCall⟩

abbrev System := Tasks.System Shared Task

abbrev Label := Tasks.Label Task Input Empty

/-- The socket is open, and `connect` waits for `gateway.ready`. -/
def start : System := ⟨{}, [.connect .waiting, .reader .reading, .writer .receiving]⟩

end Hermo.Rpc
