import Mathlib.Data.List.AList
import Hermo.Rpc.Frames
import Hermo.Rpc.Pending

/-!
# A client on the wire

`spawn_reader` as it is: the server sends text frames, the reader handles the lines of a frame one by one, and the
parties run between any two of them.  The pending map is keyed by the texts of the ids.  A line that answers a call is
the step `result` or `error` of the client in `Hermo.Rpc.Client`; an event goes to the broadcast channel.
-/

namespace Hermo.Rpc

open Run Tasks

/-- The id of a call, `format!("r{}", n)`. -/
def callId (n : Nat) : String := "r" ++ n.repr

/-- The id of a ping of the heartbeat. -/
def heartbeatId (n : Nat) : String := "heartbeat-" ++ n.repr

structure Wire where
  client : System
  /-- The lines of the last frame that the reader has not handled yet. -/
  unread : List String
  /-- What was sent on the broadcast channel. -/
  broadcast : List EventParams
  /-- The seq watermarks. -/
  lastSeq : AList (fun _ : String => Int)

inductive WireLabel where
  /-- A step of a party, and the end of the stream. -/
  | client (l : Label)
  /-- The server's next text frame. -/
  | frame (reader : Nat) (text : String)
  /-- The reader handles the next line. -/
  | line (reader : Nat)

/-- The reader gets these from a line. -/
def Input.fromLine : Input → Bool
  | .ready | .result _ _ | .error _ _ _ => true
  | _ => false

/-- The reader sees the end of the stream only behind the last line. -/
def Input.endsStream : Input → Bool
  | .closeFrame _ | .lost => true
  | _ => false

/-- `record_seq`. -/
def recordSeq (lastSeq : AList (fun _ : String => Int)) (ev : EventParams) : AList (fun _ : String => Int) :=
  match ev.seq with
  | none => lastSeq
  | some seq =>
    if ev.sessionId = "" then lastSeq
    else
      let slot := (lastSeq.lookup ev.sessionId).getD 0
      lastSeq.insert ev.sessionId (if slot < seq then seq else slot)

/-- The call under an id in the pending map. -/
def Shared.find (s : Shared) (id : String) : Option Nat := s.pending.find? fun n => callId n == id

namespace Decoded

/-- A response, with its id and what it answers. -/
def response : Decoded → Option (String × Outcome)
  | .result id value => some (id, .ok value)
  | .error id err => some (id, .error (.rpc err.code err.message))
  | _ => none

def event? : Decoded → Option EventParams
  | .event params => some params
  | _ => none

/-- What a line is to the client. -/
def input (s : Shared) : Decoded → Option Input
  | .result id value => (s.find id).map fun n => .result n value
  | .error id err => (s.find id).map fun n => .error n err.code err.message
  | .event params => if params.eventType = "gateway.ready" then some .ready else none
  | .ignored => none

end Decoded

section

variable [JsonReader]

def responseOf (line : String) : Option (String × Outcome) := (decode line).bind Decoded.response

def eventOf (line : String) : Option EventParams := (decode line).bind Decoded.event?

namespace Wire

/-- The reader handles one line. -/
def handle (s : Wire) (reader : Nat) (line : String) : Option Wire :=
  match decode line with
  | none => some s
  | some decoded =>
    let s := match decoded.event? with
      | some ev => { s with broadcast := s.broadcast ++ [ev], lastSeq := recordSeq s.lastSeq ev }
      | none => s
    match decoded.input s.client.shared with
    | none => some s
    | some input => (program.step s.client (.task reader input)).map fun client => { s with client := client }

def step (s : Wire) : WireLabel → Option Wire
  | .client (.task i input) =>
    if input.fromLine || (input.endsStream && !s.unread.isEmpty) then none
    else (program.step s.client (.task i input)).map fun client => { s with client := client }
  | .client l => (program.step s.client l).map fun client => { s with client := client }
  | .frame reader text =>
    match s.client.tasks[reader]?, s.unread with
    | some (.reader .reading), [] => some { s with unread := splitLines text }
    | _, _ => none
  | .line reader =>
    match s.client.tasks[reader]?, s.unread with
    | some (.reader .reading), line :: rest => { s with unread := rest }.handle reader line
    | _, _ => none

/-- A client whose socket is open. -/
def start : Wire := ⟨Rpc.start, [], [], ∅⟩

end Wire

end

end Hermo.Rpc
