import Hermo.Json

/-!
# Wire values shared by the codec, the transcript and the core

`EventParams` is the `params` object of an `event` frame (`protocol.rs`).  `EventKind` names the event types the
reducer knows; the source matches on the strings directly, `EventKind.parse` is that match.
-/

namespace Hermo

/-- `params` of a server `event` frame. -/
structure EventParams where
  eventType : String
  sessionId : String
  seq : Option Int
  payload : Value

/-- The event types `Reducer::apply` dispatches on. -/
inductive EventKind where
  | messageStart | messageDelta | messageInterim | messageComplete
  | thinkingDelta
  | toolGenerating | toolStart | toolProgress | toolComplete
  | statusUpdate | approvalRequest | clarifyRequest
  | sessionInfo | sessionTitle
  | error
  | unknown
  deriving DecidableEq, Repr

def EventKind.parse (eventType : String) : EventKind :=
  match eventType with
  | "message.start" => messageStart
  | "message.delta" => messageDelta
  | "message.interim" => messageInterim
  | "message.complete" => messageComplete
  | "thinking.delta" | "reasoning.delta" => thinkingDelta
  | "tool.generating" => toolGenerating
  | "tool.start" => toolStart
  | "tool.progress" => toolProgress
  | "tool.complete" => toolComplete
  | "status.update" => statusUpdate
  | "approval.request" => approvalRequest
  | "clarify.request" => clarifyRequest
  | "session.info" => sessionInfo
  | "session.title" => sessionTitle
  | "error" => error
  | _ => unknown

end Hermo
