import Hermo.Core.State

/-!
# Actions

An `Action` is one lock section of the core with the data it closes over: the results of the RPC before it, and what
its task captured earlier.  A run of the core is a list of actions, whichever tasks they belong to.
-/

namespace Hermo

inductive Action where
  /-- `deliver_event`, for a live frame, a replayed one or the synthetic `session.title`. -/
  | deliver (ev : EventParams)
  | openSession (reply : OpenReply) (profile : Option String) (cols : Int)
  | closeSession (key : String)
  | clearSessions
  | forgetGateway
  | rebuildSession (key : String) (messages : List Value) (replayEpoch : Option String)
  | repointLiveSid (key newLiveSid : String)
  | touch (key : String) (seq : Int) (epoch : String)
  | reemitCard (key : String) (card : Value)
  /-- The append of `send` and `submit_slash_message`, guarded by the captured epoch. -/
  | appendUserRow (key text : String) (historyEpoch : UInt64)
  | respondApproval (key requestId : String)
  | respondClarify (key requestId : String)

namespace Action

/-- The action draws a new history epoch. -/
def draws : Action → Bool
  | .openSession _ _ _ | .rebuildSession _ _ _ => true
  | _ => false

/-- The action opens or rebuilds the session of `key`. -/
def installs (key : String) : Action → Bool
  | .openSession reply _ _ => reply.key == key
  | .rebuildSession key' _ _ => key' == key
  | _ => false

/-- The action opens, rebuilds or removes the session of `key`. -/
def replaces (key : String) : Action → Bool
  | .openSession reply _ _ => reply.key == key
  | .rebuildSession key' _ _ => key' == key
  | .closeSession key' => key' == key
  | .clearSessions | .forgetGateway => true
  | _ => false

/-- The action opens the session of `key`. -/
def opens (key : String) : Action → Bool
  | .openSession reply _ _ => reply.key == key
  | _ => false

/-- The action closes the session of `key`. -/
def closes (key : String) : Action → Bool
  | .closeSession key' => key' == key
  | .clearSessions | .forgetGateway => true
  | _ => false

end Action

namespace CoreState

variable [Serializer]

/-- Run one lock section. -/
def act (s : CoreState) : Action → CoreState × List TranscriptChangeDto
  | .deliver ev => s.deliverEvent ev
  | .openSession reply profile cols => s.openSession reply profile cols
  | .closeSession key => (s.closeSession key, [])
  | .clearSessions | .forgetGateway => (s.clearSessions, [])
  | .rebuildSession key messages replayEpoch => s.rebuildSession key messages replayEpoch
  | .repointLiveSid key newLiveSid => (s.repointLiveSid key newLiveSid, [])
  | .touch key seq epoch => (s.touch key seq epoch, [])
  | .reemitCard key card => s.reemitCard key card
  | .appendUserRow key text historyEpoch => s.appendUserRow key text historyEpoch
  | .respondApproval key requestId => s.respondApproval key requestId
  | .respondClarify key requestId => s.respondClarify key requestId

/-- Run a list of lock sections. -/
def run (s : CoreState) (actions : List Action) : CoreState := actions.foldl (fun s a => (s.act a).1) s

@[simp] theorem run_nil (s : CoreState) : s.run [] = s := rfl

@[simp] theorem run_cons (s : CoreState) (a : Action) (actions : List Action) :
    s.run (a :: actions) = (s.act a).1.run actions := rfl

theorem run_append (s : CoreState) (as bs : List Action) : s.run (as ++ bs) = (s.run as).run bs :=
  List.foldl_append

end CoreState

end Hermo
