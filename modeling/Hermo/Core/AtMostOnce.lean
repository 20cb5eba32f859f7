import Hermo.Core.TabOps
import Hermo.Transcript.Inert

/-!
# Events that arrive twice

The broadcast of a connection is subscribed before the gaps are filled, so a live frame and the replay of the same
event overlap.  The core compares the seq of an event with the watermark only to move the watermark: `route_event`
feeds every event to the reducer.  `at_most_once_iff` says what this means for a run, event by event: a stale event
is without effect exactly when the reducer ignores it anyway.
-/

namespace Hermo

namespace CoreState

/-- `ev` is routed to the open session of `key` and is not newer than its watermark. -/
def Stale (s : CoreState) (key : String) (live : LiveSession) (ev : EventParams) : Prop :=
  s.resolve ev.sessionId = some key ∧ (s.tab key).live = some live ∧
    ∃ seq, ev.seq = some seq ∧ seq ≤ live.lastSeenSeq

variable [Serializer]

/-- Delivering `ev` leaves the transcript of `key` as it is and sends nothing. -/
def Unmoved (s : CoreState) (key : String) (ev : EventParams) : Prop :=
  (s.act (.deliver ev)).1.transcriptOf key = s.transcriptOf key ∧ (s.act (.deliver ev)).2 = []

/-- Every stale event of a run is without effect. -/
def AtMostOnce (s : CoreState) (actions : List Action) : Prop :=
  ∀ before ev after, actions = before ++ .deliver ev :: after →
    ∀ key live, (s.run before).Stale key live ev → (s.run before).Unmoved key ev

/-- What a routed event sends. -/
private theorem act_deliver_dtos {s : CoreState} {key : String} {live : LiveSession} {ev : EventParams}
    (hr : s.resolve ev.sessionId = some key) (hl : (s.tab key).live = some live) :
    (s.act (.deliver ev)).2 = [] ↔ (live.reducer.handle (.parse ev.eventType) ev.payload).2 = [] := by
  have hlookup : s.sessions.lookup key = some live := hl
  have hid : ev.sessionId ≠ "" := by
    intro hempty
    rw [resolve, if_pos hempty] at hr
    cases hr
  change (s.deliverEvent ev).2 = [] ↔ _
  unfold deliverEvent routeEvent
  rw [hr]
  dsimp only
  rw [hlookup]
  dsimp only
  unfold changesToDtos LiveSession.applyEvent Reducer.apply
  rw [if_neg hid, List.map_eq_nil_iff]
  unfold Reducer.wrap
  rw [List.map_eq_nil_iff]

private theorem transcriptOf_deliver {s : CoreState} {key : String} {live : LiveSession} {ev : EventParams}
    (hr : s.resolve ev.sessionId = some key) (hl : (s.tab key).live = some live) :
    (s.act (.deliver ev)).1.transcriptOf key = some (live.reducer.apply ev).1.state := by
  unfold transcriptOf
  rw [tab_act, onTab, if_pos hr]
  change ((s.tab key).act key (.deliver ev)).1.live.map _ = _
  rw [Tab.live_act hl key rfl]
  rfl

/-- A routed event is without effect exactly when the reducer ignores it. -/
theorem unmoved_iff {s : CoreState} (hs : s.WellFormed) {key : String} {live : LiveSession} {ev : EventParams}
    (hr : s.resolve ev.sessionId = some key) (hl : (s.tab key).live = some live) :
    s.Unmoved key ev ↔ live.reducer.Inert ev.payload (.parse ev.eventType) := by
  rw [← Reducer.handle_inert_iff (hs key live hl)]
  unfold Unmoved
  rw [act_deliver_dtos hr hl, transcriptOf_deliver hr hl]
  constructor
  · exact fun h => h.2
  · intro h
    refine ⟨?_, h⟩
    have hsame := Reducer.handle_of_inert (Reducer.inert_of_handle (hs key live hl) h)
    have hstate : (live.reducer.apply ev).1.state = live.reducer.state := by
      unfold Reducer.apply
      split
      · rfl
      · rw [hsame]
    rw [hstate]
    unfold transcriptOf
    rw [hl]
    rfl

/-- Delivering an event does not change the routing. -/
theorem resolve_deliver (s : CoreState) (ev : EventParams) (sessionId : String) :
    (s.act (.deliver ev)).1.resolve sessionId = s.resolve sessionId := by
  change (s.deliverEvent ev).1.resolve sessionId = _
  unfold deliverEvent routeEvent
  cases s.resolve ev.sessionId with
  | none => rfl
  | some key =>
    dsimp only
    cases hl : s.sessions.lookup key with
    | none => rfl
    | some live =>
      have hmem : key ∈ s.sessions := AList.lookup_isSome.1 (by rw [hl]; rfl)
      have hinsert : ∀ k, k ∈ s.sessions.insert key (live.applyEvent ev).1 ↔ k ∈ s.sessions := by
        intro k
        rw [AList.mem_insert]
        constructor
        · rintro (rfl | h)
          · exact hmem
          · exact h
        · exact .inr
      simp only [resolve, setSession, hinsert]

/-- In every run from a start of the core, the stale events are without effect exactly when each of them is one that
the reducer ignores in the state it meets; and an event delivered twice in a row has the effect of one delivery
exactly when the reducer ignores it the second time. -/
theorem at_most_once_iff (registry : SessionRegistry) (actions : List Action) :
    let start := new registry
    (start.AtMostOnce actions ↔
      ∀ before ev after, actions = before ++ .deliver ev :: after →
        ∀ key live, (start.run before).Stale key live ev →
          live.reducer.Inert ev.payload (.parse ev.eventType)) ∧
    ∀ ev key live, (start.run actions).resolve ev.sessionId = some key →
      ((start.run actions).tab key).live = some live →
        (((start.run actions).act (.deliver ev)).1.Unmoved key ev ↔
          (live.applyEvent ev).1.reducer.Inert ev.payload (.parse ev.eventType)) := by
  intro start
  have hwf : ∀ before, (start.run before).WellFormed := fun before => (wellFormed_new registry).run before
  refine ⟨⟨?_, ?_⟩, ?_⟩
  · intro h before ev after heq key live hstale
    exact (unmoved_iff (hwf before) hstale.1 hstale.2.1).1 (h before ev after heq key live hstale)
  · intro h before ev after heq key live hstale
    exact (unmoved_iff (hwf before) hstale.1 hstale.2.1).2 (h before ev after heq key live hstale)
  · intro ev key live hr hl
    refine unmoved_iff ((hwf actions).act _) ?_ ?_
    · rw [resolve_deliver, hr]
    · rw [tab_act, onTab, if_pos hr]
      change (((start.run actions).tab key).act key (.deliver ev)).1.live = _
      rw [Tab.live_act hl key rfl]
      rfl

end CoreState

/-! ### A frame that overlaps its replay -/

section

attribute [local instance] Serializer.compact

private def openedChat : Action := .openSession (.created ⟨"live", "chat", ""⟩) none 80

private def delta : EventParams := ⟨"message.delta", "live", some 1, .object [("text", .string "ab")]⟩

/-- A delta that is replayed and then delivered live, under the same watermark, doubles its text. -/
theorem delta_applied_twice :
    let s := (CoreState.new {}).run [openedChat, .deliver delta]
    (∃ live, s.Stale "chat" live delta) ∧ ¬ s.Unmoved "chat" delta ∧
      (s.run [.deliver delta]).rowsOf "chat" = [⟨0, .assistant "abab" true "" ""⟩] := by
  intro s
  have hrows : (s.run [.deliver delta]).rowsOf "chat" = [⟨0, .assistant "abab" true "" ""⟩] := by decide
  refine ⟨⟨_, by decide, rfl, 1, rfl, by decide⟩, ?_, hrows⟩
  intro h
  have htranscript : (s.act (.deliver delta)).1.transcriptOf "chat" = s.transcriptOf "chat" := h.1
  exact absurd htranscript (by decide)

end

end Hermo
