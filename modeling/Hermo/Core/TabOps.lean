import Hermo.Core.Tab
import Hermo.Transcript.ChangeStream

/-!
# The reducer operation behind a tab action

Opening and closing replace what is under a key.  Every other tab action performs at most one operation of the
reducer, `Tab.op`, and `live_act` and `dtos_act` describe the live session and the changes sent in terms of it.
`record_act` does the same for the record of the registry.
-/

namespace Hermo

namespace TabAction

/-- The live sid after an action that keeps the session. -/
def liveSid (a : TabAction) (old : String) : String :=
  match a with
  | .repointLiveSid newLiveSid => newLiveSid
  | _ => old

/-- The watermark of the live session after an action that keeps it. -/
def watermark (a : TabAction) (old : Int) : Int :=
  match a with
  | .deliver ev =>
    match ev.seq with
    | some seq => if old < seq then seq else old
    | none => old
  | .rebuildSession _ _ _ => 0
  | _ => old

/-- The history epoch of the live session after an action that keeps it. -/
def historyEpoch (a : TabAction) (old : UInt64) : UInt64 :=
  match a with
  | .rebuildSession _ _ historyEpoch => historyEpoch
  | _ => old

/-- The watermark of the record after an action that keeps the session. -/
def recordSeq (a : TabAction) (old : Int) : Int :=
  match a with
  | .touch seq _ => if old < seq then seq else old
  | _ => a.watermark old

/-- The replay epoch of the record after an action that keeps the session. -/
def recordEpoch (a : TabAction) (old : String) : String :=
  match a with
  | .touch _ epoch => if epoch = "" then old else epoch
  | .rebuildSession _ replayEpoch _ => replayEpoch.getD old
  | _ => old

/-- Opening and closing replace the session. -/
def keeps : TabAction → Bool
  | .openSession _ _ _ _ | .close => false
  | _ => true

theorem recordSeq_unsequenced {ev : EventParams} (h : ev.seq = none) (old : Int) :
    (deliver ev).recordSeq old = old := by
  simp [recordSeq, watermark, h]

theorem recordSeq_sequenced {ev : EventParams} {seq : Int} (h : ev.seq = some seq) (old : Int) :
    (deliver ev).recordSeq old = if old < seq then seq else old := by
  simp [recordSeq, watermark, h]

theorem recordSeq_touch (seq : Int) (epoch : String) (old : Int) :
    (touch seq epoch).recordSeq old = if old < seq then seq else old := rfl

end TabAction

namespace Tab

/-- The reducer operation of an action on a live session. -/
def op (t : Tab) (live : LiveSession) (key : String) : TabAction → Option Op
  | .deliver ev => some (.apply ev)
  | .rebuildSession messages _ _ => some (.ingestResumeMessages key messages)
  | .reemitCard card =>
    let requestId := card.strAt "request_id"
    if requestId = "" ∨ t.emitted.contains requestId ∨ live.reducer.hasUnresolvedApproval requestId then none
    else some (.applyApprovalCard key requestId card)
  | .appendUserRow text historyEpoch =>
    if live.historyEpoch = historyEpoch then some (.appendUserRow key text) else none
  | .respondApproval requestId => some (.resolveApproval key requestId)
  | .respondClarify requestId => some (.resolveClarify key requestId)
  | .openSession _ _ _ _ | .close | .repointLiveSid _ | .touch _ _ => none

/-- Only a rebuild replaces the transcript of a session that is kept. -/
theorem op_replaces {t : Tab} {live : LiveSession} {key : String} {a : TabAction} {o : Op}
    (hr : ∀ messages replayEpoch historyEpoch, a ≠ .rebuildSession messages replayEpoch historyEpoch)
    (h : t.op live key a = some o) : o.replaces = false := by
  cases a <;> simp only [op, Option.some.injEq, reduceCtorEq, Option.ite_none_left_eq_some,
    Option.ite_none_right_eq_some] at h
  case rebuildSession => exact absurd rfl (hr _ _ _)
  case reemitCard =>
    obtain ⟨-, rfl⟩ := h
    rfl
  case appendUserRow =>
    obtain ⟨-, rfl⟩ := h
    rfl
  all_goals
    subst h
    rfl

end Tab

/-- The reducer of a session that is opened is the one its history would rebuild. -/
theorem openReducer_eq (reply : OpenReply) :
    (openReducer reply).1 = (Reducer.ingestResumeMessages {} reply.key reply.messages).1 := by
  unfold openReducer
  split
  · rename_i h
    rw [h]
    rfl
  · rfl

namespace CoreState

theorem onTab_open {s : CoreState} {key : String} {a : Action} {reply : OpenReply} {profile : Option String}
    {cols : Int} {historyEpoch : UInt64} (h : s.onTab key a = some (.openSession reply profile cols historyEpoch)) :
    a = .openSession reply profile cols ∧ reply.key = key := by
  cases a <;> simp only [onTab, Option.ite_none_right_eq_some, Option.some.injEq, reduceCtorEq, and_false,
    TabAction.openSession.injEq] at h
  obtain ⟨h, rfl, rfl, rfl, -⟩ := h
  exact ⟨rfl, h⟩

theorem onTab_deliver {s : CoreState} {key : String} {a : Action} {ev : EventParams}
    (h : s.onTab key a = some (.deliver ev)) : a = .deliver ev ∧ s.resolve ev.sessionId = some key := by
  cases a <;> simp only [onTab, Option.ite_none_right_eq_some, Option.some.injEq, reduceCtorEq, and_false,
    TabAction.deliver.injEq] at h
  obtain ⟨hres, rfl⟩ := h
  exact ⟨rfl, hres⟩

theorem onTab_touch {s : CoreState} {key : String} {a : Action} {seq : Int} {epoch : String}
    (h : s.onTab key a = some (.touch seq epoch)) : a = .touch key seq epoch := by
  cases a <;> simp only [onTab, Option.ite_none_right_eq_some, Option.some.injEq, reduceCtorEq, and_false,
    TabAction.touch.injEq] at h
  obtain ⟨rfl, rfl, rfl⟩ := h
  rfl

theorem onTab_rebuild {s : CoreState} {key : String} {a : Action} {messages : List Value}
    {replayEpoch : Option String} {historyEpoch : UInt64}
    (h : s.onTab key a = some (.rebuildSession messages replayEpoch historyEpoch)) :
    a = .rebuildSession key messages replayEpoch := by
  cases a <;> simp only [onTab, Option.ite_none_right_eq_some, Option.some.injEq, reduceCtorEq, and_false,
    TabAction.rebuildSession.injEq] at h
  obtain ⟨rfl, rfl, rfl, -⟩ := h
  rfl

theorem onTab_reemitCard {s : CoreState} {key : String} {a : Action} {card : Value}
    (h : s.onTab key a = some (.reemitCard card)) : a = .reemitCard key card := by
  cases a <;> simp only [onTab, Option.ite_none_right_eq_some, Option.some.injEq, reduceCtorEq, and_false,
    TabAction.reemitCard.injEq] at h
  obtain ⟨rfl, rfl⟩ := h
  rfl

theorem onTab_respondApproval {s : CoreState} {key : String} {a : Action} {requestId : String}
    (h : s.onTab key a = some (.respondApproval requestId)) : a = .respondApproval key requestId := by
  cases a <;> simp only [onTab, Option.ite_none_right_eq_some, Option.some.injEq, reduceCtorEq, and_false,
    TabAction.respondApproval.injEq] at h
  obtain ⟨rfl, rfl⟩ := h
  rfl

theorem onTab_respondClarify {s : CoreState} {key : String} {a : Action} {requestId : String}
    (h : s.onTab key a = some (.respondClarify requestId)) : a = .respondClarify key requestId := by
  cases a <;> simp only [onTab, Option.ite_none_right_eq_some, Option.some.injEq, reduceCtorEq, and_false,
    TabAction.respondClarify.injEq] at h
  obtain ⟨rfl, rfl⟩ := h
  rfl

/-- What an action that does not replace the session does to its tab. -/
theorem onTab_kept {s : CoreState} {key : String} {a : Action} {b : TabAction}
    (h : a.replaces key = false) (hon : s.onTab key a = some b) :
    b.keeps = true ∧ ∀ messages replayEpoch historyEpoch, b ≠ .rebuildSession messages replayEpoch historyEpoch := by
  cases a <;> simp only [onTab, Option.ite_none_right_eq_some, Option.some.injEq] at hon
  case clearSessions => cases h
  case forgetGateway => cases h
  all_goals obtain ⟨hk, rfl⟩ := hon
  case openSession => simp [Action.replaces, hk] at h
  case closeSession => simp [Action.replaces, hk] at h
  case rebuildSession => simp [Action.replaces, hk] at h
  all_goals exact ⟨rfl, fun _ _ _ => by simp⟩

end CoreState

/-! ### Well-formed reducers -/

namespace Tab

/-- The reducer under a key, if there is one, is well formed. -/
def WellFormed (t : Tab) : Prop := ∀ live, t.live = some live → live.reducer.WellFormed

theorem wellFormed_empty : WellFormed {} := by
  intro live h
  cases h

theorem openReducer_wellFormed (reply : OpenReply) : (openReducer reply).1.WellFormed := by
  unfold openReducer
  split
  · exact Reducer.wellFormed_empty
  · exact Reducer.ingestResumeMessages_wellFormed _ _ _

end Tab

namespace CoreState

/-- Every reducer of the core is well formed. -/
def WellFormed (s : CoreState) : Prop := ∀ key, (s.tab key).WellFormed

theorem wellFormed_new (registry : SessionRegistry) : (new registry).WellFormed := by
  intro key live h
  cases h

end CoreState

/-! ### What an action does to the live session -/

section

variable [Serializer]

/-- Run an operation, if there is one. -/
def Reducer.performOption (r : Reducer) : Option Op → Reducer × List SessionChange
  | none => (r, [])
  | some o => r.perform o

namespace Tab

/-- Without a live session nothing is sent and nothing comes alive. -/
theorem act_none {t : Tab} (h : t.live = none) (key : String) {a : TabAction} (ha : a.keeps) :
    (t.act key a).1.live = none ∧ (t.act key a).2 = [] := by
  cases a with
  | deliver ev => simp [act, h]
  | openSession => cases ha
  | close => cases ha
  | rebuildSession => simp [act, h]
  | repointLiveSid => simp [act, h]
  | touch => simp [act, h]
  | reemitCard card =>
    unfold act reemitCard
    dsimp only
    split
    · exact ⟨h, rfl⟩
    · split
      · exact ⟨h, rfl⟩
      · rw [h]
        exact ⟨h, rfl⟩
  | appendUserRow => simp [act, h]
  | respondApproval => simp [act, editReducer, h]
  | respondClarify => simp [act, editReducer, h]

/-- The cases of a re-emitted card, once: nothing, or the operation of the reducer. -/
private theorem reemitCard_some {t : Tab} {live : LiveSession} (h : t.live = some live) (key : String)
    (card : Value) :
    (t.reemitCard key card).1.live =
        some { live with reducer := (live.reducer.performOption (t.op live key (.reemitCard card))).1 } ∧
      (t.reemitCard key card).2 =
        changesToDtos key (live.reducer.performOption (t.op live key (.reemitCard card))).2
          (live.reducer.performOption (t.op live key (.reemitCard card))).1.state.rows "" := by
  unfold reemitCard op
  dsimp only
  by_cases h1 : card.strAt "request_id" = ""
  · rw [if_pos h1, if_pos (.inl h1)]
    exact ⟨h, rfl⟩
  · rw [if_neg h1]
    by_cases h2 : t.emitted.contains (card.strAt "request_id")
    · rw [if_pos h2, if_pos (.inr (.inl h2))]
      exact ⟨h, rfl⟩
    · rw [if_neg h2, h]
      dsimp only
      by_cases h3 : live.reducer.hasUnresolvedApproval (card.strAt "request_id")
      · rw [if_pos h3, if_pos (.inr (.inr h3))]
        exact ⟨h, rfl⟩
      · rw [if_neg h3, if_neg (not_or.2 ⟨h1, not_or.2 ⟨h2, h3⟩⟩)]
        unfold Reducer.performOption Reducer.perform
        dsimp only
        generalize live.reducer.applyApprovalCard key (card.strAt "request_id") card = result
        obtain ⟨reducer, emitted⟩ := result
        rcases emitted with _ | _ | ⟨c, cs⟩
        · exact ⟨rfl, rfl⟩
        · exact ⟨rfl, rfl⟩
        · exact ⟨rfl, rfl⟩

/-- The live session after an action that keeps it. -/
theorem live_act {t : Tab} {live : LiveSession} (h : t.live = some live) (key : String) {a : TabAction}
    (ha : a.keeps) :
    (t.act key a).1.live =
      some ⟨a.liveSid live.liveSid, (live.reducer.performOption (t.op live key a)).1, a.watermark live.lastSeenSeq,
        a.historyEpoch live.historyEpoch⟩ := by
  cases a with
  | deliver ev =>
    unfold act
    rw [h]
    rfl
  | openSession => cases ha
  | close => cases ha
  | rebuildSession =>
    unfold act
    rw [h]
    rfl
  | repointLiveSid =>
    unfold act
    dsimp only
    rw [h]
    rfl
  | touch => exact h
  | reemitCard card => exact (reemitCard_some h key card).1
  | appendUserRow text historyEpoch =>
    unfold act op
    rw [h]
    dsimp only
    split
    · unfold editReducer
      rw [h]
      rfl
    · exact h
  | respondApproval =>
    unfold act editReducer
    rw [h]
    rfl
  | respondClarify =>
    unfold act editReducer
    rw [h]
    rfl

/-- The changes sent by an action that keeps the session. -/
theorem dtos_act {t : Tab} {live : LiveSession} (h : t.live = some live) (key : String) {a : TabAction}
    (ha : a.keeps) :
    ∃ title, (t.act key a).2 = changesToDtos key (live.reducer.performOption (t.op live key a)).2
      (live.reducer.performOption (t.op live key a)).1.state.rows title := by
  cases a with
  | deliver ev =>
    unfold act
    rw [h]
    exact ⟨_, rfl⟩
  | openSession => cases ha
  | close => cases ha
  | rebuildSession =>
    unfold act
    rw [h]
    exact ⟨"", rfl⟩
  | repointLiveSid => exact ⟨"", rfl⟩
  | touch => exact ⟨"", rfl⟩
  | reemitCard card => exact ⟨"", (reemitCard_some h key card).2⟩
  | appendUserRow text historyEpoch =>
    unfold act op
    rw [h]
    dsimp only
    split
    · unfold editReducer
      rw [h]
      exact ⟨"", rfl⟩
    · exact ⟨"", rfl⟩
  | respondApproval =>
    unfold act editReducer
    rw [h]
    exact ⟨"", rfl⟩
  | respondClarify =>
    unfold act editReducer
    rw [h]
    exact ⟨"", rfl⟩

theorem editReducer_record (t : Tab) (key : String) (edit : Reducer → Reducer × List SessionChange) :
    (t.editReducer key edit).1.record = t.record := by
  unfold editReducer
  split <;> rfl

theorem reemitCard_record (t : Tab) (key : String) (card : Value) :
    (t.reemitCard key card).1.record = t.record := by
  unfold reemitCard
  dsimp only
  split
  · rfl
  · split
    · rfl
    · split
      · rfl
      · split
        · rfl
        · split <;> rfl

/-- The record after an action that keeps the session. -/
theorem record_act {t : Tab} {live : LiveSession} (h : t.live = some live) (key : String) {a : TabAction}
    (ha : a.keeps) :
    ∃ f : SessionRecord → SessionRecord, (t.act key a).1.record = t.record.map f ∧
      ∀ r, (f r).lastSeenSeq = a.recordSeq r.lastSeenSeq ∧ (f r).replayEpoch = a.recordEpoch r.replayEpoch := by
  cases a with
  | deliver ev =>
    refine ⟨deliverRecord ev (live.applyEvent ev).2 (live.applyEvent ev).1.reducer.state.header.title, ?_, ?_⟩
    · unfold act
      rw [h]
    · intro r
      unfold deliverRecord TabAction.recordSeq TabAction.recordEpoch TabAction.watermark SessionRegistry.touchRecord
      dsimp only
      cases ev.seq with
      | none => split <;> exact ⟨rfl, rfl⟩
      | some seq => split <;> exact ⟨rfl, rfl⟩
  | openSession => cases ha
  | close => cases ha
  | rebuildSession messages replayEpoch historyEpoch =>
    refine ⟨fun r => { r with lastSeenSeq := 0, replayEpoch := replayEpoch.getD r.replayEpoch }, ?_, ?_⟩
    · unfold act
      rw [h]
    · exact fun r => ⟨rfl, rfl⟩
  | repointLiveSid => exact ⟨id, by simp [act], fun r => ⟨rfl, rfl⟩⟩
  | touch seq epoch => exact ⟨SessionRegistry.touchRecord seq epoch, rfl, fun r => ⟨rfl, rfl⟩⟩
  | reemitCard card =>
    refine ⟨id, ?_, fun r => ⟨rfl, rfl⟩⟩
    rw [Option.map_id_fun, id]
    exact reemitCard_record t key card
  | appendUserRow text historyEpoch =>
    refine ⟨id, ?_, fun r => ⟨rfl, rfl⟩⟩
    rw [Option.map_id_fun, id]
    unfold act
    rw [h]
    dsimp only
    split
    · exact editReducer_record t key _
    · rfl
  | respondApproval =>
    refine ⟨id, ?_, fun r => ⟨rfl, rfl⟩⟩
    rw [Option.map_id_fun, id]
    exact editReducer_record t key _
  | respondClarify =>
    refine ⟨id, ?_, fun r => ⟨rfl, rfl⟩⟩
    rw [Option.map_id_fun, id]
    exact editReducer_record t key _

/-! ### The reducers stay well formed -/

theorem performOption_wellFormed {r : Reducer} (h : r.WellFormed) (o : Option Op) :
    (r.performOption o).1.WellFormed := by
  cases o with
  | none => exact h
  | some o => exact Reducer.perform_wellFormed h o

theorem WellFormed.act {t : Tab} (h : t.WellFormed) (key : String) (a : TabAction) :
    (t.act key a).1.WellFormed := by
  by_cases ha : a.keeps
  · cases hl : t.live with
    | none =>
      intro live hlive
      rw [(act_none hl key ha).1] at hlive
      cases hlive
    | some live =>
      intro live' hlive
      rw [live_act hl key ha, Option.some_inj] at hlive
      subst hlive
      exact performOption_wellFormed (h live hl) _
  · cases a with
    | openSession reply profile cols historyEpoch =>
      intro live hlive
      cases hlive
      exact openReducer_wellFormed reply
    | close => exact wellFormed_empty
    | _ => exact absurd rfl ha

end Tab

namespace CoreState

theorem WellFormed.act {s : CoreState} (h : s.WellFormed) (a : Action) : (s.act a).1.WellFormed := by
  intro key
  rw [tab_act]
  cases s.onTab key a with
  | none => exact h key
  | some b => exact (h key).act key b

theorem WellFormed.run {s : CoreState} (h : s.WellFormed) (actions : List Action) : (s.run actions).WellFormed := by
  induction actions generalizing s with
  | nil => exact h
  | cons a actions ih => exact ih (h.act a)

end CoreState

end

end Hermo
