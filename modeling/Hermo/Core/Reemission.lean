import Hermo.Core.World
import Hermo.Transcript.Approvals

/-!
# Pending approvals after a reconnect

`reemit_approvals` is deduped twice: against the ids it has re-emitted and against the transcript.  A rebuild and a
reopen replace the transcript and leave the ids, so a card can be gone while its id still says that it was shown.
`KeepsCards` is the condition under which the two agree, and `answerable_run` what the user can rely on then: at the
end of the re-emission every pending request has one card.
-/

namespace Hermo

/-- A card of the request is still to be handled by the running re-emission. -/
def Supervisor.Coming (key requestId : String) : Supervisor → Prop
  | .cards key' more _ => key' = key ∧ ∃ card ∈ more, card.strAt "request_id" = requestId
  | _ => False

/-- The supervisor is in `reemit_approvals` and has read the keys. -/
def Supervisor.reemitting : Supervisor → Bool
  | .reemitNext _ | .pendingCall _ _ | .cards _ _ _ => true
  | _ => false

namespace World

/-- The cards are kept: a request is asked for only when it has no open card, a card that is skipped because it was
re-emitted before is still there, and a session is not opened again after its cards were handled. -/
def KeepsCards (w : World) (i : Input) : Prop :=
  ∀ a supervisor epoch, w.sys.next i.label = some (some a, supervisor, epoch) →
    match a with
    | .deliver ev => ∀ key live, w.sys.core.resolve ev.sessionId = some key →
        (w.sys.core.tab key).live = some live → EventKind.parse ev.eventType = .approvalRequest →
          (key, ev.payload.strAt "request_id") ∈ w.answered ∨
            live.reducer.hasUnresolvedApproval (ev.payload.strAt "request_id") = false
    | .reemitCard key card => ∀ live, (w.sys.core.tab key).live = some live → card.strAt "request_id" ≠ "" →
        (key, card.strAt "request_id") ∈ w.answered ∨ (key ≠ "" ∧
          ((w.sys.core.tab key).emitted.contains (card.strAt "request_id") = true →
            live.reducer.hasUnresolvedApproval (card.strAt "request_id") = true))
    | .openSession reply _ _ => ∀ requestId, (reply.key, requestId) ∈ w.reported →
        (reply.key, requestId) ∈ w.answered ∨ w.sys.supervisor.Coming reply.key requestId
    | _ => True

/-- When the re-emission is through, every request that was reported as pending for an open session and not answered
from this device has one unresolved card. -/
def Answerable (w : World) : Prop :=
  w.sys.supervisor = .reemitNext [] → ∀ key requestId live, (key, requestId) ∈ w.reported →
    (key, requestId) ∉ w.answered → (w.sys.core.tab key).live = some live →
      live.reducer.state.unresolved requestId = 1

end World

/-! ### One session -/

/-- An operation answers a request only for `respond_approval`. -/
private theorem op_answers {t : Tab} {live : LiveSession} {key : String} {a : TabAction} {o : Op}
    (h : t.op live key a = some o) {requestId : String} (ha : a ≠ .respondApproval requestId) :
    o.answers ≠ some requestId := by
  cases a <;> simp only [Tab.op, Option.some.injEq, reduceCtorEq, Option.ite_none_left_eq_some,
    Option.ite_none_right_eq_some] at h
  case respondApproval id =>
    subst h
    intro heq
    cases heq
    exact ha rfl
  case reemitCard =>
    obtain ⟨-, rfl⟩ := h
    rintro ⟨⟩
  case appendUserRow =>
    obtain ⟨-, rfl⟩ := h
    rintro ⟨⟩
  all_goals
    subst h
    rintro ⟨⟩

/-- What a tab action asks for. -/
def TabAction.asks : TabAction → Option String
  | .deliver ev => if EventKind.parse ev.eventType = .approvalRequest then some (ev.payload.strAt "request_id") else none
  | .reemitCard card => some (card.strAt "request_id")
  | _ => none

private theorem op_asks {t : Tab} {live : LiveSession} {key : String} {a : TabAction} {o : Op}
    (h : t.op live key a = some o) {requestId : String} (ha : o.asks = some requestId) :
    a.asks = some requestId ∧ ((∃ card, a = .reemitCard card) → live.reducer.state.unresolved requestId = 0) := by
  cases a <;> simp only [Tab.op, Option.some.injEq, reduceCtorEq, Option.ite_none_left_eq_some,
    Option.ite_none_right_eq_some] at h
  case deliver =>
    subst h
    refine ⟨ha, ?_⟩
    rintro ⟨card, ⟨⟩⟩
  case reemitCard card =>
    obtain ⟨hno, rfl⟩ := h
    cases ha
    refine ⟨rfl, fun _ => ?_⟩
    have hun : ¬ live.reducer.hasUnresolvedApproval (card.strAt "request_id") = true := fun h => hno (.inr (.inr h))
    rw [Reducer.hasUnresolvedApproval_iff] at hun
    omega
  case rebuildSession =>
    subst h
    cases ha
  case appendUserRow =>
    obtain ⟨-, rfl⟩ := h
    cases ha
  case respondApproval =>
    subst h
    cases ha
  case respondClarify =>
    subst h
    cases ha

section

variable [Serializer]

/-- The count of a request that is not answered, after an action that installs no history. -/
theorem Tab.unresolved_act {t : Tab} {live live' : LiveSession} (hl : t.live = some live)
    (hwf : live.reducer.WellFormed) (key : String) {a : TabAction} (hk : a.keeps)
    (hr : ∀ messages replayEpoch historyEpoch, a ≠ .rebuildSession messages replayEpoch historyEpoch)
    {requestId : String} (ha : a ≠ .respondApproval requestId) (hl' : (t.act key a).1.live = some live') :
    live'.reducer.state.unresolved requestId = live.reducer.state.unresolved requestId ∨
      (a.asks = some requestId ∧
        ((∃ card, a = .reemitCard card) → live.reducer.state.unresolved requestId = 0) ∧
        live'.reducer.state.unresolved requestId = live.reducer.state.unresolved requestId + 1) := by
  rw [live_act hl key hk, Option.some_inj] at hl'
  subst hl'
  dsimp only
  cases hop : t.op live key a with
  | none => exact .inl rfl
  | some o =>
    rcases Reducer.perform_unresolved hwf (op_replaces hr hop) (op_answers hop ha) with h | ⟨hasks, h⟩
    · exact .inl h
    · exact .inr ⟨(op_asks hop hasks).1, (op_asks hop hasks).2, h⟩

/-- A session that was just opened or rebuilt has no card. -/
theorem Tab.unresolved_install {t : Tab} {live' : LiveSession} {key : String} {a : TabAction}
    (hi : (∃ reply profile cols historyEpoch, a = .openSession reply profile cols historyEpoch) ∨
      ∃ messages replayEpoch historyEpoch, a = .rebuildSession messages replayEpoch historyEpoch)
    (hl' : (t.act key a).1.live = some live') (requestId : String) :
    live'.reducer.state.unresolved requestId = 0 := by
  rcases hi with ⟨reply, profile, cols, historyEpoch, rfl⟩ | ⟨messages, replayEpoch, historyEpoch, rfl⟩
  · have hreducer : live'.reducer = (openReducer reply).1 := by
      cases hl'
      rfl
    rw [hreducer, openReducer_eq]
    exact Reducer.ingestResumeMessages_unresolved _ _ _ _
  · cases hl : t.live with
    | none =>
      rw [(act_none hl key rfl).1] at hl'
      cases hl'
    | some live =>
      rw [live_act hl key rfl, Option.some_inj] at hl'
      subst hl'
      exact Reducer.ingestResumeMessages_unresolved live.reducer key messages requestId

/-! ### Every step -/

namespace World

/-- The invariant of the runs: a request that is not answered never has two cards, and one that was reported has
its card or is still to be handled. -/
structure Showing (w : World) : Prop where
  wellFormed : w.sys.core.WellFormed
  once : ∀ key live requestId, (w.sys.core.tab key).live = some live → (key, requestId) ∉ w.answered →
    live.reducer.state.unresolved requestId ≤ 1
  shown : ∀ key live requestId, (key, requestId) ∈ w.reported → (key, requestId) ∉ w.answered →
    (w.sys.core.tab key).live = some live →
      live.reducer.state.unresolved requestId = 1 ∨ w.sys.supervisor.Coming key requestId
  named : ∀ key requestId, (key, requestId) ∈ w.reported → requestId ≠ ""
  running : w.reported ≠ [] → w.sys.supervisor.reemitting = true

/-- How a lock section changes the cards of a request that is not answered. -/
private theorem cases_act {w : World} (h : w.Showing) {a : Action} {key requestId : String} {live' : LiveSession}
    (ha : a ≠ .respondApproval key requestId) (hl' : ((w.sys.core.act a).1.tab key).live = some live') :
    ((∃ reply profile cols, a = .openSession reply profile cols ∧ reply.key = key) ∨
        ∃ messages replayEpoch, a = .rebuildSession key messages replayEpoch) ∧
      live'.reducer.state.unresolved requestId = 0 ∨
    ∃ live, (w.sys.core.tab key).live = some live ∧
      (live'.reducer.state.unresolved requestId = live.reducer.state.unresolved requestId ∨
        ∃ b, w.sys.core.onTab key a = some b ∧ b.asks = some requestId ∧
          ((∃ card, b = .reemitCard card) → live.reducer.state.unresolved requestId = 0) ∧
          live'.reducer.state.unresolved requestId = live.reducer.state.unresolved requestId + 1) := by
  rw [CoreState.tab_act] at hl'
  cases hon : w.sys.core.onTab key a with
  | none =>
    rw [hon] at hl'
    exact .inr ⟨live', hl', .inl rfl⟩
  | some b =>
    rw [hon] at hl'
    change ((w.sys.core.tab key).act key b).1.live = some live' at hl'
    by_cases hr : ∃ messages replayEpoch historyEpoch, b = .rebuildSession messages replayEpoch historyEpoch
    · obtain ⟨messages, replayEpoch, historyEpoch, rfl⟩ := hr
      exact .inl ⟨.inr ⟨messages, replayEpoch, CoreState.onTab_rebuild hon⟩,
        Tab.unresolved_install (.inr ⟨_, _, _, rfl⟩) hl' requestId⟩
    -- no other action that keeps the session empties the transcript
    · push Not at hr
      by_cases hk : b.keeps
      · cases hl : (w.sys.core.tab key).live with
        | none =>
          rw [(Tab.act_none hl key hk).1] at hl'
          cases hl'
        | some live =>
          refine .inr ⟨live, rfl, ?_⟩
          have hb : b ≠ .respondApproval requestId := by
            rintro rfl
            exact ha (CoreState.onTab_respondApproval hon)
          rcases Tab.unresolved_act hl (h.wellFormed key live hl) key hk hr hb hl' with hsame | ⟨hasks, hzero, hone⟩
          · exact .inl hsame
          · exact .inr ⟨b, rfl, hasks, hzero, hone⟩
      · cases b with
        | openSession reply profile cols historyEpoch =>
          obtain ⟨rfl, hkey⟩ := CoreState.onTab_open hon
          exact .inl ⟨.inl ⟨reply, profile, cols, rfl, hkey⟩,
            Tab.unresolved_install (.inl ⟨_, _, _, _, rfl⟩) hl' requestId⟩
        | close => cases hl'
        | _ => exact absurd rfl hk

private theorem mem_answered {w : World} {i : Input} {a : Action} {supervisor : Supervisor} {epoch key requestId : String}
    (h : (key, requestId) ∉ (w.after i (some a) supervisor epoch).answered) :
    (key, requestId) ∉ w.answered ∧ a ≠ .respondApproval key requestId := by
  constructor
  · intro hmem
    refine h ?_
    cases a <;> first | exact hmem | exact List.mem_cons_of_mem _ hmem
  · rintro rfl
    exact h List.mem_cons_self

/-- No action makes a second card. -/
private theorem once_act {w : World} (h : w.Showing) {i : Input} {a : Action} {supervisor : Supervisor} {epoch : String}
    (hnext : w.sys.next i.label = some (some a, supervisor, epoch)) (hk : w.KeepsCards i) {key requestId : String}
    {live' : LiveSession} (hl' : ((w.sys.core.act a).1.tab key).live = some live')
    (ha : (key, requestId) ∉ (w.after i (some a) supervisor epoch).answered) :
    live'.reducer.state.unresolved requestId ≤ 1 := by
  obtain ⟨hanswered, hrespond⟩ := mem_answered ha
  rcases cases_act h hrespond hl' with ⟨-, hzero⟩ | ⟨live, hl, hsame | ⟨b, hon, hasks, hzero, hone⟩⟩
  · omega
  · rw [hsame]
    exact h.once key live requestId hl hanswered
  · have hcond := hk a supervisor epoch hnext
    rw [hone]
    cases b with
    | deliver ev =>
      unfold TabAction.asks at hasks
      dsimp only at hasks
      split at hasks
      · rename_i hkind
        cases hasks
        cases a <;> simp only [CoreState.onTab, Option.ite_none_right_eq_some, Option.some.injEq, reduceCtorEq,
          and_false, TabAction.deliver.injEq] at hon
        obtain ⟨hres, rfl⟩ := hon
        rcases hcond key live hres hl hkind with hmem | hno
        · exact absurd hmem hanswered
        · have hiff := Reducer.hasUnresolvedApproval_iff live.reducer
          have hcount : ¬ 0 < live.reducer.state.unresolved _ := fun h => by
            rw [← hiff, hno] at h
            cases h
          omega
      · cases hasks
    | reemitCard card =>
      have hnone := hzero ⟨card, rfl⟩
      omega
    | _ => cases hasks

/-- A step that runs no lock section. -/
private theorem showing_quiet {w : World} (h : w.Showing) {i : Input} {supervisor : Supervisor} {epoch : String}
    (hshown : ∀ key live requestId, (key, requestId) ∈ (w.after i none supervisor epoch).reported →
      (key, requestId) ∉ w.answered → (w.sys.core.tab key).live = some live →
        live.reducer.state.unresolved requestId = 1 ∨ supervisor.Coming key requestId)
    (hnamed : ∀ key requestId, (key, requestId) ∈ (w.after i none supervisor epoch).reported → requestId ≠ "")
    (hrunning : (w.after i none supervisor epoch).reported ≠ [] → supervisor.reemitting = true) :
    (w.after i none supervisor epoch).Showing :=
  ⟨h.wellFormed, h.once, hshown, hnamed, hrunning⟩

/-- A step outside of the re-emission, or the one that ends it. -/
private theorem showing_outside {w : World} (h : w.Showing) {i : Input} {a : Option Action} {supervisor : Supervisor}
    {epoch : String} (hnext : w.sys.next i.label = some (a, supervisor, epoch)) (hk : w.KeepsCards i)
    (hout : w.sys.supervisor.reemitting = false ∨ (i.label = .advance ∧ w.sys.supervisor = .reemitNext [])) :
    (w.after i a supervisor epoch).Showing := by
  have hreported : (w.after i a supervisor epoch).reported = [] := by
    rcases hout with hout | ⟨hlabel, hsup⟩
    · have hempty : w.reported = [] := by
        by_contra hne
        rw [h.running hne] at hout
        cases hout
      unfold after
      dsimp only
      split
      · rename_i hsup
        rw [hsup] at hout
        cases hout
      · rfl
      · exact hempty
    · unfold after
      rw [hlabel, hsup]
  have hnone : ∀ p, p ∉ (w.after i a supervisor epoch).reported := by
    rw [hreported]
    exact fun p => List.not_mem_nil
  refine ⟨?_, ?_, fun key live requestId hmem => absurd hmem (hnone _), fun key requestId hmem => absurd hmem (hnone _),
    fun hne => absurd hreported hne⟩
  · cases a with
    | none => exact h.wellFormed
    | some a => exact h.wellFormed.act a
  · cases a with
    | none => exact h.once
    | some a => exact fun key live requestId hl ha => once_act h hnext hk hl ha

/-- A lock section of another task. -/
private theorem showing_task {w : World} (h : w.Showing) {i : Input} {a : Action} (hlabel : i.label = .task a)
    (hnext : w.sys.next i.label = some (some a, w.sys.supervisor, w.sys.freshEpoch)) (htask : a.ofTask)
    (hk : w.KeepsCards i) : (w.after i (some a) w.sys.supervisor w.sys.freshEpoch).Showing := by
  have hreported : (w.after i (some a) w.sys.supervisor w.sys.freshEpoch).reported = w.reported := by
    unfold after
    rw [hlabel]
  refine ⟨h.wellFormed.act a, fun key live requestId hl ha => once_act h hnext hk hl ha, ?_, ?_, ?_⟩
  · intro key live' requestId hmem ha hl'
    rw [hreported] at hmem
    obtain ⟨hanswered, hrespond⟩ := mem_answered ha
    rcases cases_act h hrespond hl' with
      ⟨⟨reply, profile, cols, rfl, rfl⟩ | ⟨messages, replayEpoch, rfl⟩, -⟩ | ⟨live, hl, hsame | ⟨b, hon, hasks, -, -⟩⟩
    · exact .inr ((hk _ _ _ hnext requestId hmem).resolve_left hanswered)
    · cases htask
    · rw [hsame]
      exact h.shown key live requestId hmem hanswered hl
    · -- the title event of a rename asks for nothing
      cases b with
      | deliver ev =>
        cases a <;> simp only [CoreState.onTab, Option.ite_none_right_eq_some, Option.some.injEq, reduceCtorEq,
          and_false, TabAction.deliver.injEq] at hon
        obtain ⟨-, rfl⟩ := hon
        unfold Action.ofTask at htask
        simp only [Bool.and_eq_true, beq_iff_eq] at htask
        have hkind : EventKind.parse "session.title" ≠ .approvalRequest := by decide
        unfold TabAction.asks at hasks
        dsimp only at hasks
        rw [htask.1, if_neg hkind] at hasks
        cases hasks
      | reemitCard card =>
        cases a <;> simp only [CoreState.onTab, Option.ite_none_right_eq_some, Option.some.injEq, reduceCtorEq,
          and_false] at hon
        cases htask
      | _ => cases hasks
  · intro key requestId hmem
    exact h.named key requestId (hreported ▸ hmem)
  · intro hne
    exact h.running (hreported ▸ hne)

/-- The card of a request that was reported is there after it was handled. -/
private theorem unresolved_reemitCard {w : World} {key : String} {card : Value} {live live' : LiveSession}
    (hid : card.strAt "request_id" ≠ "") (hl : (w.sys.core.tab key).live = some live) (hkey : key ≠ "")
    (hemitted : (w.sys.core.tab key).emitted.contains (card.strAt "request_id") = true →
      live.reducer.hasUnresolvedApproval (card.strAt "request_id") = true)
    (honce : live.reducer.state.unresolved (card.strAt "request_id") ≤ 1)
    (hl' : ((w.sys.core.act (.reemitCard key card)).1.tab key).live = some live') :
    live'.reducer.state.unresolved (card.strAt "request_id") = 1 := by
  have hon : w.sys.core.onTab key (.reemitCard key card) = some (.reemitCard card) := if_pos rfl
  rw [CoreState.tab_act, hon] at hl'
  change ((w.sys.core.tab key).act key (.reemitCard card)).1.live = some live' at hl'
  rw [Tab.live_act hl key rfl, Option.some_inj] at hl'
  subst hl'
  dsimp only
  have hiff := Reducer.hasUnresolvedApproval_iff live.reducer (card.strAt "request_id")
  by_cases hun : live.reducer.hasUnresolvedApproval (card.strAt "request_id") = true
  · have hop : (w.sys.core.tab key).op live key (.reemitCard card) = none := if_pos (.inr (.inr hun))
    rw [hop]
    have hpos := hiff.1 hun
    change live.reducer.state.unresolved _ = 1
    omega
  · have hop : (w.sys.core.tab key).op live key (.reemitCard card) =
        some (.applyApprovalCard key (card.strAt "request_id") card) :=
      if_neg (not_or.2 ⟨hid, not_or.2 ⟨fun he => hun (hemitted he), hun⟩⟩)
    have hzero : live.reducer.state.unresolved (card.strAt "request_id") = 0 := by
      by_contra hne
      exact hun (hiff.2 (by omega))
    rw [hop]
    change (live.reducer.applyApprovalCard key (card.strAt "request_id") card).1.state.unresolved _ = 1
    rw [Reducer.applyApprovalCard_unresolved live.reducer hkey hid rfl, hzero]

/-- One card of the re-emission. -/
private theorem showing_card {w : World} (h : w.Showing) {i : Input} {key : String} {card : Value} {more : List Value}
    {rest : List String} (hlabel : i.label = .advance) (hsup : w.sys.supervisor = .cards key (card :: more) rest)
    (hnext : w.sys.next i.label = some (some (.reemitCard key card), .cards key more rest, w.sys.freshEpoch))
    (hk : w.KeepsCards i) : (w.after i (some (.reemitCard key card)) (.cards key more rest) w.sys.freshEpoch).Showing := by
  have hreported : (w.after i (some (.reemitCard key card)) (.cards key more rest) w.sys.freshEpoch).reported =
      w.reported := by
    unfold after
    rw [hlabel, hsup]
  refine ⟨h.wellFormed.act _, fun key live requestId hl ha => once_act h hnext hk hl ha, ?_, ?_, fun _ => rfl⟩
  · intro key' live' requestId hmem ha hl'
    rw [hreported] at hmem
    obtain ⟨hanswered, hrespond⟩ := mem_answered ha
    rcases cases_act h hrespond hl' with
      ⟨⟨reply, profile, cols, habs, -⟩ | ⟨messages, replayEpoch, habs⟩, -⟩ | ⟨live, hl, hcount⟩
    · cases habs
    · cases habs
    have honce := h.once key' live requestId hl hanswered
    rcases h.shown key' live requestId hmem hanswered hl with hone | hcoming
    · -- a second card would need a transcript without one
      rcases hcount with hsame | ⟨b, hon, -, hzero, -⟩
      · exact .inl (hsame.trans hone)
      · simp only [CoreState.onTab, Option.ite_none_right_eq_some, Option.some.injEq] at hon
        have hnone := hzero ⟨card, hon.2.symm⟩
        omega
    · rw [hsup] at hcoming
      obtain ⟨rfl, c, hc, rfl⟩ := hcoming
      rcases List.mem_cons.1 hc with rfl | hc
      · obtain ⟨hkey, hemitted⟩ := (hk _ _ _ hnext live hl (h.named _ _ hmem)).resolve_left hanswered
        exact .inl (unresolved_reemitCard (h.named _ _ hmem) hl hkey hemitted honce hl')
      · exact .inr ⟨rfl, c, hc, rfl⟩
  · intro key requestId hmem
    exact h.named key requestId (hreported ▸ hmem)

/-- A reply of `approval.pending`: what it reports is still to be handled. -/
private theorem showing_pending {w : World} (h : w.Showing) {i : Input} {key : String} {rest : List String}
    {supervisor : Supervisor} (hsup : w.sys.supervisor = .pendingCall key rest)
    (hi : i.label = .pendingReply none ∨
      ∃ pending, i.label = .pendingReply (some pending) ∧ supervisor = .cards key (pendingList pending) rest)
    (hrunning : supervisor.reemitting = true) : (w.after i none supervisor w.sys.freshEpoch).Showing := by
  have hshown := h.shown
  rw [hsup] at hshown
  rcases hi with hlabel | ⟨pending, hlabel, rfl⟩
  · have hreported : (w.after i none supervisor w.sys.freshEpoch).reported = w.reported := by
      unfold after
      rw [hlabel]
    refine showing_quiet h ?_ ?_ fun _ => hrunning
    · intro key' live requestId hmem hanswered hl
      exact .inl ((hshown key' live requestId (hreported ▸ hmem) hanswered hl).resolve_right id)
    · intro key' requestId hmem
      exact h.named key' requestId (hreported ▸ hmem)
  · have hreported : (w.after i none (.cards key (pendingList pending) rest) w.sys.freshEpoch).reported =
        w.reported ++ pendingIds key pending := by
      unfold after
      rw [hlabel, hsup]
    have hids : ∀ key' requestId, (key', requestId) ∈ pendingIds key pending →
        key' = key ∧ requestId ≠ "" ∧ ∃ card ∈ pendingList pending, card.strAt "request_id" = requestId := by
      intro key' requestId hmem
      unfold pendingIds at hmem
      simp only [List.mem_map, List.mem_filter, decide_eq_true_eq, Prod.mk.injEq] at hmem
      obtain ⟨id, ⟨⟨card, hcard, rfl⟩, hne⟩, rfl, rfl⟩ := hmem
      exact ⟨rfl, hne, card, hcard, rfl⟩
    refine showing_quiet h ?_ ?_ fun _ => hrunning
    · intro key' live requestId hmem hanswered hl
      rw [hreported] at hmem
      rcases List.mem_append.1 hmem with hmem | hmem
      · exact .inl ((hshown key' live requestId hmem hanswered hl).resolve_right id)
      · obtain ⟨rfl, -, hcard⟩ := hids key' requestId hmem
        exact .inr ⟨rfl, hcard⟩
    · intro key' requestId hmem
      rw [hreported] at hmem
      rcases List.mem_append.1 hmem with hmem | hmem
      · exact h.named key' requestId hmem
      · exact (hids key' requestId hmem).2.1

/-- A step inside the re-emission that reports nothing, handles no card and ends nothing. -/
private theorem showing_inside {w : World} (h : w.Showing) {i : Input} {supervisor : Supervisor}
    (hlabel : i.label = .advance) (hnot : w.sys.supervisor ≠ .reemitNext [])
    (hcoming : ∀ key requestId, ¬ w.sys.supervisor.Coming key requestId) (hrunning : supervisor.reemitting = true) :
    (w.after i none supervisor w.sys.freshEpoch).Showing := by
  have hreported : (w.after i none supervisor w.sys.freshEpoch).reported = w.reported := by
    unfold after
    rw [hlabel]
    dsimp only
    split
    · contradiction
    · contradiction
    · rfl
  refine showing_quiet h ?_ ?_ fun _ => hrunning
  · intro key live requestId hmem hanswered hl
    exact .inl ((h.shown key live requestId (hreported ▸ hmem) hanswered hl).resolve_right (hcoming key requestId))
  · intro key requestId hmem
    exact h.named key requestId (hreported ▸ hmem)

/-- The local steps of the supervisor. -/
private theorem showing_advance {w : World} (h : w.Showing) {i : Input} (hlabel : i.label = .advance)
    {a : Option Action} {supervisor : Supervisor}
    (hnext : w.sys.next i.label = some (a, supervisor, w.sys.freshEpoch))
    (hadvances : w.sys.supervisor.Advances w.sys.core w.sys.freshEpoch a supervisor) (hk : w.KeepsCards i) :
    (w.after i a supervisor w.sys.freshEpoch).Showing := by
  generalize hsup : w.sys.supervisor = before at hadvances
  cases hadvances with
  | reemittedAll => exact showing_outside h hnext hk (.inr ⟨hlabel, hsup⟩)
  | askPending hopen => exact showing_inside h hlabel (by simp [hsup]) (by simp [hsup, Supervisor.Coming]) rfl
  | skipClosed hclosed => exact showing_inside h hlabel (by simp [hsup]) (by simp [hsup, Supervisor.Coming]) rfl
  | reemitted => exact showing_inside h hlabel (by simp [hsup]) (by simp [hsup, Supervisor.Coming]) rfl
  | card => exact showing_card h hlabel hsup hnext hk
  | _ => exact showing_outside h hnext hk (.inl (by rw [hsup]; rfl))

/-- Every step that keeps the cards keeps the invariant. -/
theorem Showing.step {w w' : World} {i : Input} (h : w.Showing) (hk : w.KeepsCards i) (hs : w.step i = some w') :
    w'.Showing := by
  obtain ⟨a, supervisor, epoch, hnext, rfl⟩ := step_eq hs
  have hsteps := Sys.steps_of_next hnext
  generalize hlabel : i.label = label at hsteps
  cases hsteps with
  | pendingFailed hsup => exact showing_pending h hsup (.inl hlabel) rfl
  | @pending key pending rest hsup => exact showing_pending h hsup (.inr ⟨pending, hlabel, rfl⟩) rfl
  | advance hadvances => exact showing_advance h hlabel hnext hadvances hk
  | task htask => exact showing_task h hlabel hnext htask hk
  | _ hsup => exact showing_outside h hnext hk (.inl (by rw [hsup]; rfl))

/-- In every run that keeps the cards, every request the gateway reported as pending for an open session, and that was
not answered from this device, has one unresolved card when the re-emission is through. -/
theorem answerable_run (registry : SessionRegistry) (inputs : List Input) (w : World)
    (hrun : Run.exec step (new registry) inputs = some w)
    (hinputs : Run.Meets step KeepsCards (new registry) inputs) : w.Answerable := by
  have hw : w.Showing := by
    refine Run.exec_invariant step (fun w i w' h hok hs => h.step hok hs) ?_ hinputs hrun
    refine ⟨CoreState.wellFormed_new registry, ?_, nofun, nofun, nofun⟩
    intro key live requestId hl
    cases hl
  intro hsup key requestId live hmem hanswered hl
  refine (hw.shown key live requestId hmem hanswered hl).resolve_right ?_
  rw [hsup]
  exact id

end World

end

/-! ### A card that is lost in a rebuild -/

section

attribute [local instance] Serializer.compact

private def openTab : Action := .openSession (.created ⟨"live", "chat", ""⟩) none 80

private def pendingCard : Value := .object [("request_id", .string "r1"), ("command", .string "rm")]

private def pendingReplyOne : Value := .object [("pending", .array [pendingCard])]

/-- The end of a reconnect: the pending card of the chat is handled. -/
private def reemit : List Input :=
  [⟨.advance, {}⟩, ⟨.readKeys ["chat"], {}⟩, ⟨.advance, {}⟩, ⟨.pendingReply (some pendingReplyOne), {}⟩,
    ⟨.advance, {}⟩, ⟨.advance, {}⟩]

private def chatResumed : ResumedSession := ⟨"live", [], ""⟩

/-- The gap of the chat is filled, then the card is re-emitted. -/
private def firstConnection : List Input :=
  [⟨.connected "e1", {}⟩, ⟨.advance, {}⟩, ⟨.resumeReply (some chatResumed), {}⟩, ⟨.advance, {}⟩,
    ⟨.sinceReply (some ⟨[], 0, false, "e1"⟩), {}⟩, ⟨.advance, {}⟩, ⟨.advance, {}⟩] ++ reemit ++ [⟨.advance, {}⟩]

/-- The gateway was restarted: the chat is rebuilt. -/
private def secondConnection : List Input :=
  [⟨.connected "e2", {}⟩, ⟨.advance, {}⟩, ⟨.resumeReply (some chatResumed), {}⟩, ⟨.advance, {}⟩,
    ⟨.sinceReply (some ⟨[], 0, false, "e2"⟩), {}⟩, ⟨.advance, {}⟩] ++ reemit

private def opened : World := (World.new {}).after ⟨.task openTab, {}⟩ (some openTab) .idle ""

/-- The worlds of the re-emission before its card is handled. -/
private def opening (supervisor : Supervisor) (freshEpoch : String) (reported : List (String × String)) : World :=
  { opened with sys := ⟨opened.sys.core, supervisor, freshEpoch⟩, reported := reported }

private theorem keeps_quiet {w : World} {i : Input} {supervisor : Supervisor} {epoch : String}
    (h : w.sys.next i.label = some (none, supervisor, epoch)) : w.KeepsCards i := by
  intro a supervisor' epoch' hnext
  rw [h] at hnext
  cases hnext

/-- A connection whose `session.resume` fails; the card is re-emitted all the same. -/
private def failedResume : List Input :=
  [⟨.task openTab, {}⟩, ⟨.connected "e1", {}⟩, ⟨.advance, {}⟩, ⟨.resumeReply none, {}⟩] ++ reemit

theorem answerable_failedResume : ∃ w, Run.exec World.step (World.new {}) failedResume = some w ∧
    ∃ live, (w.sys.core.tab "chat").live = some live ∧ live.reducer.state.unresolved "r1" = 1 := by
  refine ⟨_, rfl, _, rfl, World.answerable_run {} failedResume _ rfl ?_ rfl "chat" "r1" _ (by decide) (by decide) rfl⟩
  have hopened : World.step (World.new {}) ⟨.task openTab, {}⟩ = some (opening .idle "" []) := rfl
  have hconnected : World.step (opening .idle "" []) ⟨.connected "e1", {}⟩ =
      some (opening (.resumeNext ["chat"]) "e1" []) := rfl
  have hresuming : World.step (opening (.resumeNext ["chat"]) "e1" []) ⟨.advance, {}⟩ =
      some (opening (.resuming "chat" ⟨"chat", 0, "", 80, "", ""⟩ []) "e1" []) := rfl
  have hfailed : World.step (opening (.resuming "chat" ⟨"chat", 0, "", 80, "", ""⟩ []) "e1" [])
      ⟨.resumeReply none, {}⟩ = some (opening (.resumeNext []) "e1" []) := rfl
  have hkeys : World.step (opening (.resumeNext []) "e1" []) ⟨.advance, {}⟩ = some (opening .reemitKeys "e1" []) := rfl
  have hread : World.step (opening .reemitKeys "e1" []) ⟨.readKeys ["chat"], {}⟩ =
      some (opening (.reemitNext ["chat"]) "e1" []) := rfl
  have hcall : World.step (opening (.reemitNext ["chat"]) "e1" []) ⟨.advance, {}⟩ =
      some (opening (.pendingCall "chat" []) "e1" []) := rfl
  have hcards : World.step (opening (.pendingCall "chat" []) "e1" []) ⟨.pendingReply (some pendingReplyOne), {}⟩ =
      some (opening (.cards "chat" [pendingCard] []) "e1" [("chat", "r1")]) := rfl
  refine .cons _ hopened ?_ (.cons _ hconnected (keeps_quiet rfl) (.cons _ hresuming (keeps_quiet rfl)
    (.cons _ hfailed (keeps_quiet rfl) (.cons _ hkeys (keeps_quiet rfl) (.cons _ hread (keeps_quiet rfl)
    (.cons _ hcall (keeps_quiet rfl) (.cons _ hcards (keeps_quiet rfl) (.cons _ rfl ?_
    (.cons _ rfl (keeps_quiet rfl) trivial)))))))))
  · intro a supervisor epoch hnext
    cases hnext
    exact nofun
  · intro a supervisor epoch hnext
    cases hnext
    exact fun _ _ _ => .inr ⟨by decide, fun h => absurd h (by decide)⟩

/-- After the rebuild the request is still pending, but no card is left to answer it with. -/
theorem rebuild_loses_card : ∃ w, Run.exec World.step (World.new {})
      ([⟨.task openTab, {}⟩] ++ firstConnection ++ secondConnection) = some w ∧
    w.sys.supervisor = .reemitNext [] ∧ ("chat", "r1") ∈ w.reported ∧ w.answered = [] ∧
    w.sys.core.rowsOf "chat" = [] ∧ ¬ w.Answerable := by
  refine ⟨_, rfl, rfl, ?_, rfl, ?_, ?_⟩
  · decide
  · rfl
  · intro h
    exact absurd (h rfl "chat" "r1" _ (by decide) (by decide) rfl) (by decide)

end

end Hermo
