import Hermo.Core.Reemission
import Hermo.Library.Run

/-!
# One open card for a request

A card enters a transcript with an `approval.request`, which is not deduped, or with a re-emission, which is deduped
against the ids re-emitted before and the cards that are open.  `openCards_act` counts the cards through every action,
and `oneOpenCard_iff` says which runs keep at most one open card for a request and ask for none that was answered.
-/

namespace Hermo

section

variable [Serializer]

namespace CoreState

omit [Serializer] in
/-- The number of open cards of a request on the transcript of a session. -/
def openCards (s : CoreState) (key requestId : String) : Nat :=
  ((s.tab key).live.map fun live => live.reducer.state.unresolved requestId).getD 0

omit [Serializer] in
/-- The action puts a card of the request on the transcript of `key`. -/
def AddsCard (s : CoreState) (key requestId : String) : Action → Prop
  | .deliver ev =>
    s.resolve ev.sessionId = some key ∧ key ∈ s.sessions ∧ EventKind.parse ev.eventType = .approvalRequest ∧
      ev.payload.strAt "request_id" = requestId ∧ requestId ≠ ""
  | .reemitCard key' card =>
    key' = key ∧ key ≠ "" ∧ key ∈ s.sessions ∧ card.strAt "request_id" = requestId ∧ requestId ≠ "" ∧
      (s.tab key).emitted.contains requestId = false ∧ s.openCards key requestId = 0
  | _ => False

omit [Serializer] in
private theorem openCards_live {s : CoreState} {key : String} {live : LiveSession} (h : (s.tab key).live = some live)
    (requestId : String) : s.openCards key requestId = live.reducer.state.unresolved requestId := by
  unfold openCards
  rw [h]
  rfl

omit [Serializer] in
private theorem openCards_none {s : CoreState} {key : String} (h : (s.tab key).live = none) (requestId : String) :
    s.openCards key requestId = 0 := by
  unfold openCards
  rw [h]
  rfl

omit [Serializer] in
private theorem live_of_mem {s : CoreState} {key : String} (h : key ∈ s.sessions) :
    ∃ live, (s.tab key).live = some live := Option.isSome_iff_exists.1 (AList.lookup_isSome.2 h)

/-- A transcript that was opened, rebuilt or removed has no card. -/
theorem openCards_replaced (s : CoreState) {key : String} {a : Action} (h : a.replaces key = true)
    (requestId : String) : (s.act a).1.openCards key requestId = 0 := by
  cases hl : ((s.act a).1.tab key).live with
  | none => exact openCards_none hl requestId
  | some live' =>
    rw [openCards_live hl]
    rw [tab_act] at hl
    cases a with
    | openSession reply profile cols =>
      have hkey : reply.key = key := by simpa [Action.replaces] using h
      unfold onTab at hl
      dsimp only at hl
      rw [if_pos hkey] at hl
      exact Tab.unresolved_install (.inl ⟨_, _, _, _, rfl⟩) hl requestId
    | rebuildSession key' messages replayEpoch =>
      have hkey : key' = key := by simpa [Action.replaces] using h
      unfold onTab at hl
      dsimp only at hl
      rw [if_pos hkey] at hl
      exact Tab.unresolved_install (.inr ⟨_, _, _, rfl⟩) hl requestId
    | closeSession key' =>
      have hkey : key' = key := by simpa [Action.replaces] using h
      unfold onTab at hl
      dsimp only at hl
      rw [if_pos hkey] at hl
      cases hl
    | clearSessions => cases hl
    | forgetGateway => cases hl
    | _ => cases h

/-- The live session after the reducer operation of an action that keeps it. -/
private theorem openCards_op {s : CoreState} {key : String} {a : Action} {b : TabAction} {live : LiveSession}
    (hl : (s.tab key).live = some live) (hon : s.onTab key a = some b) (hb : b.keeps = true) (requestId : String) :
    (s.act a).1.openCards key requestId =
      (live.reducer.performOption ((s.tab key).op live key b)).1.state.unresolved requestId := by
  have hlive : ((s.act a).1.tab key).live = some ⟨b.liveSid live.liveSid,
      (live.reducer.performOption ((s.tab key).op live key b)).1, b.watermark live.lastSeenSeq,
      b.historyEpoch live.historyEpoch⟩ := by
    rw [tab_act, hon]
    exact Tab.live_act hl key hb
  exact openCards_live hlive requestId

omit [Serializer] in
private theorem sessionId_of_resolve {s : CoreState} {sessionId key : String} (h : s.resolve sessionId = some key) :
    sessionId ≠ "" := by
  rintro rfl
  cases h

/-- A request that is asked for gets one more card. -/
theorem openCards_adds {s : CoreState} {key requestId : String} {a : Action} (h : s.AddsCard key requestId a) :
    (s.act a).1.openCards key requestId = s.openCards key requestId + 1 := by
  cases a with
  | deliver ev =>
    obtain ⟨hres, hopen, hkind, rfl, hid⟩ := h
    obtain ⟨live, hl⟩ := live_of_mem hopen
    have hon : s.onTab key (.deliver ev) = some (.deliver ev) := if_pos hres
    rw [openCards_op hl hon rfl, openCards_live hl]
    exact Reducer.apply_unresolved_asked live.reducer ev (sessionId_of_resolve hres) hkind hid
  | reemitCard key' card =>
    obtain ⟨rfl, hkey, hopen, rfl, hid, hemitted, hzero⟩ := h
    obtain ⟨live, hl⟩ := live_of_mem hopen
    have hon : s.onTab key' (.reemitCard key' card) = some (.reemitCard card) := if_pos rfl
    rw [openCards_live hl] at hzero
    have hnone : ¬ live.reducer.hasUnresolvedApproval (card.strAt "request_id") = true := by
      rw [Reducer.hasUnresolvedApproval_iff]
      omega
    have hop : (s.tab key').op live key' (.reemitCard card) =
        some (.applyApprovalCard key' (card.strAt "request_id") card) :=
      if_neg (not_or.2 ⟨hid, not_or.2 ⟨by rw [hemitted]; exact Bool.false_ne_true, hnone⟩⟩)
    rw [openCards_op hl hon rfl, openCards_live hl, hop]
    exact Reducer.applyApprovalCard_unresolved live.reducer hkey hid rfl
  | _ => cases h

/-- An answer closes one card of its request. -/
theorem openCards_answered (s : CoreState) (key requestId : String) :
    (s.act (.respondApproval key requestId)).1.openCards key requestId = s.openCards key requestId - 1 := by
  have hon : s.onTab key (.respondApproval key requestId) = some (.respondApproval requestId) := if_pos rfl
  cases hl : (s.tab key).live with
  | none =>
    have hnone : ((s.act (.respondApproval key requestId)).1.tab key).live = none := by
      rw [tab_act, hon]
      exact (Tab.act_none hl key rfl).1
    rw [openCards_none hnone, openCards_none hl]
  | some live =>
    rw [openCards_op hl hon rfl, openCards_live hl]
    exact Reducer.resolveApproval_unresolved live.reducer key requestId

/-- What made one card more was asked for. -/
private theorem addsCard_of_more {s : CoreState} (hwf : s.WellFormed) {key requestId : String} {a : Action}
    {b : TabAction} {live : LiveSession} (hl : (s.tab key).live = some live) (hon : s.onTab key a = some b)
    (hasks : b.asks = some requestId)
    (hmore : (live.reducer.performOption ((s.tab key).op live key b)).1.state.unresolved requestId =
      live.reducer.state.unresolved requestId + 1) : s.AddsCard key requestId a := by
  have hopen : key ∈ s.sessions := AList.lookup_isSome.1 (Option.isSome_iff_exists.2 ⟨live, hl⟩)
  cases b with
  | deliver ev =>
    obtain ⟨rfl, hres⟩ := onTab_deliver hon
    rcases Reducer.apply_unresolved (hwf key live hl) ev requestId with hsame | ⟨hkind, hid, hne, -⟩
    · exact absurd (hsame.symm.trans hmore) (Nat.ne_of_lt (Nat.lt_succ_self _))
    · exact ⟨hres, hopen, hkind, hid, hne⟩
  | reemitCard card =>
    obtain rfl := onTab_reemitCard hon
    cases hasks
    unfold Tab.op at hmore
    dsimp only at hmore
    split at hmore
    · exact absurd hmore (Nat.ne_of_lt (Nat.lt_succ_self _))
    · rename_i hnot
      obtain ⟨hid, hemitted, hnone⟩ := not_or.1 hnot |>.imp id not_or.1
      refine ⟨rfl, ?_, hopen, rfl, hid, by simpa using hemitted, ?_⟩
      · rintro rfl
        change (live.reducer.perform (.applyApprovalCard "" _ card)).1.state.unresolved _ = _ at hmore
        rw [Reducer.perform_applyApprovalCard, if_neg hid] at hmore
        exact absurd hmore (Nat.ne_of_lt (Nat.lt_succ_self _))
      · rw [openCards_live hl]
        rw [Reducer.hasUnresolvedApproval_iff] at hnone
        omega
  | _ => cases hasks

/-- Nothing else changes the number of open cards. -/
theorem openCards_kept {s : CoreState} (hwf : s.WellFormed) {key requestId : String} {a : Action}
    (hreplace : a.replaces key = false) (hadds : ¬ s.AddsCard key requestId a)
    (hanswer : a ≠ .respondApproval key requestId) :
    (s.act a).1.openCards key requestId = s.openCards key requestId := by
  have htab := tab_act s key a
  cases hon : s.onTab key a with
  | none =>
    rw [hon] at htab
    unfold openCards
    rw [htab]
    rfl
  | some b =>
    obtain ⟨hkeeps, hrebuild⟩ := onTab_kept hreplace hon
    cases hl : (s.tab key).live with
    | none =>
      have hnone : ((s.act a).1.tab key).live = none := by
        rw [tab_act, hon]
        exact (Tab.act_none hl key hkeeps).1
      rw [openCards_none hnone, openCards_none hl]
    | some live =>
      have hb : b ≠ .respondApproval requestId := by
        rintro rfl
        exact hanswer (onTab_respondApproval hon)
      rw [openCards_op hl hon hkeeps, openCards_live hl]
      rcases Tab.unresolved_act hl (hwf key live hl) key hkeeps hrebuild hb (Tab.live_act hl key hkeeps) with
        hsame | ⟨hasks, -, hmore⟩
      · exact hsame
      · exact absurd (addsCard_of_more hwf hl hon hasks hmore) hadds

/-! ### Runs -/

/-- `respond_approval` closed a card of the request on this transcript. -/
def Answered (registry : SessionRegistry) (key requestId : String) : List Action → Prop :=
  Run.Since
    (fun before a => a = .respondApproval key requestId ∧ 0 < ((new registry).run before).openCards key requestId)
    (fun a => a.replaces key = true)

/-- At most one card of each request is open, and none of an answered one. -/
def OneOpenCard (registry : SessionRegistry) (key : String) (before : List Action) : Prop :=
  ∀ requestId, ((new registry).run before).openCards key requestId ≤ 1 ∧
    (Answered registry key requestId before → ((new registry).run before).openCards key requestId = 0)

/-- The action asks for no request whose card is open or was answered on this transcript. -/
def AsksOnce (registry : SessionRegistry) (key : String) (before : List Action) (a : Action) : Prop :=
  ∀ requestId, ((new registry).run before).AddsCard key requestId a →
    ((new registry).run before).openCards key requestId = 0 ∧ ¬ Answered registry key requestId before

omit [Serializer] in
private theorem addsCard_keeps {s : CoreState} {key requestId : String} {a : Action} (h : s.AddsCard key requestId a) :
    a.replaces key = false ∧ ∀ requestId', a ≠ .respondApproval key requestId' := by
  cases a with
  | deliver ev => exact ⟨rfl, fun _ heq => by cases heq⟩
  | reemitCard key' card => exact ⟨rfl, fun _ heq => by cases heq⟩
  | _ => cases h

private theorem run_snoc (s : CoreState) (before : List Action) (a : Action) :
    s.run (before ++ [a]) = ((s.run before).act a).1 := by
  rw [run_append]
  rfl

/-- One action: the cards of a request stay in order exactly when it is asked for at the right time. -/
private theorem request_step {registry : SessionRegistry} {key requestId : String} {before : List Action} (a : Action)
    (hone : ((new registry).run before).openCards key requestId ≤ 1)
    (hanswered : Answered registry key requestId before → ((new registry).run before).openCards key requestId = 0) :
    (((new registry).run (before ++ [a])).openCards key requestId ≤ 1 ∧
        (Answered registry key requestId (before ++ [a]) →
          ((new registry).run (before ++ [a])).openCards key requestId = 0)) ↔
      (((new registry).run before).AddsCard key requestId a →
        ((new registry).run before).openCards key requestId = 0 ∧ ¬ Answered registry key requestId before) := by
  have hwf : ((new registry).run before).WellFormed := (wellFormed_new registry).run before
  unfold Answered at hanswered ⊢
  rw [Run.since_snoc, run_snoc]
  generalize (new registry).run before = s at *
  by_cases hadds : s.AddsCard key requestId a
  · obtain ⟨hreplace, hrespond⟩ := addsCard_keeps hadds
    rw [openCards_adds hadds, hreplace]
    simp only [hrespond, hadds, Bool.false_eq_true, not_false_eq_true, and_true, false_and, false_or, true_implies]
    constructor
    · rintro ⟨hle, hzero⟩
      exact ⟨by omega, fun hsince => absurd (hzero hsince) (Nat.succ_ne_zero _)⟩
    · rintro ⟨hzero, hsince⟩
      exact ⟨by omega, fun h => absurd h hsince⟩
  · refine iff_of_true ?_ (absurd · hadds)
    by_cases hreplace : a.replaces key = true
    · rw [openCards_replaced s hreplace]
      exact ⟨Nat.zero_le 1, fun _ => rfl⟩
    · by_cases hrespond : a = .respondApproval key requestId
      · subst hrespond
        rw [openCards_answered]
        exact ⟨by omega, fun _ => by omega⟩
      · rw [openCards_kept hwf (by simpa using hreplace) hadds hrespond]
        refine ⟨hone, ?_⟩
        rintro (⟨hrespond', -⟩ | ⟨hsince, -⟩)
        · exact absurd hrespond' hrespond
        · exact hanswered hsince

/-- Along every run, a session has at most one open card for each request, and none for one that was answered on its
transcript, if and only if nothing asks for a request whose card is open or was answered there. -/
theorem oneOpenCard_iff (registry : SessionRegistry) (key : String) (actions : List Action) :
    (∀ before, before <+: actions → OneOpenCard registry key before) ↔
      ∀ before a, before ++ [a] <+: actions → AsksOnce registry key before a := by
  refine Run.prefixes_iff ?_ ?_ actions
  · intro requestId
    exact ⟨Nat.zero_le 1, fun h => absurd h (Run.not_since_nil _ _)⟩
  · intro before a h
    exact forall_congr' fun requestId => request_step a (h requestId).1 (h requestId).2

end CoreState

end

section

attribute [local instance] Serializer.compact

private def approvalChat : Action := .openSession (.created ⟨"live", "chat", ""⟩) none 80

private def approvalCall : Action :=
  .deliver ⟨"approval.request", "live", some 1, .object [("request_id", .string "r1"), ("command", .string "rm")]⟩

private def approvalPending : Action := .reemitCard "chat" (.object [("request_id", .string "r1")])

private def approvalAnswer : Action := .respondApproval "chat" "r1"

/-- A request that is replayed gets a second card, and one that was answered is open again when it is replayed or
re-emitted. -/
theorem replay_asks_again :
    ¬ CoreState.OneOpenCard {} "chat" [approvalChat, approvalCall, approvalCall] ∧
      ¬ CoreState.OneOpenCard {} "chat" [approvalChat, approvalCall, approvalAnswer, approvalCall] ∧
      ¬ CoreState.OneOpenCard {} "chat" [approvalChat, approvalCall, approvalAnswer, approvalPending] := by
  have htwo : ((CoreState.new {}).run [approvalChat, approvalCall, approvalCall]).openCards "chat" "r1" = 2 := rfl
  have hreplayed : ((CoreState.new {}).run
      [approvalChat, approvalCall, approvalAnswer, approvalCall]).openCards "chat" "r1" = 1 := rfl
  have hreemitted : ((CoreState.new {}).run
      [approvalChat, approvalCall, approvalAnswer, approvalPending]).openCards "chat" "r1" = 1 := rfl
  have hanswered : ∀ a, CoreState.Answered {} "chat" "r1" [approvalChat, approvalCall, approvalAnswer] →
      a.replaces "chat" = false →
        CoreState.Answered {} "chat" "r1" ([approvalChat, approvalCall, approvalAnswer] ++ [a]) := by
    intro a h ha
    exact (Run.since_snoc _ a).2 (.inr ⟨h, by simp [ha]⟩)
  have hanswer : CoreState.Answered {} "chat" "r1" [approvalChat, approvalCall, approvalAnswer] :=
    ⟨[approvalChat, approvalCall], approvalAnswer, [], rfl, ⟨rfl, by decide⟩, nofun⟩
  refine ⟨fun h => ?_, fun h => ?_, fun h => ?_⟩
  · have hle := (h "r1").1
    rw [htwo] at hle
    omega
  · have hzero := (h "r1").2 (hanswered approvalCall hanswer rfl)
    rw [hreplayed] at hzero
    omega
  · have hzero := (h "r1").2 (hanswered approvalPending hanswer rfl)
    rw [hreemitted] at hzero
    omega

end

end Hermo
