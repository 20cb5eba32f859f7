import Hermo.Transcript.Moves

/-!
# Unresolved approval cards

`unresolved` counts the unresolved cards of one request on a transcript.  Only three things move the count of a
request: an `approval.request` event for it, its own answer, and a history that replaces the transcript, which has no
approval cards at all.
-/

namespace Hermo

open Reducer (isUnresolvedApproval)

/-- The number of unresolved approval cards of a request. -/
def Transcript.unresolved (t : Transcript) (requestId : String) : Nat :=
  t.rows.countP fun row => isUnresolvedApproval requestId row.kind

namespace Transcript

/-- Only the element that is modified counts differently. -/
theorem countP_modify {α : Type} (p : α → Bool) (f : α → α) {l : List α} {i : Nat} {x : α} (h : l[i]? = some x) :
    (l.modify i f).countP p + (if p x then 1 else 0) = l.countP p + if p (f x) then 1 else 0 := by
  induction l generalizing i with
  | nil => cases h
  | cons y l ih =>
    cases i with
    | zero =>
      cases h
      simp only [List.modify_zero_cons, List.countP_cons]
      omega
    | succ i =>
      have hrest := ih (i := i) (by simpa using h)
      simp only [List.modify_succ_cons, List.countP_cons]
      omega

theorem unresolved_push (t : Transcript) (kind : RowKind) (requestId : String) :
    (t.push kind).unresolved requestId =
      t.unresolved requestId + if isUnresolvedApproval requestId kind then 1 else 0 := by
  unfold unresolved
  rw [push_rows, List.countP_append, List.countP_singleton]

theorem unresolved_revise (t : Transcript) (i : Nat) (f : RowKind → RowKind) (requestId : String)
    (h : ∀ kind, t.kindOf i = some kind →
      isUnresolvedApproval requestId (f kind) = isUnresolvedApproval requestId kind) :
    (t.revise i f).unresolved requestId = t.unresolved requestId := by
  unfold unresolved
  rw [revise_rows]
  cases hrow : t.rows[i]? with
  | none => rw [List.modify_eq_self (List.getElem?_eq_none_iff.1 hrow)]
  | some row =>
    have hsame := h row.kind (by rw [kindOf, hrow, Option.map_some])
    have hcount := countP_modify (fun row => isUnresolvedApproval requestId row.kind)
      (fun row => { row with kind := f row.kind }) hrow
    simp only [hsame] at hcount
    omega

/-- A card that is resolved is not counted any more. -/
theorem unresolved_settle {t : Transcript} {i : Nat} {kind : RowKind} (hk : t.kindOf i = some kind)
    (f : RowKind → RowKind) {requestId : String} (hopen : isUnresolvedApproval requestId kind = true)
    (hclosed : isUnresolvedApproval requestId (f kind) = false) :
    (t.revise i f).unresolved requestId + 1 = t.unresolved requestId := by
  obtain ⟨row, hrow, rfl⟩ := Option.map_eq_some_iff.1 hk
  have hcount := countP_modify (fun row => isUnresolvedApproval requestId row.kind)
    (fun row => { row with kind := f row.kind }) hrow
  simp only [hopen, hclosed, if_true, Bool.false_eq_true, if_false] at hcount
  unfold unresolved
  rw [revise_rows]
  omega

end Transcript

/-- A handler adds a card only when the event asks for it. -/
theorem Effect.unresolved {k : EventKind} {payload : Value} {t t' : Transcript} {changes : List TranscriptChange}
    (h : Effect (k.Opens payload) t t' changes) (requestId : String) :
    t'.unresolved requestId = t.unresolved requestId ∨
      (k = .approvalRequest ∧ payload.strAt "request_id" = requestId ∧ requestId ≠ "" ∧
        t'.unresolved requestId = t.unresolved requestId + 1) := by
  cases h with
  | quiet => exact .inl rfl
  | header info => exact .inl rfl
  | revise i old new hk hr =>
    refine .inl (t.unresolved_revise i _ requestId ?_)
    intro kind hkind
    rw [hk, Option.some_inj] at hkind
    subst hkind
    cases hr <;> rfl
  | push kind hopens =>
    rw [t.unresolved_push kind requestId]
    by_cases hkind : isUnresolvedApproval requestId kind = true
    · cases kind with
      | approval card =>
        obtain ⟨hk, rfl, hne⟩ := hopens
        have hid : (Reducer.approvalCard payload).requestId = requestId := by
          unfold isUnresolvedApproval at hkind
          simp only [Bool.and_eq_true, beq_iff_eq] at hkind
          exact hkind.1
        exact .inr ⟨hk, hid, hid ▸ hne, by rw [if_pos hkind]⟩
      | _ => cases hkind
    · rw [if_neg hkind]
      exact .inl rfl

/-- The request an operation asks for. -/
def Op.asks : Op → Option String
  | .apply ev => if EventKind.parse ev.eventType = .approvalRequest then some (ev.payload.strAt "request_id") else none
  | .applyApprovalCard _ requestId _ => some requestId
  | _ => none

/-- The request an operation answers. -/
def Op.answers : Op → Option String
  | .resolveApproval _ requestId => some requestId
  | _ => none

namespace Reducer

theorem hasUnresolvedApproval_iff (r : Reducer) (requestId : String) :
    r.hasUnresolvedApproval requestId = true ↔ 0 < r.state.unresolved requestId := by
  unfold hasUnresolvedApproval Transcript.unresolved
  rw [List.any_eq_true, List.countP_pos_iff]

private theorem resolveCard_unresolved (r : Reducer) (pred : RowKind → Bool) (settle : RowKind → RowKind) (key : String)
    (requestId : String)
    (h : ∀ kind, pred kind → isUnresolvedApproval requestId (settle kind) = isUnresolvedApproval requestId kind) :
    (r.resolveCard pred settle key).1.state.unresolved requestId = r.state.unresolved requestId := by
  rcases r.resolveCard_cases pred settle key with ⟨-, hsame⟩ | ⟨i, found, -, hfound, hpred, hsettled⟩
  · rw [hsame]
  · rw [hsettled]
    refine r.state.unresolved_revise i settle requestId ?_
    intro kind hkind
    rw [Option.some_inj.1 (hkind.symm.trans hfound)]
    exact h found hpred

/-- An answer closes one card. -/
theorem resolveApproval_unresolved (r : Reducer) (key requestId : String) :
    (r.resolveApproval key requestId).1.state.unresolved requestId = r.state.unresolved requestId - 1 := by
  unfold resolveApproval
  rcases r.resolveCard_cases (isUnresolvedApproval requestId) settleApproval key with ⟨hfind, hsame⟩ |
    ⟨i, kind, -, hkind, hopen, hsettled⟩
  · have hnone : ¬ 0 < r.state.unresolved requestId := by
      rw [← hasUnresolvedApproval_iff]
      unfold hasUnresolvedApproval
      unfold find at hfind
      rw [List.findIdx?_eq_none_iff] at hfind
      simpa using hfind
    rw [hsame]
    dsimp only
    omega
  · have hclosed : isUnresolvedApproval requestId (settleApproval kind) = false := by
      cases kind with
      | approval card => simp [settleApproval, isUnresolvedApproval]
      | _ => rfl
    have hcount := Transcript.unresolved_settle hkind settleApproval hopen hclosed
    rw [hsettled]
    dsimp only
    omega

private theorem messageKind_resolved (msg : Value) (requestId : String) :
    isUnresolvedApproval requestId (messageKind msg) = false := by
  unfold messageKind
  dsimp only
  split <;> rfl

private theorem ingestMessage_unresolved {acc : Reducer × List TranscriptChange} {requestId : String}
    (h : acc.1.state.unresolved requestId = 0) (msg : Value) :
    (ingestMessage acc msg).1.state.unresolved requestId = 0 := by
  unfold ingestMessage
  dsimp only
  split
  · exact h
  · dsimp only
    rw [Transcript.unresolved_push, h, messageKind_resolved]
    rfl

/-- A history has no approval cards. -/
theorem ingestResumeMessages_unresolved (r : Reducer) (key : String) (messages : List Value) (requestId : String) :
    (r.ingestResumeMessages key messages).1.state.unresolved requestId = 0 := by
  have hfold : ∀ acc : Reducer × List TranscriptChange, acc.1.state.unresolved requestId = 0 →
      (messages.foldl ingestMessage acc).1.state.unresolved requestId = 0 := by
    induction messages with
    | nil => exact fun acc h => h
    | cons msg messages ih => exact fun acc h => ih _ (ingestMessage_unresolved h msg)
  exact hfold ({}, [.reset]) rfl

section

variable [Serializer]

/-- An event adds a card only when it asks for it. -/
theorem apply_unresolved {r : Reducer} (hr : r.WellFormed) (ev : EventParams) (requestId : String) :
    (r.apply ev).1.state.unresolved requestId = r.state.unresolved requestId ∨
      (EventKind.parse ev.eventType = .approvalRequest ∧ ev.payload.strAt "request_id" = requestId ∧
        requestId ≠ "" ∧ (r.apply ev).1.state.unresolved requestId = r.state.unresolved requestId + 1) := by
  unfold apply
  split
  · exact .inl rfl
  · exact (handle_effect hr (.parse ev.eventType) ev.payload).unresolved requestId

/-- Only asking for a request adds a card of it, as long as it is not answered. -/
theorem perform_unresolved {r : Reducer} (hr : r.WellFormed) {o : Op} (ho : o.replaces = false) {requestId : String}
    (ha : o.answers ≠ some requestId) :
    (r.perform o).1.state.unresolved requestId = r.state.unresolved requestId ∨
      (o.asks = some requestId ∧ (r.perform o).1.state.unresolved requestId = r.state.unresolved requestId + 1) := by
  cases o with
  | apply ev =>
    rcases apply_unresolved hr ev requestId with h | ⟨hkind, hid, -, h⟩
    · exact .inl h
    · refine .inr ⟨?_, h⟩
      unfold Op.asks
      dsimp only
      rw [if_pos hkind, hid]
  | resolveApproval key id =>
    refine .inl (resolveCard_unresolved r _ _ key requestId ?_)
    intro kind hkind
    cases kind with
    | approval card =>
      have hid : card.requestId = id := by
        unfold isUnresolvedApproval at hkind
        simp only [Bool.and_eq_true, beq_iff_eq] at hkind
        exact hkind.1
      have hne : card.requestId ≠ requestId := fun h => ha (by rw [← h, hid]; rfl)
      simp [settleApproval, isUnresolvedApproval, hne]
    | _ => rfl
  | resolveClarify key id =>
    refine .inl (resolveCard_unresolved r _ _ key requestId ?_)
    intro kind hkind
    cases kind <;> rfl
  | appendUserRow key text => exact .inl (r.state.unresolved_push (.user text) requestId)
  | applyApprovalCard key id card =>
    rw [perform_applyApprovalCard]
    split
    · exact .inl rfl
    · rcases apply_unresolved hr ⟨"approval.request", key, none, card.setField "request_id" (.string id)⟩ requestId
        with h | ⟨-, hid, hne, h⟩
      · exact .inl h
      · refine .inr ⟨?_, h⟩
        cases hobject : card.isObject with
        | true =>
          rw [Value.strAt_setField hobject] at hid
          rw [← hid]
          rfl
        | false =>
          -- a card that is no object has no id to overwrite
          have hsame : card.setField "request_id" (.string id) = card := by
            cases card <;> first | rfl | cases hobject
          rw [hsame, Value.strAt_of_not_isObject hobject] at hid
          exact absurd hid.symm hne
  | ingestResumeMessages => cases ho
  | resetFromResume => cases ho

/-- A request that names its id is shown. -/
theorem apply_unresolved_asked (r : Reducer) (ev : EventParams) (hsid : ev.sessionId ≠ "")
    (hkind : EventKind.parse ev.eventType = .approvalRequest) (hid : ev.payload.strAt "request_id" ≠ "") :
    (r.apply ev).1.state.unresolved (ev.payload.strAt "request_id") =
      r.state.unresolved (ev.payload.strAt "request_id") + 1 := by
  unfold apply
  rw [if_neg hsid, hkind]
  dsimp only [handle]
  unfold onApprovalRequest
  rw [if_neg hid]
  dsimp only
  rw [Transcript.unresolved_push, if_pos]
  simp [approvalCard, isUnresolvedApproval]

/-- A card of `approval.pending` is shown. -/
theorem applyApprovalCard_unresolved (r : Reducer) {key requestId : String} {card : Value} (hkey : key ≠ "")
    (hid : requestId ≠ "") (hcard : card.strAt "request_id" = requestId) :
    (r.applyApprovalCard key requestId card).1.state.unresolved requestId = r.state.unresolved requestId + 1 := by
  have hobject : card.isObject = true := by
    by_contra hno
    rw [Value.strAt_of_not_isObject (by simpa using hno)] at hcard
    exact hid hcard.symm
  have hpayload := Value.strAt_setField hobject "request_id" requestId
  have hasked := apply_unresolved_asked r
    ⟨"approval.request", key, none, card.setField "request_id" (.string requestId)⟩ hkey rfl
    (by rw [hpayload]; exact hid)
  unfold applyApprovalCard
  rw [if_neg hid]
  rwa [hpayload] at hasked

end

end Reducer

end Hermo
