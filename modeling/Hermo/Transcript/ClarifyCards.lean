import Hermo.Transcript.Approvals

/-!
# Clarify cards under their answers

`resolve_clarify` closes the first open card of its request, so a card is closed by the first answer unless other
open cards of the request stand before it.  `CardAt` is a card with the number of these, `perform_cardAt` says that
nothing else touches it, and `resolveClarify_cardAt` what an answer does.
-/

namespace Hermo

open Reducer (isUnresolvedClarify)

namespace Transcript

/-- The number of open clarify cards of a request before row `i`. -/
def openBefore (t : Transcript) (requestId : String) (i : Nat) : Nat :=
  (t.rows.take i).countP fun row => isUnresolvedClarify requestId row.kind

/-- Row `i` is a clarify card of the request, with `ahead` open ones before it. -/
def CardAt (t : Transcript) (requestId : String) (i : Nat) (resolved : Bool) (ahead : Nat) : Prop :=
  ∃ card, t.kindOf i = some (.clarify card) ∧ card.requestId = requestId ∧ card.resolved = resolved ∧
    t.openBefore requestId i = ahead

/-- A row that is no open card of the request before and after is not counted. -/
theorem openBefore_revise {t : Transcript} {j : Nat} (f : RowKind → RowKind) {requestId : String}
    (h : ∀ kind, t.kindOf j = some kind →
      isUnresolvedClarify requestId (f kind) = isUnresolvedClarify requestId kind) (i : Nat) :
    (t.revise j f).openBefore requestId i = t.openBefore requestId i := by
  unfold openBefore
  rw [revise_rows, List.take_modify]
  cases hrow : (t.rows.take i)[j]? with
  | none => rw [List.modify_eq_self (List.getElem?_eq_none_iff.1 hrow)]
  | some row =>
    have hfound : t.rows[j]? = some row := by
      rw [List.getElem?_take] at hrow
      exact (Option.ite_none_right_eq_some.1 hrow).2
    have hsame := h row.kind (by rw [kindOf, hfound, Option.map_some])
    have hcount := countP_modify (fun row => isUnresolvedClarify requestId row.kind)
      (fun row => { row with kind := f row.kind }) hrow
    simp only [hsame] at hcount
    omega

theorem CardAt.push {t : Transcript} {requestId : String} {i ahead : Nat} {resolved : Bool}
    (h : t.CardAt requestId i resolved ahead) (kind : RowKind) : (t.push kind).CardAt requestId i resolved ahead := by
  obtain ⟨card, hcard, hid, hresolved, hahead⟩ := h
  have hi := lt_of_kindOf hcard
  refine ⟨card, ?_, hid, hresolved, ?_⟩
  · rw [kindOf_push, if_neg (Nat.ne_of_lt hi), hcard]
  · unfold openBefore at hahead ⊢
    rw [push_rows, List.take_append_of_le_length (Nat.le_of_lt hi), hahead]

/-- Another row is revised, and stays what it is for the request. -/
theorem CardAt.revise {t : Transcript} {requestId : String} {i j ahead : Nat} {resolved : Bool}
    (h : t.CardAt requestId i resolved ahead) (hij : j ≠ i) (f : RowKind → RowKind)
    (hf : ∀ kind, t.kindOf j = some kind →
      isUnresolvedClarify requestId (f kind) = isUnresolvedClarify requestId kind) :
    (t.revise j f).CardAt requestId i resolved ahead := by
  obtain ⟨card, hcard, hid, hresolved, hahead⟩ := h
  refine ⟨card, ?_, hid, hresolved, ?_⟩
  · rw [kindOf_revise, if_neg hij, hcard]
  · rw [openBefore_revise f hf, hahead]

end Transcript

/-- No event touches a clarify card. -/
theorem Effect.cardAt {opens : RowKind → Prop} {t t' : Transcript} {changes : List TranscriptChange}
    (h : Effect opens t t' changes) {requestId : String} {i ahead : Nat} {resolved : Bool}
    (hcard : t.CardAt requestId i resolved ahead) : t'.CardAt requestId i resolved ahead := by
  cases h with
  | quiet => exact hcard
  | header info => exact hcard
  | push kind hopens => exact hcard.push kind
  | revise j old new hk hr =>
    refine hcard.revise ?_ _ ?_
    · rintro rfl
      obtain ⟨card, hclarify, -⟩ := hcard
      cases hk.symm.trans hclarify
      cases hr
    · intro kind hkind
      cases hk.symm.trans hkind
      cases hr <;> rfl

namespace Reducer

/-- The cards of other requests, and the approval cards, are answered without touching it. -/
private theorem resolveCard_cardAt {r : Reducer} {pred : RowKind → Bool} {settle : RowKind → RowKind} (key : String)
    {requestId : String} {i ahead : Nat} {resolved : Bool} (h : r.state.CardAt requestId i resolved ahead)
    (hpred : ∀ kind, pred kind = true →
      isUnresolvedClarify requestId kind = false ∧ isUnresolvedClarify requestId (settle kind) = false)
    (hother : ∀ card, card.requestId = requestId → pred (.clarify card) = false) :
    (r.resolveCard pred settle key).1.state.CardAt requestId i resolved ahead := by
  rcases r.resolveCard_cases pred settle key with ⟨-, hsame⟩ | ⟨j, kind, -, hkind, hp, hsettled⟩
  · rw [hsame]
    exact h
  · rw [hsettled]
    refine h.revise ?_ settle ?_
    · rintro rfl
      obtain ⟨card, hcard, hid, -⟩ := h
      cases hkind.symm.trans hcard
      rw [hother card hid] at hp
      cases hp
    · intro found hfound
      cases hkind.symm.trans hfound
      rw [(hpred kind hp).1, (hpred kind hp).2]

/-- No open card stands before the one that is found. -/
private theorem openBefore_of_find {r : Reducer} {requestId : String} {j : Nat}
    (h : r.find (isUnresolvedClarify requestId) = some j) {i : Nat} (hij : i ≤ j) :
    r.state.openBefore requestId i = 0 := by
  unfold find at h
  obtain ⟨hlt, -, hbefore⟩ := List.findIdx?_eq_some_iff_getElem.1 h
  unfold Transcript.openBefore
  rw [List.countP_eq_zero]
  intro row hrow
  obtain ⟨n, hn, rfl⟩ := List.mem_iff_getElem.1 hrow
  rw [List.length_take] at hn
  rw [List.getElem_take]
  exact hbefore n (by omega)

/-- A card that the search passes over is closed. -/
private theorem resolved_of_not_found {card : ClarifyCard} {requestId : String} (hid : card.requestId = requestId)
    (h : isUnresolvedClarify requestId (.clarify card) = false) : card.resolved = true := by
  simpa [isUnresolvedClarify, hid] using h

/-- An answer closes the first open card of its request: this one, or one before it. -/
theorem resolveClarify_cardAt {r : Reducer} (key : String) {requestId : String} {i ahead : Nat} {resolved : Bool}
    (h : r.state.CardAt requestId i resolved ahead) :
    (r.resolveClarify key requestId).1.state.CardAt requestId i (resolved || ahead == 0) (ahead - 1) := by
  obtain ⟨card, hcard, hid, hresolved, hahead⟩ := h
  obtain ⟨row, hrow, hkind⟩ := Option.map_eq_some_iff.1 hcard
  obtain ⟨hi, hget⟩ := List.getElem?_eq_some_iff.1 hrow
  unfold resolveClarify resolveCard
  cases hfind : r.find (isUnresolvedClarify requestId) with
  | none =>
    unfold find at hfind
    rw [List.findIdx?_eq_none_iff] at hfind
    have hclosed := resolved_of_not_found hid (hkind ▸ hfind row (List.mem_of_getElem? hrow))
    have hzero : ahead = 0 := by
      rw [← hahead]
      unfold Transcript.openBefore
      rw [List.countP_eq_zero]
      intro other hother
      simp [hfind other (List.mem_of_mem_take hother)]
    refine ⟨card, hcard, hid, ?_, ?_⟩
    · rw [← hresolved, hclosed]
      rfl
    · rw [hahead, hzero]
  | some j =>
    obtain ⟨found, hfound, hopen⟩ := kindOf_find hfind
    dsimp only
    rcases Nat.lt_trichotomy j i with hlt | rfl | hgt
    · -- a card before it takes the answer
      obtain ⟨other, hother, rfl⟩ := Option.map_eq_some_iff.1 hfound
      have hcount := Transcript.countP_modify (fun row => isUnresolvedClarify requestId row.kind)
        (fun row => { row with kind := settleClarify row.kind }) (l := r.state.rows.take i) (i := j) (x := other)
        (by rw [List.getElem?_take_of_lt hlt, hother])
      have hclosed : isUnresolvedClarify requestId (settleClarify other.kind) = false := by
        cases other.kind <;> simp [settleClarify, isUnresolvedClarify]
      simp only [hopen, hclosed, if_true, Bool.false_eq_true, if_false] at hcount
      rw [← List.take_modify, ← Transcript.revise_rows] at hcount
      have hafter : (r.state.revise j settleClarify).openBefore requestId i + 1 = ahead := by
        rw [← hahead]
        unfold Transcript.openBefore
        omega
      refine ⟨card, ?_, hid, ?_, ?_⟩
      · rw [Transcript.kindOf_revise, if_neg (Nat.ne_of_lt hlt), hcard]
      · have hne : (ahead == 0) = false := beq_false_of_ne (by omega)
        rw [hne, Bool.or_false, hresolved]
      · omega
    · -- the card itself
      have hzero : ahead = 0 := by
        rw [← hahead]
        exact openBefore_of_find hfind (Nat.le_refl j)
      refine ⟨{ card with resolved := true }, ?_, hid, ?_, ?_⟩
      · rw [Transcript.kindOf_revise, if_pos rfl, hcard]
        rfl
      · rw [hzero, beq_self_eq_true, Bool.or_true]
      · unfold Transcript.openBefore at hahead ⊢
        rw [Transcript.revise_rows, List.take_modify, List.modify_eq_self (by rw [List.length_take]; omega), hahead,
          hzero]
    · -- a card behind it, so this one is closed
      unfold find at hfind
      have hbefore := (List.findIdx?_eq_some_iff_getElem.1 hfind).2.2 i hgt
      have hclosed := resolved_of_not_found hid (by simpa [hget, hkind] using hbefore)
      have hzero : ahead = 0 := by
        rw [← hahead]
        exact openBefore_of_find hfind (Nat.le_of_lt hgt)
      refine ⟨card, ?_, hid, ?_, ?_⟩
      · rw [Transcript.kindOf_revise, if_neg (Nat.ne_of_gt hgt), hcard]
      · rw [← hresolved, hclosed]
        rfl
      · rw [hzero] at hahead ⊢
        unfold Transcript.openBefore at hahead ⊢
        rw [Transcript.revise_rows, List.take_modify, List.modify_eq_self (by rw [List.length_take]; omega), hahead]

section

variable [Serializer]

/-- No other operation touches the card. -/
theorem perform_cardAt {r : Reducer} (hr : r.WellFormed) {o : Op} (ho : o.replaces = false) {requestId : String}
    (ha : ∀ key, o ≠ .resolveClarify key requestId) {i ahead : Nat} {resolved : Bool}
    (h : r.state.CardAt requestId i resolved ahead) : (r.perform o).1.state.CardAt requestId i resolved ahead := by
  have happly : ∀ ev, (r.apply ev).1.state.CardAt requestId i resolved ahead := by
    intro ev
    unfold apply
    split
    · exact h
    · exact (handle_effect hr (.parse ev.eventType) ev.payload).cardAt h
  cases o with
  | apply ev => exact happly ev
  | resolveApproval key id =>
    refine resolveCard_cardAt key h ?_ (fun _ _ => rfl)
    intro kind hkind
    cases kind with
    | approval card => exact ⟨rfl, rfl⟩
    | _ => cases hkind
  | resolveClarify key id =>
    have hid : id ≠ requestId := fun heq => ha key (by rw [heq])
    refine resolveCard_cardAt key h ?_ ?_
    · intro kind hkind
      cases kind with
      | clarify card =>
        have hcard : card.requestId = id := by
          unfold isUnresolvedClarify at hkind
          simp only [Bool.and_eq_true, beq_iff_eq] at hkind
          exact hkind.1
        simp [settleClarify, isUnresolvedClarify, hcard, hid]
      | _ => cases hkind
    · intro card hcard
      simp [isUnresolvedClarify, hcard, Ne.symm hid]
  | appendUserRow key text => exact h.push (.user text)
  | applyApprovalCard key id card =>
    rw [perform_applyApprovalCard]
    split
    · exact h
    · exact happly _
  | ingestResumeMessages => cases ho
  | resetFromResume => cases ho

end

end Reducer

end Hermo
