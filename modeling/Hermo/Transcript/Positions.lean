import Mathlib.Data.List.Infix
import Hermo.Transcript.ChangeStream

/-!
# Rows keep their places

An operation that does not replace the transcript revises rows where they stand and pushes new ones at the end, so a
row has the same index as long as the transcript is not replaced.
-/

namespace Hermo

/-- The indexes of the rows, in order. -/
def Transcript.places (t : Transcript) : List Nat := t.rows.map Row.index

namespace Transcript

theorem places_push (t : Transcript) (kind : RowKind) : t.places <+: (t.push kind).places := by
  unfold places
  rw [push_rows, List.map_append]
  exact List.prefix_append _ _

theorem places_revise (t : Transcript) (i : Nat) (f : RowKind → RowKind) : (t.revise i f).places = t.places := by
  unfold places
  rw [revise_rows]
  apply List.ext_getElem?
  intro j
  rw [List.getElem?_map, List.getElem?_map, List.getElem?_modify]
  cases t.rows[j]? with
  | none => rfl
  | some row => by_cases h : i = j <;> simp [h]

end Transcript

/-- An event leaves the rows where they are. -/
theorem Effect.places {opens : RowKind → Prop} {t t' : Transcript} {changes : List TranscriptChange}
    (h : Effect opens t t' changes) : t.places <+: t'.places := by
  cases h with
  | quiet => exact List.prefix_refl _
  | header info => exact List.prefix_refl _
  | push kind hopens => exact t.places_push kind
  | revise i old new hk hr =>
    rw [t.places_revise]

namespace Reducer

private theorem resolveCard_places (r : Reducer) (pred : RowKind → Bool) (settle : RowKind → RowKind)
    (key : String) : (r.resolveCard pred settle key).1.state.places = r.state.places := by
  rcases r.resolveCard_cases pred settle key with ⟨-, hsame⟩ | ⟨i, -, -, -, -, hsettled⟩
  · rw [hsame]
  · rw [hsettled]
    exact r.state.places_revise i settle

variable [Serializer]

private theorem apply_places {r : Reducer} (hr : r.WellFormed) (ev : EventParams) :
    r.state.places <+: (r.apply ev).1.state.places := by
  unfold apply
  split
  · exact List.prefix_refl _
  · exact (handle_effect hr (.parse ev.eventType) ev.payload).places

/-- An operation that does not replace the transcript leaves the rows where they are. -/
theorem perform_places {r : Reducer} (hr : r.WellFormed) {o : Op} (ho : o.replaces = false) :
    r.state.places <+: (r.perform o).1.state.places := by
  cases o with
  | apply ev => exact apply_places hr ev
  | resolveApproval key requestId =>
    unfold perform resolveApproval
    rw [resolveCard_places]
  | resolveClarify key requestId =>
    unfold perform resolveClarify
    rw [resolveCard_places]
  | appendUserRow key text => exact r.state.places_push (.user text)
  | applyApprovalCard key requestId card =>
    rw [perform_applyApprovalCard]
    split
    · exact List.prefix_refl _
    · exact apply_places hr _
  | ingestResumeMessages => cases ho
  | resetFromResume => cases ho

end Reducer

end Hermo
