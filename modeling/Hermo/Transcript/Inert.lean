import Hermo.Transcript.Invariant

/-!
# Events without an effect

The reducer has no memory of what it was fed: whether an event does anything depends on its payload and on the open
latches only.  `Inert` lists these cases kind by kind, and `handle_inert_iff` says that they are exactly the ones
in which no change is reported; the reducer is then left as it is.
-/

namespace Hermo

namespace Reducer

private theorem mergeHeader_empty (r : Reducer) : r.mergeHeader {} = (r, []) := rfl

private theorem mergeHeader_changes {r : Reducer} {info : SessionHeader} (h : (r.mergeHeader info).2 = []) :
    info = {} := by
  unfold mergeHeader at h
  split at h
  · rename_i hempty
    obtain ⟨h1, h2, h3, h4, h5⟩ := hempty
    cases info
    simp_all
  · cases h

private theorem appendStreamingText_changes {r : Reducer} {text : String} (h : (r.appendStreamingText text).2 = []) :
    text = "" := by
  unfold appendStreamingText at h
  split at h
  · assumption
  · dsimp only at h
    split at h
    · split at h <;> cases h
    · cases h

private theorem onToolProgress_changes {r : Reducer} (hr : r.WellFormed) {payload : Value}
    (h : (r.onToolProgress payload).2 = []) :
    payload.strAt "preview" = "" ∨ r.tools.lookup (payload.strAt "tool_id") = none := by
  unfold onToolProgress at h
  dsimp only at h
  split at h
  · exact .inl (by assumption)
  · split at h
    · exact .inr (by assumption)
    · rename_i index hl
      -- a known id points at a tool row, so the card would have been updated
      obtain ⟨card, hk, -⟩ := (hr.tools _ _ hl).2.tool
      rw [hk] at h
      cases h

private theorem onApprovalRequest_changes {r : Reducer} {payload : Value} (h : (r.onApprovalRequest payload).2 = []) :
    payload.strAt "request_id" = "" := by
  unfold onApprovalRequest at h
  split at h
  · assumption
  · cases h

variable [Serializer]

/-- The cases in which an event of kind `k` does nothing. -/
def Inert (r : Reducer) (payload : Value) : EventKind → Prop
  | .messageStart | .thinkingDelta | .toolGenerating | .error => False
  | .messageDelta => payload.strAt "text" = ""
  | .messageInterim => r.streaming = none
  | .messageComplete => payload.isObject = false ∨ r.streaming = none
  | .toolStart => payload.strAt "tool_id" = ""
  | .toolProgress => payload.strAt "preview" = "" ∨ r.tools.lookup (payload.strAt "tool_id") = none
  | .toolComplete => r.tools.lookup (payload.strAt "tool_id") = none
  | .statusUpdate => payload.strAt "kind" = "" ∨ StatusKind.parse (payload.strAt "kind") = .heartbeat
  | .approvalRequest => payload.strAt "request_id" = ""
  | .clarifyRequest => clarifyQuestions payload = []
  | .sessionInfo => infoHeader payload = {}
  | .sessionTitle => titleHeader payload = {}
  | .unknown => True

/-- An inert event leaves the reducer as it is and reports nothing. -/
theorem handle_of_inert {r : Reducer} {payload : Value} {k : EventKind} (h : r.Inert payload k) :
    r.handle k payload = (r, []) := by
  cases k <;> simp only [Inert] at h
  case messageDelta => simp [handle, onMessageDelta, appendStreamingText, h]
  case messageInterim => simp [handle, onMessageInterim, h]
  case messageComplete =>
    rcases h with h | h
    · simp [handle, onMessageComplete, h]
    · unfold handle onMessageComplete
      dsimp only
      rw [h]
      split <;> rfl
  case toolStart => simp [handle, onToolStart, h]
  case toolProgress =>
    unfold handle onToolProgress
    dsimp only
    split
    · rfl
    · rw [h.resolve_left (by assumption)]
  case toolComplete => simp [handle, onToolComplete, h]
  case statusUpdate =>
    unfold handle onStatusUpdate
    dsimp only
    split
    · rfl
    · rw [if_pos (h.resolve_left (by assumption))]
  case approvalRequest => simp [handle, onApprovalRequest, h]
  case clarifyRequest => simp [handle, onClarifyRequest, h]
  case sessionInfo =>
    unfold handle onSessionInfo
    rw [h]
    exact mergeHeader_empty r
  case sessionTitle =>
    unfold handle onSessionTitle
    rw [h]
    exact mergeHeader_empty r
  case unknown => rfl

private theorem onToolStart_changes {r : Reducer} {payload : Value} (h : (r.onToolStart payload).2 = []) :
    payload.strAt "tool_id" = "" := by
  unfold onToolStart at h
  dsimp only at h
  split at h
  · assumption
  · split at h
    · cases h
    · split at h <;> cases h

/-- An event that reports nothing is inert. -/
theorem inert_of_handle {r : Reducer} (hr : r.WellFormed) {payload : Value} {k : EventKind}
    (h : (r.handle k payload).2 = []) : r.Inert payload k := by
  cases k
  case messageStart => cases h
  case messageDelta => exact appendStreamingText_changes h
  case messageInterim =>
    unfold Inert
    cases hs : r.streaming with
    | none => rfl
    | some index => simp [handle, onMessageInterim, hs] at h
  case messageComplete =>
    unfold Inert
    unfold handle onMessageComplete at h
    dsimp only at h
    split at h
    · exact .inl (by assumption)
    · split at h
      · cases h
      · exact .inr (by assumption)
  case thinkingDelta =>
    unfold handle onThinkingDelta at h
    dsimp only at h
    split at h
    · split at h <;> cases h
    · cases h
  case toolGenerating => cases h
  case toolStart => exact onToolStart_changes h
  case toolProgress => exact onToolProgress_changes hr h
  case toolComplete =>
    unfold Inert
    unfold handle onToolComplete at h
    dsimp only at h
    split at h
    · cases h
    · assumption
  case statusUpdate =>
    unfold Inert
    unfold handle onStatusUpdate at h
    dsimp only at h
    split at h
    · exact .inl (by assumption)
    · split at h
      · exact .inr (by assumption)
      · cases h
  case approvalRequest => exact onApprovalRequest_changes h
  case clarifyRequest =>
    unfold Inert
    unfold handle onClarifyRequest at h
    dsimp only at h
    split at h
    · assumption
    · cases h
  case sessionInfo => exact mergeHeader_changes h
  case sessionTitle => exact mergeHeader_changes h
  case error => cases h
  case unknown => trivial

/-- An event changes the transcript or reports something exactly when it is not inert. -/
theorem handle_inert_iff {r : Reducer} (hr : r.WellFormed) (payload : Value) (k : EventKind) :
    (r.handle k payload).2 = [] ↔ r.Inert payload k :=
  ⟨inert_of_handle hr, fun h => by rw [handle_of_inert h]⟩

end Reducer

end Hermo
