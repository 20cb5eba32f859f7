import Hermo.Transcript.Moves

/-!
# The representation of a reachable reducer

A handler that updates a row takes its position from a latch, from the tool map or from a search, and several of them
index `rows[i]` with no check.  `target` is that position, with the kind the handler expects there.  In a reachable
reducer the row exists and is of this kind, and an operation that keeps the transcript touches no other row.
-/

namespace Hermo

/-- The names `kind_at` gives. -/
def RowKind.name : RowKind → String
  | .user _ => "user"
  | .assistant .. => "assistant"
  | .thinking _ => "thinking"
  | .tool _ => "tool"
  | .approval _ => "approval"
  | .clarify _ => "clarify"
  | .status .. => "status"
  | .error _ => "error"

/-- `kind_at`, empty past the end. -/
def Transcript.kindAt (t : Transcript) (index : Nat) : String := ((t.kindOf index).map RowKind.name).getD ""

theorem Transcript.kindAt_eq {t : Transcript} {i : Nat} {kind : RowKind} (h : t.kindOf i = some kind) :
    t.kindAt i = kind.name := by
  unfold kindAt
  rw [h]
  rfl

/-- An update in place keeps the kind. -/
theorem Revises.name_eq {old new : RowKind} (h : Revises old new) : new.name = old.name := by
  cases h <;> rfl

namespace Reducer

/-- The row an event updates, and the kind its handler expects there. -/
def eventTarget (r : Reducer) (payload : Value) : EventKind → Option (Nat × String)
  | .messageDelta => if payload.strAt "text" = "" then none else r.streaming.map (·, "assistant")
  | .messageInterim => r.streaming.map (·, "assistant")
  | .messageComplete => if payload.isObject = false then none else r.streaming.map (·, "assistant")
  | .thinkingDelta => r.thinking.map (·, "thinking")
  | .toolStart =>
    if payload.strAt "tool_id" = "" then none
    else
      ((r.tools.lookup (payload.strAt "tool_id")).or (r.pendingGeneratingRow (payload.strAt "name"))).map (·, "tool")
  | .toolProgress =>
    if payload.strAt "preview" = "" then none else (r.tools.lookup (payload.strAt "tool_id")).map (·, "tool")
  | .toolComplete => (r.tools.lookup (payload.strAt "tool_id")).map (·, "tool")
  | _ => none

/-- The row an operation updates in place. -/
def target (r : Reducer) : Op → Option (Nat × String)
  | .apply event => if event.sessionId = "" then none else r.eventTarget event.payload (.parse event.eventType)
  | .resolveApproval _ requestId => (r.find (isUnresolvedApproval requestId)).map (·, "approval")
  | .resolveClarify _ requestId => (r.find (isUnresolvedClarify requestId)).map (·, "clarify")
  | _ => none

/-! ### The target exists -/

theorem streaming_target {r : Reducer} (h : r.WellFormed) {i : Nat} {name : String}
    (ht : r.streaming.map (·, "assistant") = some (i, name)) : ∃ kind, r.state.kindOf i = some kind ∧ kind.name = name := by
  obtain ⟨j, hj, heq⟩ := Option.map_eq_some_iff.1 ht
  cases heq
  obtain ⟨text, usage, warning, hk⟩ := (h.streaming i hj).assistant
  exact ⟨_, hk, rfl⟩

theorem tool_target {r : Reducer} (h : r.WellFormed) {id : String} {i : Nat} {name : String}
    (ht : (r.tools.lookup id).map (·, "tool") = some (i, name)) :
    ∃ kind, r.state.kindOf i = some kind ∧ kind.name = name := by
  obtain ⟨j, hj, heq⟩ := Option.map_eq_some_iff.1 ht
  cases heq
  obtain ⟨card, hk, -⟩ := (h.tools id i hj).2.tool
  exact ⟨_, hk, rfl⟩

theorem eventTarget_kind {r : Reducer} (h : r.WellFormed) {payload : Value} {k : EventKind} {i : Nat} {name : String}
    (ht : r.eventTarget payload k = some (i, name)) : ∃ kind, r.state.kindOf i = some kind ∧ kind.name = name := by
  unfold eventTarget at ht
  cases k with
  | messageDelta =>
    dsimp only at ht
    split at ht
    · cases ht
    · exact streaming_target h ht
  | messageInterim => exact streaming_target h ht
  | messageComplete =>
    dsimp only at ht
    split at ht
    · cases ht
    · exact streaming_target h ht
  | thinkingDelta =>
    obtain ⟨j, hj, heq⟩ := Option.map_eq_some_iff.1 ht
    cases heq
    obtain ⟨kind, hk, hthinking⟩ := h.thinking i hj
    refine ⟨kind, hk, ?_⟩
    cases kind with
    | thinking text => rfl
    | _ => exact hthinking.elim
  | toolStart =>
    dsimp only at ht
    split at ht
    · cases ht
    · cases hl : r.tools.lookup (payload.strAt "tool_id") with
      | some j =>
        rw [hl, Option.some_or, ← hl] at ht
        exact tool_target h ht
      | none =>
        rw [hl, Option.none_or] at ht
        obtain ⟨j, hj, heq⟩ := Option.map_eq_some_iff.1 ht
        cases heq
        obtain ⟨card, hk, -⟩ := kindOf_pendingGeneratingRow hj
        exact ⟨_, hk, rfl⟩
  | toolProgress =>
    dsimp only at ht
    split at ht
    · cases ht
    · exact tool_target h ht
  | toolComplete => exact tool_target h ht
  | _ => cases ht

theorem target_kind {r : Reducer} (h : r.WellFormed) {op : Op} {i : Nat} {name : String}
    (ht : r.target op = some (i, name)) : ∃ kind, r.state.kindOf i = some kind ∧ kind.name = name := by
  unfold target at ht
  cases op with
  | apply event =>
    dsimp only at ht
    split at ht
    · cases ht
    · exact eventTarget_kind h ht
  | resolveApproval key requestId =>
    obtain ⟨j, hj, heq⟩ := Option.map_eq_some_iff.1 ht
    cases heq
    obtain ⟨kind, hk, hpred⟩ := kindOf_find hj
    refine ⟨kind, hk, ?_⟩
    cases kind with
    | approval card => rfl
    | _ => cases hpred
  | resolveClarify key requestId =>
    obtain ⟨j, hj, heq⟩ := Option.map_eq_some_iff.1 ht
    cases heq
    obtain ⟨kind, hk, hpred⟩ := kindOf_find hj
    refine ⟨kind, hk, ?_⟩
    cases kind with
    | clarify card => rfl
    | _ => cases hpred
  | _ => cases ht

/-! ### Nothing else is touched -/

private theorem settleApproval_name {requestId : String} (kind : RowKind)
    (h : isUnresolvedApproval requestId kind = true) : (settleApproval kind).name = "approval" := by
  cases kind with
  | approval card => rfl
  | _ => cases h

private theorem settleClarify_name {requestId : String} (kind : RowKind)
    (h : isUnresolvedClarify requestId kind = true) : (settleClarify kind).name = "clarify" := by
  cases kind with
  | clarify card => rfl
  | _ => cases h

private theorem resolveCard_target {r : Reducer} {pred : RowKind → Bool} {settle : RowKind → RowKind} {name : String}
    (key : String) (hpred : ∀ kind, pred kind = true → (settle kind).name = name) {i : Nat} :
    (r.resolveCard pred settle key).1.state.rows[i]? = r.state.rows[i]? ∨
      ∃ n, (r.find pred).map (·, name) = some (i, n) ∧ (r.resolveCard pred settle key).1.state.kindAt i = n := by
  rcases r.resolveCard_cases pred settle key with ⟨-, hsame⟩ | ⟨j, kind, hf, hk, hp, hsettled⟩
  · exact .inl (by rw [hsame])
  · rw [hsettled, hf]
    dsimp only
    by_cases hij : j = i
    · subst hij
      refine .inr ⟨name, rfl, ?_⟩
      have hnew : (r.state.revise j settle).kindOf j = some (settle kind) := by
        rw [Transcript.kindOf_revise, if_pos rfl, hk]
        rfl
      rw [Transcript.kindAt_eq hnew, hpred kind hp]
    · exact .inl (r.state.row_revise settle hij)

section

variable [Serializer]

/-- An event reports an update of its target only. -/
theorem handle_updates {r : Reducer} (h : r.WellFormed) {k : EventKind} {payload : Value} {i : Nat}
    (hu : .rowUpdated i ∈ (r.handle k payload).2) : ∃ name, r.eventTarget payload k = some (i, name) := by
  unfold eventTarget
  cases k with
  | messageDelta =>
    simp only [handle, onMessageDelta, appendStreamingText] at hu
    split at hu
    · cases hu
    · rename_i htext
      cases hs : r.streaming with
      | none => simp [hs] at hu
      | some j =>
        obtain ⟨text, usage, warning, hk⟩ := (h.streaming j hs).assistant
        simp only [hs, hk, List.mem_singleton, TranscriptChange.rowUpdated.injEq] at hu
        subst hu
        exact ⟨"assistant", by simp [htext]⟩
  | messageInterim =>
    simp only [handle, onMessageInterim] at hu
    cases hs : r.streaming with
    | none => simp [hs] at hu
    | some j =>
      simp only [hs, List.mem_singleton, TranscriptChange.rowUpdated.injEq] at hu
      subst hu
      exact ⟨"assistant", rfl⟩
  | messageComplete =>
    simp only [handle, onMessageComplete] at hu
    split at hu
    · cases hu
    · rename_i hobject
      cases hs : r.streaming with
      | none => simp [hs] at hu
      | some j =>
        simp only [hs, List.mem_singleton, TranscriptChange.rowUpdated.injEq] at hu
        subst hu
        exact ⟨"assistant", by simp [hobject]⟩
  | thinkingDelta =>
    simp only [handle, onThinkingDelta] at hu
    cases hs : r.thinking with
    | none => simp [hs] at hu
    | some j =>
      rw [hs] at hu
      dsimp only at hu
      split at hu
      · simp only [List.mem_singleton, TranscriptChange.rowUpdated.injEq] at hu
        subst hu
        exact ⟨"thinking", rfl⟩
      · simp at hu
  | toolStart =>
    simp only [handle, onToolStart] at hu
    split at hu
    · cases hu
    · rename_i hid
      cases hl : r.tools.lookup (payload.strAt "tool_id") with
      | some j =>
        simp only [hl, List.mem_singleton, TranscriptChange.rowUpdated.injEq] at hu
        subst hu
        exact ⟨"tool", by simp [hid]⟩
      | none =>
        rw [hl] at hu
        dsimp only at hu
        cases hp : r.pendingGeneratingRow (payload.strAt "name") with
        | some j =>
          simp only [hp, List.mem_singleton, TranscriptChange.rowUpdated.injEq] at hu
          subst hu
          exact ⟨"tool", by simp [hid]⟩
        | none => simp [hp] at hu
  | toolProgress =>
    simp only [handle, onToolProgress] at hu
    split at hu
    · cases hu
    · rename_i hpreview
      cases hl : r.tools.lookup (payload.strAt "tool_id") with
      | none => simp [hl] at hu
      | some j =>
        rw [hl] at hu
        dsimp only at hu
        split at hu
        · simp only [List.mem_singleton, TranscriptChange.rowUpdated.injEq] at hu
          subst hu
          exact ⟨"tool", by simp [hpreview]⟩
        · cases hu
  | toolComplete =>
    simp only [handle, onToolComplete] at hu
    cases hl : r.tools.lookup (payload.strAt "tool_id") with
    | none => simp [hl] at hu
    | some j =>
      simp only [hl, List.mem_singleton, TranscriptChange.rowUpdated.injEq] at hu
      subst hu
      exact ⟨"tool", rfl⟩
  | statusUpdate =>
    simp only [handle, onStatusUpdate] at hu
    split at hu
    · cases hu
    · split at hu <;> simp at hu
  | approvalRequest =>
    simp only [handle, onApprovalRequest] at hu
    split at hu <;> simp at hu
  | clarifyRequest =>
    simp only [handle, onClarifyRequest] at hu
    split at hu <;> simp at hu
  | sessionInfo =>
    simp only [handle, onSessionInfo, mergeHeader] at hu
    split at hu <;> simp at hu
  | sessionTitle =>
    simp only [handle, onSessionTitle, mergeHeader] at hu
    split at hu <;> simp at hu
  | messageStart => simp [handle, onMessageStart] at hu
  | toolGenerating => simp [handle, onToolGenerating] at hu
  | error => simp [handle, onError] at hu
  | unknown => cases hu

private theorem apply_target {r : Reducer} (h : r.WellFormed) (event : EventParams) {i : Nat}
    (hi : i < r.state.rows.length) :
    (r.apply event).1.state.rows[i]? = r.state.rows[i]? ∨
      ∃ name, r.target (.apply event) = some (i, name) ∧ (r.apply event).1.state.kindAt i = name := by
  unfold apply target
  dsimp only
  by_cases hsid : event.sessionId = ""
  · rw [if_pos hsid]
    exact .inl rfl
  · rw [if_neg hsid, if_neg hsid]
    dsimp only
    have heffect := handle_effect h (.parse event.eventType) event.payload
    generalize hafter : (r.handle (.parse event.eventType) event.payload).1.state = t at heffect ⊢
    generalize hchanges : (r.handle (.parse event.eventType) event.payload).2 = changes at heffect
    cases heffect with
    | quiet => exact .inl rfl
    | push kind => exact .inl (r.state.row_push kind hi)
    | header info => exact .inl rfl
    | revise j old new hk hr =>
      by_cases hij : j = i
      · subst hij
        have hu : .rowUpdated j ∈ (r.handle (.parse event.eventType) event.payload).2 := by
          rw [hchanges]
          exact List.mem_singleton_self _
        obtain ⟨name, ht⟩ := handle_updates h hu
        obtain ⟨kind, hkind, hname⟩ := eventTarget_kind h ht
        rw [hk, Option.some_inj] at hkind
        subst hkind
        refine .inr ⟨name, ht, ?_⟩
        have hnew : (r.state.revise j fun _ => new).kindOf j = some new := by
          rw [Transcript.kindOf_revise, if_pos rfl, hk]
          rfl
        rw [Transcript.kindAt_eq hnew, hr.name_eq, hname]
      · exact .inl (r.state.row_revise _ hij)

/-- An operation that keeps the transcript changes at most its target, within its kind. -/
theorem perform_target {r : Reducer} (h : r.WellFormed) {op : Op} (hop : op.replaces = false) {i : Nat}
    (hi : i < r.state.rows.length) :
    (r.perform op).1.state.rows[i]? = r.state.rows[i]? ∨
      ∃ name, r.target op = some (i, name) ∧ (r.perform op).1.state.kindAt i = name := by
  cases op with
  | apply event => exact apply_target h event hi
  | resolveApproval key requestId => exact resolveCard_target key settleApproval_name
  | resolveClarify key requestId => exact resolveCard_target key settleClarify_name
  | appendUserRow key text => exact .inl (r.state.row_push _ hi)
  | applyApprovalCard key requestId card =>
    refine .inl ?_
    rw [perform_applyApprovalCard]
    split
    · rfl
    · rcases apply_target h ⟨"approval.request", key, none, card.setField "request_id" (.string requestId)⟩ hi with
        hsame | ⟨name, ht, -⟩
      · exact hsame
      · -- a request has no target
        unfold target at ht
        dsimp only at ht
        split at ht
        · cases ht
        · cases ht
  | ingestResumeMessages => cases hop
  | resetFromResume => cases hop

/-- In every reachable reducer the rows carry their positions and the latches and the tool map point at rows of their
kind; the row an operation updates exists and is of the kind its handler expects, and no other row changes. -/
theorem representation (ops : List Op) :
    (after ops).WellFormed ∧
      (∀ op i name, (after ops).target op = some (i, name) →
        i < (after ops).state.rows.length ∧ (after ops).state.kindAt i = name) ∧
      ∀ op i, op.replaces = false → i < (after ops).state.rows.length →
        (after (ops ++ [op])).state.rows[i]? = (after ops).state.rows[i]? ∨
          ∃ name, (after ops).target op = some (i, name) ∧ (after (ops ++ [op])).state.kindAt i = name := by
  have h := after_wellFormed ops
  refine ⟨h, ?_, ?_⟩
  · intro op i name ht
    obtain ⟨kind, hk, rfl⟩ := target_kind h ht
    exact ⟨Transcript.lt_of_kindOf hk, Transcript.kindAt_eq hk⟩
  · intro op i hop hi
    rw [after_snoc]
    exact perform_target h hop hi

end

end Reducer

end Hermo
