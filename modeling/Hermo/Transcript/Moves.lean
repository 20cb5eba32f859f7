import Hermo.Library.Run
import Hermo.Transcript.ChangeStream

/-!
# What an event makes of the whole reducer

`Effect` speaks of the transcript only.  `Move` lists what one event does to the reducer with its latches and its
tool map, and `handle_move` says that there is nothing else.  The facts about every reachable reducer are read off it:
`after` is the reducer after a list of operations, and each of them is proved for one operation first.
-/

namespace Hermo

/-- The kinds an event appends without a latch or an id that points at them. -/
def RowKind.IsPlain : RowKind → Prop
  | .assistant .. | .thinking _ => False
  | .tool card => card.toolId = ""
  | _ => True

namespace Transcript

theorem row_push (t : Transcript) {i : Nat} (kind : RowKind) (hi : i < t.rows.length) :
    (t.push kind).rows[i]? = t.rows[i]? := by
  rw [push_rows, List.getElem?_append_left hi]

theorem row_revise (t : Transcript) {i j : Nat} (f : RowKind → RowKind) (hij : j ≠ i) :
    (t.revise j f).rows[i]? = t.rows[i]? := by
  rw [revise_rows, List.getElem?_modify_ne _ _ hij]

end Transcript

namespace Reducer

/-- What one event does to a reducer; `named` is the tool id in its payload. -/
inductive Move (r : Reducer) (payload : Value) : EventKind → Reducer → Prop where
  | quiet (k) : Move r payload k r
  | header (k info) : Move r payload k { r with state := { r.state with header := info } }
  | append (k kind) (h : kind.IsPlain) : Move r payload k { r with state := r.state.push kind }
  /-- A message starts, whether or not another one is open. -/
  | start : Move r payload .messageStart
      { r with thinking := none, state := r.state.push (.assistant "" true "" ""), streaming := some r.state.rows.length }
  /-- A text that no start announced. -/
  | openText (k text) (hs : r.streaming = none) : Move r payload k
      { r with state := r.state.push (.assistant text true "" ""), streaming := some r.state.rows.length }
  | streamText (k i) (old text usage warning : String) (hs : r.streaming = some i)
      (hk : r.state.kindOf i = some (.assistant old true usage warning)) : Move r payload k
      { r with state := r.state.revise i fun _ => .assistant text true usage warning }
  /-- The open message ends. -/
  | sealText (k i) (old usage warning text usage' warning' : String) (hs : r.streaming = some i)
      (hk : r.state.kindOf i = some (.assistant old true usage warning)) : Move r payload k
      { r with streaming := none, state := r.state.revise i fun _ => .assistant text false usage' warning' }
  | openThinking (k text) (hs : r.thinking = none) : Move r payload k
      { r with state := r.state.push (.thinking text), thinking := some r.state.rows.length }
  | think (k i) (old text : String) (hk : r.state.kindOf i = some (.thinking old)) : Move r payload k
      { r with state := r.state.revise i fun _ => .thinking text }
  /-- A card is updated under the id the event names. -/
  | updateTool (k i card card') (hk : r.state.kindOf i = some (.tool card)) (hid : card.toolId ≠ "")
      (hnamed : card.toolId = payload.strAt "tool_id") (hkeeps : card'.toolId = card.toolId) : Move r payload k
      { r with state := r.state.revise i fun _ => .tool card' }
  /-- A card without an id gets the new one. -/
  | pairTool (i card card') (hid : payload.strAt "tool_id" ≠ "") (hnew : r.tools.lookup (payload.strAt "tool_id") = none)
      (hp : r.pendingGeneratingRow (payload.strAt "name") = some i) (hk : r.state.kindOf i = some (.tool card))
      (hempty : card.toolId = "") (hnamed : card'.toolId = payload.strAt "tool_id") : Move r payload .toolStart
      { r with state := r.state.revise i fun _ => .tool card', tools := r.tools.insert (payload.strAt "tool_id") i }
  | openTool (k) (card : ToolCard) (hid : card.toolId ≠ "") (hnew : r.tools.lookup card.toolId = none) : Move r payload k
      { r with state := r.state.push (.tool card), tools := r.tools.insert card.toolId r.state.rows.length }

private theorem appendStreamingText_move {r : Reducer} (h : r.WellFormed) (payload : Value) (k : EventKind)
    (text : String) : Move r payload k (r.appendStreamingText text).1 := by
  unfold appendStreamingText
  split
  · exact .quiet k
  · dsimp only
    cases hs : r.streaming with
    | none => exact .openText k text hs
    | some i =>
      obtain ⟨old, usage, warning, hk⟩ := (h.streaming i hs).assistant
      dsimp only
      rw [hk]
      have hmove : Move r payload k _ := .streamText k i old (old ++ text) usage warning hs hk
      rw [hs] at hmove
      exact hmove

private theorem onMessageInterim_move {r : Reducer} (h : r.WellFormed) (payload : Value) :
    Move r payload .messageInterim (r.onMessageInterim payload).1 := by
  unfold onMessageInterim
  dsimp only
  cases hs : r.streaming with
  | none => exact .quiet _
  | some i =>
    obtain ⟨old, usage, warning, hk⟩ := (h.streaming i hs).assistant
    dsimp only
    rw [Transcript.revise_congr hk]
    exact .sealText _ i old usage warning _ usage warning hs hk

private theorem onThinkingDelta_move {r : Reducer} (h : r.WellFormed) (payload : Value) (k : EventKind) :
    Move r payload k (r.onThinkingDelta payload).1 := by
  unfold onThinkingDelta
  dsimp only
  cases hs : r.thinking with
  | none => exact .openThinking k _ hs
  | some i =>
    obtain ⟨kind, hk, hthinking⟩ := h.thinking i hs
    cases kind with
    | thinking old =>
      dsimp only
      rw [hk]
      have hmove : Move r payload k _ := .think k i old (old ++ payload.strAt "text") hk
      rw [hs] at hmove
      exact hmove
    | _ => exact hthinking.elim

private theorem onToolProgress_move {r : Reducer} (h : r.WellFormed) (payload : Value) (k : EventKind) :
    Move r payload k (r.onToolProgress payload).1 := by
  unfold onToolProgress
  dsimp only
  split
  · exact .quiet k
  · split
    · exact .quiet k
    · rename_i i hl
      obtain ⟨hne, htool⟩ := h.tools _ _ hl
      obtain ⟨card, hk, hid⟩ := htool.tool
      rw [hk]
      dsimp only
      have hcard : card.toolId ≠ "" := by rwa [hid]
      exact .updateTool k i card _ hk hcard hid rfl

private theorem onStatusUpdate_move (r : Reducer) (payload : Value) (k : EventKind) :
    Move r payload k (r.onStatusUpdate payload).1 := by
  unfold onStatusUpdate
  dsimp only
  split
  · exact .quiet k
  · split
    · exact .quiet k
    · exact .append k _ trivial

private theorem mergeHeader_move (r : Reducer) (payload : Value) (k : EventKind) (info : SessionHeader) :
    Move r payload k (r.mergeHeader info).1 := by
  unfold mergeHeader
  split
  · exact .quiet k
  · exact .header k _

section

variable [Serializer]

private theorem onMessageComplete_move {r : Reducer} (h : r.WellFormed) (payload : Value) :
    Move r payload .messageComplete (r.onMessageComplete payload).1 := by
  unfold onMessageComplete
  dsimp only
  split
  · exact .quiet _
  · cases hs : r.streaming with
    | none => exact .quiet _
    | some i =>
      obtain ⟨old, usage, warning, hk⟩ := (h.streaming i hs).assistant
      dsimp only
      rw [Transcript.revise_congr hk]
      exact .sealText _ i old usage warning _ _ _ hs hk

private theorem onToolStart_move {r : Reducer} (h : r.WellFormed) (payload : Value) :
    Move r payload .toolStart (r.onToolStart payload).1 := by
  unfold onToolStart
  dsimp only
  split
  · exact .quiet _
  · rename_i hid
    cases hl : r.tools.lookup (payload.strAt "tool_id") with
    | some i =>
      obtain ⟨-, htool⟩ := h.tools _ _ hl
      obtain ⟨card, hk, hcard⟩ := htool.tool
      dsimp only
      rw [Transcript.revise_congr hk]
      exact .updateTool _ i card _ hk (by rwa [hcard]) hcard rfl
    | none =>
      dsimp only
      cases hp : r.pendingGeneratingRow (payload.strAt "name") with
      | some i =>
        obtain ⟨card, hk, hempty, -⟩ := kindOf_pendingGeneratingRow hp
        dsimp only
        rw [Transcript.revise_congr hk]
        exact .pairTool i card _ hid hl hp hk hempty rfl
      | none => exact .openTool _ _ hid hl

private theorem onToolComplete_move {r : Reducer} (h : r.WellFormed) (payload : Value) (k : EventKind) :
    Move r payload k (r.onToolComplete payload).1 := by
  unfold onToolComplete
  dsimp only
  split
  · rename_i i hl
    obtain ⟨hne, htool⟩ := h.tools _ _ hl
    obtain ⟨card, hk, hid⟩ := htool.tool
    dsimp only
    rw [Transcript.revise_congr hk]
    exact .updateTool k i card _ hk (by rwa [hid]) hid rfl
  · exact .quiet k

theorem handle_move {r : Reducer} (h : r.WellFormed) (k : EventKind) (payload : Value) :
    Move r payload k (r.handle k payload).1 := by
  cases k with
  | messageStart => exact .start
  | messageDelta => exact appendStreamingText_move h payload _ _
  | messageInterim => exact onMessageInterim_move h payload
  | messageComplete => exact onMessageComplete_move h payload
  | thinkingDelta => exact onThinkingDelta_move h payload _
  | toolGenerating => exact .append _ _ rfl
  | toolStart => exact onToolStart_move h payload
  | toolProgress => exact onToolProgress_move h payload _
  | toolComplete => exact onToolComplete_move h payload _
  | statusUpdate => exact onStatusUpdate_move r payload _
  | approvalRequest =>
    simp only [handle, onApprovalRequest]
    split
    · exact .quiet _
    · exact .append _ _ trivial
  | clarifyRequest =>
    simp only [handle, onClarifyRequest]
    split
    · exact .quiet _
    · exact .append _ _ trivial
  | sessionInfo => exact mergeHeader_move r payload _ _
  | sessionTitle => exact mergeHeader_move r payload _ _
  | error => exact .append _ _ trivial
  | unknown => exact .quiet _

/-! ### Runs -/

/-- The reducer after the operations. -/
def after (ops : List Op) : Reducer := ops.foldl (fun r op => (r.perform op).1) {}

theorem after_snoc (ops : List Op) (op : Op) : after (ops ++ [op]) = ((after ops).perform op).1 := by
  unfold after
  rw [List.foldl_append]
  rfl

theorem after_wellFormed (ops : List Op) : (after ops).WellFormed := by
  induction ops using List.reverseRecOn with
  | nil => exact wellFormed_empty
  | append_singleton ops op ih =>
    rw [after_snoc]
    exact perform_wellFormed ih op

end

end Reducer

end Hermo
