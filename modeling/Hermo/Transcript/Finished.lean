import Hermo.Transcript.Moves

/-!
# Finished rows

A row is finished when no event should touch it any more: a prompt, a status, an error, a card, a text that no longer
streams, a completed tool run.  Events keep the finished rows, except a `tool.start` with a new id that pairs with a
completed card because that card has no id; only a history brings such cards.

The final text of a message needs an open row: where none streams, it is dropped.
-/

namespace Hermo

/-- A row that an event must leave alone; `named` is the tool id of the event. -/
def RowKind.IsFinished (named : String) : RowKind → Prop
  | .user _ | .approval _ | .clarify _ | .status .. | .error _ => True
  | .assistant _ streaming _ _ => streaming = false
  | .thinking _ => False
  | .tool card => card.complete = true ∧ ¬ (card.toolId ≠ "" ∧ card.toolId = named)

namespace Transcript

/-- Row `i` is the last tool card without an id under this name. -/
def LastUnpaired (t : Transcript) (name : String) (i : Nat) (card : ToolCard) : Prop :=
  t.kindOf i = some (.tool card) ∧ card.toolId = "" ∧ card.name = name ∧
    ∀ j other, i < j → t.kindOf j = some (.tool other) → other.toolId = "" → other.name ≠ name

/-- There is a finished row with this text. -/
def HasFinal (t : Transcript) (text : String) : Prop :=
  ∃ i usage warning, t.kindOf i = some (.assistant text false usage warning)

theorem LastUnpaired.unique {t : Transcript} {name : String} {i j : Nat} {card other : ToolCard}
    (h : t.LastUnpaired name i card) (h' : t.LastUnpaired name j other) : i = j := by
  obtain ⟨hk, hempty, hname, hlast⟩ := h
  obtain ⟨hk', hempty', hname', hlast'⟩ := h'
  rcases Nat.lt_trichotomy i j with hlt | heq | hlt
  · exact absurd hname' (hlast j other hlt hk' hempty')
  · exact heq
  · exact absurd hname (hlast' i card hlt hk hempty)

theorem kindOf_of_row {t : Transcript} {i : Nat} {row : Row} (h : t.rows[i]? = some row) : t.kindOf i = some row.kind := by
  unfold kindOf
  rw [h]
  rfl

end Transcript

namespace Reducer

/-- The search from the end finds the last unpaired card. -/
theorem lastUnpaired_of_pending {r : Reducer} {name : String} {i : Nat} (h : r.pendingGeneratingRow name = some i) :
    ∃ card, r.state.LastUnpaired name i card := by
  obtain ⟨card, hk, hempty, hname⟩ := kindOf_pendingGeneratingRow h
  refine ⟨card, hk, hempty, hname, ?_⟩
  intro j other hij hother hid hsame
  unfold pendingGeneratingRow at h
  rw [Option.map_eq_some_iff] at h
  obtain ⟨n, hn, hi⟩ := h
  rw [List.findIdx?_eq_some_iff_getElem] at hn
  obtain ⟨hlt, -, hbefore⟩ := hn
  rw [List.length_reverse] at hlt
  have hj : j < r.state.rows.length := Transcript.lt_of_kindOf hother
  -- row `j` stands before row `i` in the reversed list
  have hfalse := hbefore (r.state.rows.length - 1 - j) (by omega)
  rw [List.getElem_reverse] at hfalse
  have hback : r.state.rows.length - 1 - (r.state.rows.length - 1 - j) = j := by omega
  have hrow : r.state.rows[r.state.rows.length - 1 - (r.state.rows.length - 1 - j)].kind = .tool other := by
    unfold Transcript.kindOf at hother
    rw [List.getElem?_eq_getElem hj, Option.map_some, Option.some_inj] at hother
    simpa only [hback] using hother
  rw [hrow] at hfalse
  simp [hid, hsame] at hfalse

theorem pending_of_lastUnpaired {r : Reducer} {name : String} {i : Nat} {card : ToolCard}
    (h : r.state.LastUnpaired name i card) : r.pendingGeneratingRow name = some i := by
  cases hp : r.pendingGeneratingRow name with
  | some j =>
    obtain ⟨other, hother⟩ := lastUnpaired_of_pending hp
    rw [h.unique hother]
  | none =>
    obtain ⟨hk, hempty, hname, -⟩ := h
    unfold pendingGeneratingRow at hp
    rw [Option.map_eq_none_iff, List.findIdx?_eq_none_iff] at hp
    obtain ⟨row, hrow, hkind⟩ := Option.map_eq_some_iff.1 hk
    have hfalse := hp row (List.mem_reverse.2 (List.mem_of_getElem? hrow))
    rw [hkind] at hfalse
    simp [hempty, hname] at hfalse

/-- The event starts a run under a new id, and the last card without an id under its name is complete. -/
def PairsFinished (r : Reducer) (event : EventParams) : Prop :=
  event.sessionId ≠ "" ∧ EventKind.parse event.eventType = .toolStart ∧ event.payload.strAt "tool_id" ≠ "" ∧
    event.payload.strAt "tool_id" ∉ r.tools ∧
      ∃ i card, r.state.LastUnpaired (event.payload.strAt "name") i card ∧ card.complete = true

/-- A row that is not finished is revised: the finished ones stay. -/
private theorem revise_kept {t : Transcript} {named : String} {j : Nat} {old : RowKind} (hk : t.kindOf j = some old)
    (hold : ¬ old.IsFinished named) (f : RowKind → RowKind) {i : Nat} {row : Row} (hrow : t.rows[i]? = some row)
    (hrow' : row.kind.IsFinished named) : (t.revise j f).rows[i]? = some row := by
  have hij : j ≠ i := by
    rintro rfl
    rw [Transcript.kindOf_of_row hrow, Option.some_inj] at hk
    exact hold (hk ▸ hrow')
  rw [t.row_revise f hij, hrow]

private theorem push_kept {t : Transcript} (kind : RowKind) {i : Nat} {row : Row} (hrow : t.rows[i]? = some row) :
    (t.push kind).rows[i]? = some row := by
  rw [t.row_push kind (List.getElem?_eq_some_iff.1 hrow).1, hrow]

theorem Move.finished {r r' : Reducer} {payload : Value} {k : EventKind} (hmove : Move r payload k r')
    (hpair : ∀ i card, k = .toolStart → payload.strAt "tool_id" ≠ "" → payload.strAt "tool_id" ∉ r.tools →
      r.state.LastUnpaired (payload.strAt "name") i card → card.complete = false)
    {i : Nat} {row : Row} (hrow : r.state.rows[i]? = some row) (hfinished : row.kind.IsFinished (payload.strAt "tool_id")) :
    r'.state.rows[i]? = some row := by
  cases hmove with
  | quiet => exact hrow
  | header => exact hrow
  | append _ kind => exact push_kept kind hrow
  | start => exact push_kept _ hrow
  | openText => exact push_kept _ hrow
  | streamText _ j old text usage warning hs hk =>
    exact revise_kept hk (fun hfalse => by cases hfalse) _ hrow hfinished
  | sealText _ j old usage warning text usage' warning' hs hk =>
    exact revise_kept hk (fun hfalse => by cases hfalse) _ hrow hfinished
  | openThinking => exact push_kept _ hrow
  | think _ j old text hk => exact revise_kept hk id _ hrow hfinished
  | updateTool _ j card card' hk hid hnamed => exact revise_kept hk (fun h => h.2 ⟨hid, hnamed⟩) _ hrow hfinished
  | pairTool j card card' hid hnew hp hk hempty =>
    obtain ⟨last, hlast⟩ := lastUnpaired_of_pending hp
    have hsame : last = card := by
      have hkind := hlast.1
      rw [hk, Option.some_inj, RowKind.tool.injEq] at hkind
      exact hkind.symm
    have hopen := hpair j last rfl hid (AList.lookup_eq_none.1 hnew) hlast
    refine revise_kept hk ?_ _ hrow hfinished
    intro hcard
    rw [← hsame, RowKind.IsFinished, hopen] at hcard
    cases hcard.1
  | openTool => exact push_kept _ hrow

private theorem isObject_of_text {payload : Value} (h : payload.strAt "text" ≠ "") : payload.isObject = true := by
  by_contra hobject
  have hfalse : payload.isObject = false := by simpa using hobject
  exact h (Value.strAt_of_not_isObject hfalse "text")

/-- The open row takes the text, and is closed. -/
private theorem hasFinal_sealed {t : Transcript} {i : Nat} {old : RowKind} (hk : t.kindOf i = some old)
    (text usage warning : String) : (t.revise i fun _ => .assistant text false usage warning).HasFinal text := by
  refine ⟨i, usage, warning, ?_⟩
  rw [Transcript.kindOf_revise, if_pos rfl, hk]
  rfl

section

variable [Serializer]

/-- The card that a start pairs gets a new id. -/
private theorem pairsFinished_revises {r : Reducer} {event : EventParams} (h : r.PairsFinished event) :
    ∃ (i : Nat) (row : Row), r.state.rows[i]? = some row ∧ row.kind.IsFinished (event.payload.strAt "tool_id") ∧
      (r.apply event).1.state.rows[i]? ≠ some row := by
  obtain ⟨hsid, hkind, hid, hnew, i, card, hlast, hcomplete⟩ := h
  obtain ⟨row, hrow, hcard⟩ := Option.map_eq_some_iff.1 hlast.1
  refine ⟨i, row, hrow, ?_, ?_⟩
  · rw [hcard]
    exact ⟨hcomplete, fun hnamed => hnamed.1 hlast.2.1⟩
  · have hl : r.tools.lookup (event.payload.strAt "tool_id") = none := AList.lookup_eq_none.2 hnew
    have hp := pending_of_lastUnpaired hlast
    have hstate : (r.apply event).1.state.rows[i]? = some
        { row with
          kind := .tool { card with
            toolId := event.payload.strAt "tool_id"
            context := event.payload.strAt "context"
            argsJson := ((event.payload.get "args").map toCompactString).getD "" } } := by
      simp [apply, hsid, hkind, handle, onToolStart, hid, hl, hp, hrow, hcard]
    rw [hstate]
    intro hsame
    rw [Option.some_inj] at hsame
    have hkinds := congrArg Row.kind hsame
    dsimp only at hkinds
    rw [hcard, RowKind.tool.injEq] at hkinds
    have hids := congrArg ToolCard.toolId hkinds
    exact hid (hids.trans hlast.2.1)

/-- An event keeps the finished rows of a reachable reducer, if and only if it is not a start that pairs with a
completed card without an id. -/
theorem finished_kept (ops : List Op) (event : EventParams) :
    (∀ (i : Nat) (row : Row), (after ops).state.rows[i]? = some row →
      row.kind.IsFinished (event.payload.strAt "tool_id") →
        ((after ops).apply event).1.state.rows[i]? = some row) ↔ ¬ (after ops).PairsFinished event := by
  constructor
  · intro hkept hpairs
    obtain ⟨i, row, hrow, hfinished, hchanged⟩ := pairsFinished_revises hpairs
    exact hchanged (hkept i row hrow hfinished)
  · intro hpairs i row hrow hfinished
    unfold apply
    by_cases hsid : event.sessionId = ""
    · rw [if_pos hsid]
      exact hrow
    · rw [if_neg hsid]
      refine (handle_move (after_wellFormed ops) _ event.payload).finished ?_ hrow hfinished
      intro j card hkind hid hnew hlast
      by_contra hcomplete
      exact hpairs ⟨hsid, hkind, hid, hnew, j, card, hlast, by simpa using hcomplete⟩

/-! ### The final text -/

/-- The text an event brings as the final one of its message: that of a completion, or of an interim that did not
arrive as deltas. -/
def finalText (event : EventParams) : Option String :=
  let text := event.payload.strAt "text"
  match EventKind.parse event.eventType with
  | .messageComplete => if text = "" then none else some text
  | .messageInterim => if text = "" ∨ event.payload.boolAt "already_streamed" = true then none else some text
  | _ => none

/-- With no open row, neither event does anything. -/
private theorem apply_final_closed {r : Reducer} {event : EventParams} {text : String} (h : finalText event = some text)
    (hs : r.streaming = none) : (r.apply event).1 = r := by
  unfold apply
  by_cases hsid : event.sessionId = ""
  · rw [if_pos hsid]
  · rw [if_neg hsid]
    unfold finalText at h
    dsimp only at h ⊢
    split at h
    · rename_i hkind
      rw [hkind]
      simp only [handle, onMessageComplete, hs]
      split <;> rfl
    · rename_i hkind
      rw [hkind]
      simp only [handle, onMessageInterim, hs]
    · cases h

private theorem apply_final_open {r : Reducer} (hw : r.WellFormed) {event : EventParams} {text : String}
    (h : finalText event = some text) (hsid : event.sessionId ≠ "") {i : Nat} (hs : r.streaming = some i) :
    (r.apply event).1.state.HasFinal text := by
  obtain ⟨old, usage, warning, hk⟩ := (hw.streaming i hs).assistant
  unfold apply
  rw [if_neg hsid]
  unfold finalText at h
  dsimp only at h ⊢
  split at h
  · rename_i hkind
    rw [hkind]
    rw [Option.ite_none_left_eq_some, Option.some_inj] at h
    obtain ⟨hne, rfl⟩ := h
    have hobject := isObject_of_text hne
    simp only [handle, onMessageComplete, hs, hobject, Bool.true_eq_false, ↓reduceIte]
    rw [Transcript.revise_congr hk]
    exact hasFinal_sealed hk _ _ _
  · rename_i hkind
    rw [hkind]
    rw [Option.ite_none_left_eq_some, Option.some_inj, not_or] at h
    obtain ⟨⟨-, hstreamed⟩, rfl⟩ := h
    simp only [handle, onMessageInterim, hs]
    rw [Transcript.revise_congr hk]
    simp only [hstreamed, Bool.false_eq_true, ↓reduceIte]
    exact hasFinal_sealed hk _ _ _
  · cases h

/-- The final text of a message has its row afterwards, if and only if a row streams and the event names its session,
or a finished row with the same text was there before. -/
theorem final_text_kept (ops : List Op) (event : EventParams) (text : String) (h : finalText event = some text) :
    ((after ops).apply event).1.state.HasFinal text ↔
      (event.sessionId ≠ "" ∧ (after ops).isStreaming = true) ∨ (after ops).state.HasFinal text := by
  have hw := after_wellFormed ops
  cases hs : (after ops).streaming with
  | none =>
    have hclosed : ¬ (after ops).isStreaming = true := by
      unfold isStreaming
      rw [hs]
      exact fun hfalse => by cases hfalse
    rw [apply_final_closed h hs]
    refine (or_iff_right ?_).symm
    exact fun hopen => hclosed hopen.2
  | some i =>
    have hopen : (after ops).isStreaming = true := by
      unfold isStreaming
      rw [hs]
      rfl
    by_cases hsid : event.sessionId = ""
    · have hsame : ((after ops).apply event).1 = after ops := by
        unfold apply
        rw [if_pos hsid]
      rw [hsame]
      refine (or_iff_right ?_).symm
      exact fun hnamed => hnamed.1 hsid
    · exact iff_of_true (apply_final_open hw h hsid hs) (.inl ⟨hsid, hopen⟩)

end

section

attribute [local instance] Serializer.compact

/-- A history with a completed run that carries no id, and the next run of the same tool. -/
private def earlierRun : List Op :=
  [.ingestResumeMessages "chat" [.object [("role", .string "tool"), ("name", .string "terminal"), ("text", .string "ok")]]]

private def nextRun : EventParams :=
  ⟨"tool.start", "live", none, .object [("tool_id", .string "t1"), ("name", .string "terminal")]⟩

/-- The card of the history becomes the card of the new run. -/
theorem finished_rewritten :
    (after earlierRun).PairsFinished nextRun ∧
      ∃ (i : Nat) (row : Row), (after earlierRun).state.rows[i]? = some row ∧ row.kind.IsFinished "t1" ∧
        ((after earlierRun).apply nextRun).1.state.rows[i]? ≠ some row := by
  have hpairs : (after earlierRun).PairsFinished nextRun := by
    refine ⟨by decide, by decide, by decide, AList.notMem_empty _, 0, _, ⟨rfl, rfl, rfl, ?_⟩, rfl⟩
    intro j other hj hother
    have hlt : j < 1 := Transcript.lt_of_kindOf hother
    omega
  exact ⟨hpairs, pairsFinished_revises hpairs⟩

/-- A completion with a text. -/
private def completed : EventParams := ⟨"message.complete", "live", none, .object [("text", .string "Done")]⟩

/-- The text reaches the row of a message that was started. -/
theorem final_text_kept_started :
    ((after [.apply ⟨"message.start", "live", none, .null⟩]).apply completed).1.state.HasFinal "Done" :=
  (final_text_kept [.apply ⟨"message.start", "live", none, .null⟩] completed "Done" (by decide)).2
    (.inl ⟨by decide, by decide⟩)

/-- The transcript is rebuilt during a turn, and its final text is dropped. -/
theorem final_text_dropped :
    finalText completed = some "Done" ∧
      ¬ ((after [.ingestResumeMessages "chat" []]).apply completed).1.state.HasFinal "Done" := by
  refine ⟨by decide, ?_⟩
  rintro ⟨i, usage, warning, hk⟩
  cases hk

end

end Reducer

end Hermo
