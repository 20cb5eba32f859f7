import Hermo.Transcript.Moves

/-!
# At most one row streams

`StreamsAt` says that exactly the row a latch points at is marked as streaming.  Every operation keeps it but one: a
`message.start` while a message is open moves the latch and leaves the earlier row marked, and nothing can clear it
later.
-/

namespace Hermo

/-- An assistant row streams exactly when the latch points at it. -/
def Transcript.StreamsAt (t : Transcript) (latch : Option Nat) : Prop :=
  ∀ i kind, t.kindOf i = some kind → (kind.IsStreaming ↔ latch = some i)

/-- The operation applies a `message.start`. -/
def Op.StartsMessage : Op → Prop
  | .apply event => event.sessionId ≠ "" ∧ EventKind.parse event.eventType = .messageStart
  | _ => False

namespace Transcript

/-- A row that does not stream is pushed; the latch points below it. -/
theorem StreamsAt.push {t : Transcript} {latch : Option Nat} (h : t.StreamsAt latch)
    (hlatch : ∀ i, latch = some i → i < t.rows.length) {kind : RowKind} (hkind : ¬ kind.IsStreaming) :
    (t.push kind).StreamsAt latch := by
  intro i k hk
  rw [kindOf_push] at hk
  split at hk
  · rename_i hi
    cases hk
    refine iff_of_false hkind ?_
    intro hsome
    have hlt := hlatch i hsome
    omega
  · exact h i k hk

/-- A streaming row is opened where none is open. -/
theorem StreamsAt.openRow {t : Transcript} (h : t.StreamsAt none) {kind : RowKind} (hkind : kind.IsStreaming) :
    (t.push kind).StreamsAt (some t.rows.length) := by
  intro i k hk
  rw [kindOf_push] at hk
  split at hk
  · rename_i hi
    cases hk
    exact iff_of_true hkind (by rw [hi])
  · rename_i hi
    have hold : ¬ k.IsStreaming := by
      rw [h i k hk]
      exact fun hnone => by cases hnone
    refine iff_of_false hold ?_
    intro hsome
    rw [Option.some_inj] at hsome
    exact hi hsome.symm

/-- A row is revised and goes on streaming, or not, as before. -/
theorem StreamsAt.revise {t : Transcript} {latch : Option Nat} (h : t.StreamsAt latch) {i : Nat} {old : RowKind}
    (hk : t.kindOf i = some old) (f : RowKind → RowKind) (hsame : (f old).IsStreaming ↔ old.IsStreaming) :
    (t.revise i f).StreamsAt latch := by
  intro j k hj
  rw [kindOf_revise] at hj
  split at hj
  · rename_i hij
    subst hij
    rw [hk, Option.map_some, Option.some_inj] at hj
    subst hj
    exact hsame.trans (h i old hk)
  · exact h j k hj

/-- The open row stops streaming, and the latch is cleared. -/
theorem StreamsAt.sealRow {t : Transcript} {i : Nat} (h : t.StreamsAt (some i)) {new : RowKind}
    (hnew : ¬ new.IsStreaming) : (t.revise i fun _ => new).StreamsAt none := by
  intro j k hj
  rw [kindOf_revise] at hj
  split at hj
  · obtain ⟨old, -, rfl⟩ := Option.map_eq_some_iff.1 hj
    exact iff_of_false hnew fun hnone => by cases hnone
  · rename_i hij
    have hold : ¬ k.IsStreaming := by
      rw [h j k hj]
      intro hsome
      rw [Option.some_inj] at hsome
      exact hij hsome
    exact iff_of_false hold fun hnone => by cases hnone

end Transcript

namespace Reducer

/-- The latch tells which row streams. -/
def OneStream (r : Reducer) : Prop := r.state.StreamsAt r.streaming

theorem latch_lt {r : Reducer} (h : r.WellFormed) {i : Nat} (hs : r.streaming = some i) : i < r.state.rows.length := by
  obtain ⟨kind, hk, -⟩ := h.streaming i hs
  exact Transcript.lt_of_kindOf hk

theorem Move.oneStream {r r' : Reducer} {payload : Value} {k : EventKind} (hmove : Move r payload k r')
    (hw : r.WellFormed) (h : r.OneStream) (hstart : k = .messageStart → r.streaming = none) : r'.OneStream := by
  have hlatch : ∀ i, r.streaming = some i → i < r.state.rows.length := fun i => latch_lt hw
  cases hmove with
  | quiet => exact h
  | header => exact h
  | append _ kind hplain =>
    refine Transcript.StreamsAt.push h hlatch ?_
    cases kind <;> first | exact hplain.elim | exact id
  | start =>
    have hnone : r.state.StreamsAt none := by
      rw [← hstart rfl]
      exact h
    exact hnone.openRow rfl
  | openText _ text hs =>
    have hnone : r.state.StreamsAt none := by
      rw [← hs]
      exact h
    exact hnone.openRow rfl
  | streamText _ i old text usage warning hs hk => exact Transcript.StreamsAt.revise h hk _ Iff.rfl
  | sealText _ i old usage warning text usage' warning' hs hk =>
    have hsome : r.state.StreamsAt (some i) := by
      rw [← hs]
      exact h
    exact hsome.sealRow (fun hfalse => by cases hfalse)
  | openThinking _ text => exact Transcript.StreamsAt.push h hlatch id
  | think _ i old text hk => exact Transcript.StreamsAt.revise h hk _ Iff.rfl
  | updateTool _ i card card' hk => exact Transcript.StreamsAt.revise h hk _ Iff.rfl
  | pairTool i card card' hid hnew hp hk => exact Transcript.StreamsAt.revise h hk _ Iff.rfl
  | openTool _ card => exact Transcript.StreamsAt.push h hlatch id

private theorem resolveCard_oneStream {r : Reducer} (h : r.OneStream) (pred : RowKind → Bool)
    (settle : RowKind → RowKind) (key : String) (hsettle : ∀ kind, (settle kind).IsStreaming ↔ kind.IsStreaming) :
    (r.resolveCard pred settle key).1.OneStream := by
  rcases r.resolveCard_cases pred settle key with ⟨-, hsame⟩ | ⟨i, kind, -, hk, -, hsettled⟩
  · rw [hsame]
    exact h
  · rw [hsettled]
    exact Transcript.StreamsAt.revise h hk settle (hsettle kind)

/-- No row of a history streams. -/
theorem not_isStreaming_messageKind (msg : Value) : ¬ (messageKind msg).IsStreaming := by
  unfold messageKind
  dsimp only
  split
  · exact id
  · exact id
  · exact id
  · exact fun h => by cases h

private theorem ingestMessage_oneStream {acc : Reducer × List TranscriptChange} (msg : Value)
    (h : acc.1.streaming = none ∧ acc.1.state.StreamsAt none) :
    (ingestMessage acc msg).1.streaming = none ∧ (ingestMessage acc msg).1.state.StreamsAt none := by
  unfold ingestMessage
  dsimp only
  split
  · exact h
  · exact ⟨h.1, h.2.push (fun i hi => by cases hi) (not_isStreaming_messageKind msg)⟩

theorem ingestResumeMessages_oneStream (r : Reducer) (key : String) (messages : List Value) :
    (r.ingestResumeMessages key messages).1.OneStream := by
  have hfold : ∀ acc : Reducer × List TranscriptChange, acc.1.streaming = none ∧ acc.1.state.StreamsAt none →
      (messages.foldl ingestMessage acc).1.streaming = none ∧
        (messages.foldl ingestMessage acc).1.state.StreamsAt none := by
    induction messages with
    | nil => exact fun acc h => h
    | cons msg messages ih => exact fun acc h => ih _ (ingestMessage_oneStream msg h)
  have hempty : Transcript.StreamsAt {} none := by
    intro i kind hk
    cases hk
  obtain ⟨hnone, hat⟩ := hfold ({}, [.reset]) ⟨rfl, hempty⟩
  change Transcript.StreamsAt (messages.foldl ingestMessage ({}, [.reset])).1.state _
  rw [show (r.ingestResumeMessages key messages).1.streaming = none from hnone]
  exact hat

/-- A start while a message is open leaves the earlier row marked. -/
theorem not_oneStream_start {r : Reducer} (hw : r.WellFormed) {i : Nat} (hs : r.streaming = some i) :
    ¬ r.onMessageStart.1.OneStream := by
  intro h
  obtain ⟨text, usage, warning, hk⟩ := (hw.streaming i hs).assistant
  have hlt := latch_lt hw hs
  have hold : r.onMessageStart.1.state.kindOf i = some (.assistant text true usage warning) := by
    change (r.state.push _).kindOf i = _
    rw [Transcript.kindOf_push, if_neg (by omega), hk]
  have hlatch : some r.state.rows.length = some i := (h i _ hold).1 rfl
  rw [Option.some_inj] at hlatch
  omega

section

variable [Serializer]

private theorem apply_oneStream {r : Reducer} (hw : r.WellFormed) (h : r.OneStream) (event : EventParams) :
    (r.apply event).1.OneStream ↔ ((Op.apply event).StartsMessage → r.isStreaming = false) := by
  unfold apply Op.StartsMessage
  dsimp only
  by_cases hsid : event.sessionId = ""
  · rw [if_pos hsid]
    exact iff_of_true h fun hstart => absurd hsid hstart.1
  · rw [if_neg hsid]
    dsimp only
    constructor
    · rintro hafter ⟨-, hkind⟩
      rw [hkind] at hafter
      cases hs : r.streaming with
      | none =>
        unfold isStreaming
        rw [hs]
        rfl
      | some i => exact absurd hafter (not_oneStream_start hw hs)
    · intro hcond
      refine (handle_move hw _ event.payload).oneStream hw h ?_
      intro hkind
      have hclear := hcond ⟨hsid, hkind⟩
      unfold isStreaming at hclear
      cases hs : r.streaming with
      | none => rfl
      | some i =>
        rw [hs] at hclear
        cases hclear

/-- An operation keeps the mark where it belongs, unless it starts a message while one is open. -/
theorem perform_oneStream {r : Reducer} (hw : r.WellFormed) (h : r.OneStream) (op : Op) :
    (r.perform op).1.OneStream ↔ (op.StartsMessage → r.isStreaming = false) := by
  cases op with
  | apply event => exact apply_oneStream hw h event
  | resolveApproval key requestId =>
    refine iff_of_true (resolveCard_oneStream h _ _ key ?_) (fun hstart => hstart.elim)
    intro kind
    cases kind <;> exact Iff.rfl
  | resolveClarify key requestId =>
    refine iff_of_true (resolveCard_oneStream h _ _ key ?_) (fun hstart => hstart.elim)
    intro kind
    cases kind <;> exact Iff.rfl
  | appendUserRow key text =>
    refine iff_of_true ?_ (fun hstart => hstart.elim)
    exact Transcript.StreamsAt.push h (fun i => latch_lt hw) id
  | applyApprovalCard key requestId card =>
    refine iff_of_true ?_ (fun hstart => hstart.elim)
    rw [perform_applyApprovalCard]
    split
    · exact h
    · refine (apply_oneStream hw h _).2 ?_
      rintro ⟨-, hkind⟩
      cases hkind
  | ingestResumeMessages key messages =>
    exact iff_of_true (ingestResumeMessages_oneStream r key messages) (fun hstart => hstart.elim)
  | resetFromResume key =>
    refine iff_of_true ?_ (fun hstart => hstart.elim)
    intro i kind hk
    cases hk

/-- Along a run exactly the row of the latch is marked as streaming, if and only if no message starts while another
one is open. -/
theorem one_stream (ops : List Op) :
    (∀ before, before <+: ops → (after before).OneStream) ↔
      ∀ before op, before ++ [op] <+: ops → op.StartsMessage → (after before).isStreaming = false := by
  refine Run.prefixes_iff (P := fun before => (after before).OneStream) ?_ ?_ ops
  · intro i kind hk
    cases hk
  · intro before op h
    rw [after_snoc]
    exact perform_oneStream (after_wellFormed before) h op

end

section

attribute [local instance] Serializer.compact

/-- The completion of a first message is lost, and the next turn starts. -/
theorem earlier_row_streams :
    ¬ (after [.apply ⟨"message.start", "live", none, .null⟩, .apply ⟨"message.start", "live", none, .null⟩]).OneStream := by
  intro h
  have hfirst : some 1 = some 0 := (h 0 (.assistant "" true "" "") rfl).1 rfl
  cases hfirst

end

end Reducer

end Hermo
