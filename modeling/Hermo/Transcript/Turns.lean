import Hermo.Transcript.OneStream
import Hermo.Transcript.ToolCards

/-!
# The texts of a turn

A frame that ends a message replaces the text of the open row, also when it carries no text: `text_kept_iff` says when
the text stays.  A thinking row is closed by `message.start`; a text that opens a row on its own leaves it open, and
what is thought later goes above that row: `thinking_iff` says which runs this happens in.
-/

namespace Hermo

def RowKind.IsAssistant : RowKind → Prop
  | .assistant .. => True
  | _ => False

/-- The operation closes the thinking row. -/
def Op.EndsStreak (op : Op) : Prop := op.replaces = true ∨ op.StartsMessage

namespace Transcript

/-- Row `i` is an assistant row with this text. -/
def HasText (t : Transcript) (i : Nat) (text : String) : Prop :=
  ∃ streaming usage warning, t.kindOf i = some (.assistant text streaming usage warning)

/-- Some row was rewritten to an assistant row with another text. -/
theorem hasText_revise {t : Transcript} {i j : Nat} {text new : String} {usage warning usage' warning' : String}
    (hrow : t.kindOf i = some (.assistant text true usage warning)) {f : RowKind → RowKind}
    (hf : f (.assistant text true usage warning) = .assistant new false usage' warning') :
    (t.revise j f).HasText i text ↔ j = i → new = text := by
  unfold HasText
  rw [kindOf_revise, hrow]
  by_cases hij : j = i
  · rw [if_pos hij, Option.map_some, hf]
    constructor
    · rintro ⟨streaming, u, w, h⟩ -
      cases h
      rfl
    · intro h
      rw [h hij]
      exact ⟨false, usage', warning', rfl⟩
  · rw [if_neg hij]
    exact iff_of_true ⟨true, usage, warning, rfl⟩ fun h => absurd h hij

/-- An assistant row stands behind row `i`. -/
def AssistantAfter (t : Transcript) (i : Nat) : Prop := ∃ j, i < j ∧ t.Has j RowKind.IsAssistant

theorem assistantAfter_push (t : Transcript) (kind : RowKind) {i : Nat} (hi : i < t.rows.length) :
    (t.push kind).AssistantAfter i ↔ kind.IsAssistant ∨ t.AssistantAfter i := by
  constructor
  · rintro ⟨j, hij, h⟩
    rcases (t.has_push_iff kind j _).1 h with ⟨-, hkind⟩ | hold
    · exact .inl hkind
    · exact .inr ⟨j, hij, hold⟩
  · rintro (hkind | ⟨j, hij, hold⟩)
    · exact ⟨t.rows.length, hi, t.has_push_self hkind⟩
    · exact ⟨j, hij, hold.push kind⟩

/-- Revising a row keeps its kind. -/
theorem assistantAfter_revise {t : Transcript} {j : Nat} {old new : RowKind} (hk : t.kindOf j = some old)
    (hsame : new.IsAssistant ↔ old.IsAssistant) (i : Nat) :
    (t.revise j fun _ => new).AssistantAfter i ↔ t.AssistantAfter i := by
  have hrow : ∀ n, (t.revise j fun _ => new).Has n RowKind.IsAssistant ↔ t.Has n RowKind.IsAssistant := by
    intro n
    rw [has_revise_iff hk]
    constructor
    · rintro (⟨rfl, hnew⟩ | ⟨-, hold⟩)
      · exact ⟨old, hk, hsame.1 hnew⟩
      · exact hold
    · intro hold
      by_cases hn : n = j
      · subst hn
        obtain ⟨kind, hkind, hassistant⟩ := hold
        cases hk.symm.trans hkind
        exact .inl ⟨rfl, hsame.2 hassistant⟩
      · exact .inr ⟨hn, hold⟩
  exact exists_congr fun n => and_congr_right fun _ => hrow n

end Transcript

namespace Reducer

section

variable [Serializer]

/-! ### A frame without a text -/

/-- A `message.complete` or `message.interim` that carries no text keeps the text of a streaming row exactly when there
is none to lose, the event is no input of the reducer, the row is not the open one, the payload is no object, or the
interim text was streamed already. -/
theorem text_kept_iff (ops : List Op) (event : EventParams)
    (hkind : EventKind.parse event.eventType = .messageComplete ∨ EventKind.parse event.eventType = .messageInterim)
    (htext : (event.payload.get "text").bind Value.asStr = none) {i : Nat} {text usage warning : String}
    (hrow : (after ops).state.kindOf i = some (.assistant text true usage warning)) :
    ((after ops).apply event).1.state.HasText i text ↔
      text = "" ∨ event.sessionId = "" ∨ (after ops).streaming ≠ some i ∨
        (EventKind.parse event.eventType = .messageComplete ∧ event.payload.isObject = false) ∨
        (EventKind.parse event.eventType = .messageInterim ∧ event.payload.boolAt "already_streamed" = true) := by
  have hempty : event.payload.strAt "text" = "" := by
    unfold Value.strAt
    rw [htext]
    rfl
  have hsame : (after ops).state.HasText i text := ⟨true, usage, warning, hrow⟩
  unfold apply
  by_cases hid : event.sessionId = ""
  · rw [if_pos hid]
    exact iff_of_true hsame (.inr (.inl hid))
  rw [if_neg hid]
  rcases hkind with hkind | hkind <;> rw [hkind] <;> dsimp only [handle]
  · unfold onMessageComplete
    by_cases hobject : event.payload.isObject = false
    · rw [if_pos hobject]
      exact iff_of_true hsame (.inr (.inr (.inr (.inl ⟨rfl, hobject⟩))))
    rw [if_neg hobject]
    dsimp only
    cases hs : (after ops).streaming with
    | none => exact iff_of_true hsame (.inr (.inr (.inl nofun)))
    | some j =>
      dsimp only
      rw [Transcript.hasText_revise hrow rfl, hempty]
      simp only [hid, hobject, ne_eq, Option.some.injEq, reduceCtorEq, false_and, and_false, or_false, false_or]
      rw [eq_comm (a := "") (b := text), imp_iff_not_or, or_comm]
  · unfold onMessageInterim
    dsimp only
    cases hs : (after ops).streaming with
    | none => exact iff_of_true hsame (.inr (.inr (.inl nofun)))
    | some j =>
      dsimp only
      rw [Transcript.hasText_revise hrow rfl, hempty]
      cases event.payload.boolAt "already_streamed" with
      | true => exact iff_of_true (fun _ => rfl) (.inr (.inr (.inr (.inr ⟨rfl, rfl⟩))))
      | false =>
        simp only [hid, ne_eq, Option.some.injEq, reduceCtorEq, false_and, and_false, or_false, false_or, if_false]
        rw [eq_comm (a := "") (b := text), imp_iff_not_or, or_comm]

end

/-! ### A thinking row that stays open -/

/-- An assistant row stands behind the open thinking row. -/
def Stale (r : Reducer) : Prop := ∃ i, r.thinking = some i ∧ r.state.AssistantAfter i

/-- The operation is a text that opens a row on its own, while a thinking row is open. -/
def OpensUnannounced (r : Reducer) (op : Op) : Prop :=
  r.thinking ≠ none ∧ r.streaming = none ∧
    ∃ event, op = .apply event ∧ event.sessionId ≠ "" ∧ EventKind.parse event.eventType = .messageDelta ∧
      event.payload.strAt "text" ≠ ""

theorem stale_congr {r r' : Reducer} (hthinking : r'.thinking = r.thinking)
    (hrows : ∀ i, r.thinking = some i → (r'.state.AssistantAfter i ↔ r.state.AssistantAfter i)) :
    r'.Stale ↔ r.Stale := by
  unfold Stale
  rw [hthinking]
  exact exists_congr fun i => and_congr_right fun hi => hrows i hi

theorem thinking_lt {r : Reducer} (h : r.WellFormed) {i : Nat} (hi : r.thinking = some i) :
    i < r.state.rows.length := by
  obtain ⟨kind, hk, -⟩ := h.thinking i hi
  exact Transcript.lt_of_kindOf hk

theorem stale_push {r : Reducer} (hw : r.WellFormed) (kind : RowKind) (streaming : Option Nat)
    (tools : AList fun _ : String => Nat) :
    ({ r with state := r.state.push kind, streaming := streaming, tools := tools } : Reducer).Stale ↔
      (r.thinking ≠ none ∧ kind.IsAssistant) ∨ r.Stale := by
  unfold Stale
  constructor
  · rintro ⟨i, hi, hafter⟩
    rcases (Transcript.assistantAfter_push r.state kind (thinking_lt hw hi)).1 hafter with hkind | hold
    · exact .inl ⟨by rw [hi]; nofun, hkind⟩
    · exact .inr ⟨i, hi, hold⟩
  · rintro (⟨hsome, hkind⟩ | ⟨i, hi, hold⟩)
    · obtain ⟨i, hi⟩ := Option.ne_none_iff_exists'.1 hsome
      exact ⟨i, hi, (Transcript.assistantAfter_push r.state kind (thinking_lt hw hi)).2 (.inl hkind)⟩
    · exact ⟨i, hi, (Transcript.assistantAfter_push r.state kind (thinking_lt hw hi)).2 (.inr hold)⟩

theorem stale_revise {r : Reducer} {j : Nat} {old : RowKind} (hk : r.state.kindOf j = some old) (new : RowKind)
    (hsame : new.IsAssistant ↔ old.IsAssistant) (streaming : Option Nat) (tools : AList fun _ : String => Nat) :
    ({ r with state := r.state.revise j fun _ => new, streaming := streaming, tools := tools } : Reducer).Stale ↔
      r.Stale :=
  stale_congr rfl fun i _ => Transcript.assistantAfter_revise hk hsame i

theorem Move.stale {r r' : Reducer} {payload : Value} {k : EventKind} (hmove : Move r payload k r') (hw : r.WellFormed)
    (hstart : k ≠ .messageStart) (hstreaming : r.streaming = none → r'.streaming = none) : r'.Stale ↔ r.Stale := by
  cases hmove with
  | quiet => exact Iff.rfl
  | header => exact stale_congr rfl fun i _ => Iff.rfl
  | append _ kind hplain =>
    refine (stale_push hw kind r.streaming r.tools).trans (or_iff_right fun h => ?_)
    cases kind <;> first | exact h.2 | exact hplain
  | start => exact absurd rfl hstart
  | openText _ text hs => cases hstreaming hs
  | streamText _ i old text usage warning hs hk =>
    exact stale_revise hk (.assistant text true usage warning) Iff.rfl r.streaming r.tools
  | sealText _ i old usage warning text usage' warning' hs hk =>
    exact stale_revise hk (.assistant text false usage' warning') Iff.rfl none r.tools
  | openThinking _ text hs =>
    -- the new row is the last one
    refine iff_of_false ?_ ?_
    · rintro ⟨i, hi, j, hij, kind, hk, -⟩
      have hlt := Transcript.lt_of_kindOf hk
      dsimp only at hi hlt
      rw [Transcript.push_rows, List.length_append, List.length_singleton] at hlt
      rw [Option.some_inj] at hi
      omega
    · rintro ⟨i, hi, -⟩
      rw [hs] at hi
      cases hi
  | think _ i old text hk => exact stale_revise hk (.thinking text) Iff.rfl r.streaming r.tools
  | updateTool _ i card card' hk => exact stale_revise hk (.tool card') Iff.rfl r.streaming r.tools
  | pairTool i card card' hid hnew hp hk => exact stale_revise hk (.tool card') Iff.rfl r.streaming _
  | openTool _ card hid hnew =>
    exact (stale_push hw (.tool card) r.streaming _).trans (or_iff_right fun h => h.2.elim)

private theorem delta_stale {r : Reducer} (hw : r.WellFormed) (text : String) :
    (r.appendStreamingText text).1.Stale ↔ (r.thinking ≠ none ∧ r.streaming = none ∧ text ≠ "") ∨ r.Stale := by
  unfold appendStreamingText
  split
  · rename_i htext
    exact (or_iff_right fun h => h.2.2 htext).symm
  · rename_i htext
    dsimp only
    cases hs : r.streaming with
    | none =>
      rw [stale_push hw _ _ r.tools]
      simp [htext, RowKind.IsAssistant]
    | some i =>
      obtain ⟨old, usage, warning, hk⟩ := (hw.streaming i hs).assistant
      dsimp only
      rw [hk]
      dsimp only
      refine Iff.trans ?_ (or_iff_right fun h => nomatch h.2.1).symm
      exact stale_revise hk (.assistant (old ++ text) true usage warning) Iff.rfl (some i) r.tools

private theorem resolveCard_stale (r : Reducer) (pred : RowKind → Bool) (settle : RowKind → RowKind) (key : String)
    (h : ∀ kind, (settle kind).IsAssistant ↔ kind.IsAssistant) : (r.resolveCard pred settle key).1.Stale ↔ r.Stale := by
  rcases r.resolveCard_cases pred settle key with ⟨-, hsame⟩ | ⟨i, kind, -, hk, -, hsettled⟩
  · rw [hsame]
  · rw [hsettled]
    dsimp only
    rw [Transcript.revise_congr hk]
    exact stale_revise hk (settle kind) (h kind) r.streaming r.tools

private theorem ingestResumeMessages_thinking (r : Reducer) (key : String) (messages : List Value) :
    (r.ingestResumeMessages key messages).1.thinking = none := by
  have hfold : ∀ acc : Reducer × List TranscriptChange, acc.1.thinking = none →
      (messages.foldl ingestMessage acc).1.thinking = none := by
    induction messages with
    | nil => exact fun acc h => h
    | cons msg messages ih =>
      intro acc h
      refine ih _ ?_
      unfold ingestMessage
      dsimp only
      split <;> exact h
  exact hfold ({}, [.reset]) rfl

section

variable [Serializer]

/-- Only a start or a delta opens a message. -/
theorem handle_streaming {r : Reducer} {k : EventKind} (hstart : k ≠ .messageStart) (hdelta : k ≠ .messageDelta)
    (hs : r.streaming = none) (payload : Value) : (r.handle k payload).1.streaming = none := by
  cases k with
  | messageStart => exact absurd rfl hstart
  | messageDelta => exact absurd rfl hdelta
  | messageInterim =>
    rw [handle, onMessageInterim, hs]
    exact hs
  | messageComplete =>
    rw [handle, onMessageComplete, hs]
    split <;> exact hs
  | thinkingDelta =>
    unfold handle onThinkingDelta
    dsimp only
    split
    · split <;> exact hs
    · exact hs
  | toolStart =>
    unfold handle onToolStart
    dsimp only
    split
    · exact hs
    · split
      · exact hs
      · split <;> exact hs
  | toolProgress =>
    unfold handle onToolProgress
    dsimp only
    split
    · exact hs
    · split
      · exact hs
      · split <;> exact hs
  | toolComplete =>
    unfold handle onToolComplete
    dsimp only
    split <;> exact hs
  | statusUpdate =>
    unfold handle onStatusUpdate
    dsimp only
    split
    · exact hs
    · split <;> exact hs
  | approvalRequest =>
    dsimp only [handle, onApprovalRequest]
    split <;> exact hs
  | clarifyRequest =>
    unfold handle onClarifyRequest
    dsimp only
    split <;> exact hs
  | sessionInfo =>
    dsimp only [handle, onSessionInfo, mergeHeader]
    split <;> exact hs
  | sessionTitle =>
    dsimp only [handle, onSessionTitle, mergeHeader]
    split <;> exact hs
  | toolGenerating => exact hs
  | error => exact hs
  | unknown => exact hs

/-- What an event does to a stale thinking row. -/
theorem handle_stale {r : Reducer} (hw : r.WellFormed) (k : EventKind) (payload : Value) :
    (r.handle k payload).1.Stale ↔
      (r.thinking ≠ none ∧ r.streaming = none ∧ k = .messageDelta ∧ payload.strAt "text" ≠ "") ∨
        (r.Stale ∧ k ≠ .messageStart) := by
  by_cases hstart : k = .messageStart
  · subst hstart
    exact iff_of_false (fun h => by obtain ⟨i, hi, -⟩ := h; cases hi) (by simp)
  by_cases hdelta : k = .messageDelta
  · subst hdelta
    exact (delta_stale hw _).trans (by simp)
  refine Iff.trans ?_ (show r.Stale ↔ _ by simp [hstart, hdelta])
  exact (handle_move hw k payload).stale hw hstart fun hs => handle_streaming hstart hdelta hs payload

private theorem apply_stale {r : Reducer} (hw : r.WellFormed) (event : EventParams) :
    (r.apply event).1.Stale ↔ r.OpensUnannounced (.apply event) ∨ (r.Stale ∧ ¬ Op.EndsStreak (.apply event)) := by
  have hopens : r.OpensUnannounced (.apply event) ↔ r.thinking ≠ none ∧ r.streaming = none ∧ event.sessionId ≠ "" ∧
      EventKind.parse event.eventType = .messageDelta ∧ event.payload.strAt "text" ≠ "" := by
    simp [OpensUnannounced]
  have hends : Op.EndsStreak (.apply event) ↔
      event.sessionId ≠ "" ∧ EventKind.parse event.eventType = .messageStart := by
    simp [Op.EndsStreak, Op.replaces, Op.StartsMessage]
  rw [hopens, hends]
  unfold apply
  by_cases hid : event.sessionId = ""
  · rw [if_pos hid]
    simp [hid]
  · rw [if_neg hid]
    refine (handle_stale hw (.parse event.eventType) event.payload).trans ?_
    simp [hid]

theorem perform_stale {r : Reducer} (hw : r.WellFormed) (op : Op) :
    (r.perform op).1.Stale ↔ r.OpensUnannounced op ∨ (r.Stale ∧ ¬ op.EndsStreak) := by
  have hlocal : ∀ {o : Op}, o.replaces = false → (∀ event, o ≠ .apply event) →
      (r.Stale ↔ r.OpensUnannounced o ∨ (r.Stale ∧ ¬ o.EndsStreak)) := by
    intro o hreplaces happly
    cases o with
    | apply event => exact absurd rfl (happly event)
    | _ => simp_all [OpensUnannounced, Op.EndsStreak, Op.StartsMessage]
  cases op with
  | apply event => exact apply_stale hw event
  | resolveApproval key requestId =>
    refine (resolveCard_stale r _ _ key fun kind => ?_).trans (hlocal rfl nofun)
    cases kind <;> exact Iff.rfl
  | resolveClarify key requestId =>
    refine (resolveCard_stale r _ _ key fun kind => ?_).trans (hlocal rfl nofun)
    cases kind <;> exact Iff.rfl
  | appendUserRow key text =>
    refine Iff.trans ?_ (hlocal rfl nofun)
    exact (stale_push hw (.user text) r.streaming r.tools).trans (or_iff_right fun h => h.2.elim)
  | applyApprovalCard key requestId card =>
    refine Iff.trans ?_ (hlocal rfl nofun)
    rw [perform_applyApprovalCard]
    split
    · exact Iff.rfl
    · have hkind : EventKind.parse "approval.request" = .approvalRequest := rfl
      rw [apply_stale hw]
      simp [OpensUnannounced, Op.EndsStreak, Op.replaces, Op.StartsMessage, hkind]
  | ingestResumeMessages key messages =>
    refine iff_of_false ?_ ?_
    · rintro ⟨i, hi, -⟩
      cases (ingestResumeMessages_thinking r key messages).symm.trans hi
    · simp [OpensUnannounced, Op.EndsStreak, Op.replaces]
  | resetFromResume key =>
    refine iff_of_false ?_ ?_
    · rintro ⟨i, hi, -⟩
      cases hi
    · simp [OpensUnannounced, Op.EndsStreak, Op.replaces]

/-- The thinking row is stale exactly since a text opened a row on its own. -/
theorem stale_iff (ops : List Op) :
    (after ops).Stale ↔ ∃ start delta between, ops = start ++ delta :: between ∧
      (after start).OpensUnannounced delta ∧ ∀ op ∈ between, ¬ op.EndsStreak := by
  refine Run.since_iff (Q := fun ops => (after ops).Stale) (fun h => ?_) (fun before op => ?_) ops
  · obtain ⟨i, hi, -⟩ := h
    cases hi
  · rw [after_snoc]
    exact perform_stale (after_wellFormed before) op

/-- A thinking delta extends a row with no assistant row behind it, or opens a new row. -/
def ThinksInTurn (r : Reducer) (event : EventParams) : Prop :=
  (∃ i, (r.apply event).2.map SessionChange.change = [.rowUpdated i] ∧ ¬ r.state.AssistantAfter i) ∨
    (r.apply event).1.state = r.state.push (.thinking (event.payload.strAt "text"))

theorem thinksInTurn_iff {r : Reducer} (hw : r.WellFormed) {event : EventParams} (hid : event.sessionId ≠ "")
    (hkind : EventKind.parse event.eventType = .thinkingDelta) : r.ThinksInTurn event ↔ ¬ r.Stale := by
  unfold ThinksInTurn apply
  rw [if_neg hid, hkind]
  dsimp only [handle]
  unfold onThinkingDelta
  dsimp only
  cases hs : r.thinking with
  | none =>
    refine iff_of_true (.inr rfl) ?_
    rintro ⟨i, hi, -⟩
    rw [hs] at hi
    cases hi
  | some i =>
    obtain ⟨kind, hk, hthinking⟩ := hw.thinking i hs
    cases kind with
    | thinking old =>
      have hstale : r.Stale ↔ r.state.AssistantAfter i := by simp [Stale, hs]
      rw [hstale]
      dsimp only
      rw [hk]
      dsimp only
      constructor
      · rintro (⟨j, hj, hafter⟩ | hpush)
        · cases hj
          exact hafter
        · -- no row was added
          have hlength := congrArg (fun t => t.rows.length) hpush
          simp at hlength
      · exact fun h => .inl ⟨i, rfl, h⟩
    | _ => exact hthinking.elim

/-- Along a run every thinking delta stays in its turn if and only if none comes after a text that opened a row on its
own while a thinking row was open, with no `message.start` and no rebuild in between. -/
theorem thinking_iff (ops : List Op) :
    (∀ before event, before ++ [.apply event] <+: ops → event.sessionId ≠ "" →
        EventKind.parse event.eventType = .thinkingDelta → (after before).ThinksInTurn event) ↔
      ∀ start delta between event, start ++ delta :: between ++ [.apply event] <+: ops → event.sessionId ≠ "" →
        EventKind.parse event.eventType = .thinkingDelta → (after start).OpensUnannounced delta →
          ∃ op ∈ between, op.EndsStreak := by
  constructor
  · intro h start delta between event hprefix hid hkind hopens
    have hturn := (thinksInTurn_iff (after_wellFormed _) hid hkind).1 (h _ event hprefix hid hkind)
    by_contra hends
    refine hturn ((stale_iff _).2 ⟨start, delta, between, rfl, hopens, ?_⟩)
    exact fun op hop hend => hends ⟨op, hop, hend⟩
  · intro h before event hprefix hid hkind
    refine (thinksInTurn_iff (after_wellFormed _) hid hkind).2 ?_
    intro hstale
    obtain ⟨start, delta, between, rfl, hopens, hbetween⟩ := (stale_iff before).1 hstale
    obtain ⟨op, hop, hend⟩ := h start delta between event hprefix hid hkind hopens
    exact hbetween op hop hend

end

/-! ### An interrupted turn, and a text without a start -/

section

attribute [local instance] Serializer.compact

private def frame (eventType : String) (fields : List (String × Value)) : EventParams :=
  ⟨eventType, "live", none, .object fields⟩

private def started : List Op :=
  [.apply (frame "message.start" []), .apply (frame "message.delta" [("text", .string "ab")])]

/-- The text of a row that an interrupt without a text closed is gone. -/
theorem interrupt_erases_text :
    let event := frame "message.complete" [("status", .string "interrupted")]
    (after started).state.kindOf 0 = some (.assistant "ab" true "" "") ∧
      (event.payload.get "text").bind Value.asStr = none ∧
        ((after started).apply event).1.state.kindOf 0 = some (.assistant "" false "" "") := by
  decide

/-- An interim text that was streamed already keeps the row. -/
theorem streamed_interim_keeps_text :
    ((after started).apply (frame "message.interim" [("already_streamed", .bool true)])).1.state.HasText 0 "ab" :=
  (text_kept_iff started _ (.inr rfl) rfl rfl).2 (.inr (.inr (.inr (.inr ⟨rfl, rfl⟩))))

private def think (text : String) : EventParams := frame "thinking.delta" [("text", .string text)]

/-- What is thought after a text without a start goes above it. -/
theorem late_thought_above_text :
    let before : List Op := [.apply (think "a"), .apply (frame "message.delta" [("text", .string "x")])]
    ¬ (after before).ThinksInTurn (think "b") ∧
      ((after before).apply (think "b")).1.state.rows = [⟨0, .thinking "ab"⟩, ⟨1, .assistant "x" true "" ""⟩] := by
  refine ⟨?_, by decide⟩
  rintro (⟨i, hi, hafter⟩ | hpush)
  · cases hi
    exact hafter ⟨1, Nat.zero_lt_one, _, rfl, trivial⟩
  · exact absurd hpush (by decide)

end

end Reducer

end Hermo
