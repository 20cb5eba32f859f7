import Hermo.Transcript.Reducer

/-!
# What an event does to a transcript

`Reducer.WellFormed` is the representation invariant: rows carry their own index, and the latches and the tool map
point at rows of the right kind.  Under it every handler does one of four things, which `Effect` lists together
with the change list each of them returns: nothing, one row pushed at the end, one row revised in place within its
kind, or the header replaced.  All later facts about handlers are read off `handle_effect`.
-/

namespace Hermo

/-- How a row may change in place: only assistant, thinking and tool rows do, and they keep their kind. -/
inductive Revises : RowKind → RowKind → Prop where
  | assistant (t s u w t' s' u' w') : Revises (.assistant t s u w) (.assistant t' s' u' w')
  | thinking (t t') : Revises (.thinking t) (.thinking t')
  | tool (c c') : Revises (.tool c) (.tool c')

/-- What one event does to a transcript, and the changes that report it.  `opens` bounds the rows it may push. -/
inductive Effect (opens : RowKind → Prop) (t : Transcript) : Transcript → List TranscriptChange → Prop where
  | quiet : Effect opens t t []
  | push (kind : RowKind) (h : opens kind) : Effect opens t (t.push kind) [.rowAppended t.rows.length]
  | revise (i : Nat) (old new : RowKind) (h : t.kindOf i = some old) (hr : Revises old new) :
      Effect opens t (t.revise i fun _ => new) [.rowUpdated i]
  | header (info : SessionHeader) : Effect opens t { t with header := info } [.headerUpdated]

/-- The rows an event of kind `k` may open: never a user row, an approval card only for `approval.request`. -/
def EventKind.Opens (k : EventKind) (payload : Value) : RowKind → Prop
  | .user _ => False
  | .approval card => k = .approvalRequest ∧ card = Reducer.approvalCard payload ∧ card.requestId ≠ ""
  | _ => True

def RowKind.IsStreaming : RowKind → Prop
  | .assistant _ streaming _ _ => streaming = true
  | _ => False

def RowKind.IsThinking : RowKind → Prop
  | .thinking _ => True
  | _ => False

def RowKind.IsTool (id : String) : RowKind → Prop
  | .tool card => card.toolId = id
  | _ => False

namespace Transcript

/-- Every row carries its own position. -/
def Indexed (t : Transcript) : Prop := ∀ (i : Nat) (row : Row), t.rows[i]? = some row → row.index = i

/-- Row `i` exists and its kind satisfies `p`. -/
def Has (t : Transcript) (i : Nat) (p : RowKind → Prop) : Prop := ∃ kind, t.kindOf i = some kind ∧ p kind

theorem Indexed.push {t : Transcript} (h : t.Indexed) (kind : RowKind) : (t.push kind).Indexed := by
  intro i row hrow
  rw [push_rows, List.getElem?_append] at hrow
  split at hrow
  · exact h i row hrow
  · rename_i hlt
    rw [List.getElem?_singleton] at hrow
    split at hrow
    · cases hrow
      dsimp only
      omega
    · cases hrow

theorem Indexed.revise {t : Transcript} (h : t.Indexed) (j : Nat) (f : RowKind → RowKind) :
    (t.revise j f).Indexed := by
  intro i row hrow
  rw [revise_rows, List.getElem?_modify, Option.map_eq_map, Option.map_eq_some_iff] at hrow
  obtain ⟨old, hold, rfl⟩ := hrow
  have hi := h i old hold
  split <;> exact hi

theorem Has.push {t : Transcript} {i : Nat} {p : RowKind → Prop} (h : t.Has i p) (kind : RowKind) :
    (t.push kind).Has i p := by
  obtain ⟨old, hold, hp⟩ := h
  have hlt := lt_of_kindOf hold
  refine ⟨old, ?_, hp⟩
  rw [kindOf_push, if_neg (by omega), hold]

theorem has_push_self (t : Transcript) {kind : RowKind} {p : RowKind → Prop} (h : p kind) :
    (t.push kind).Has t.rows.length p := by
  refine ⟨kind, ?_, h⟩
  rw [kindOf_push, if_pos rfl]

theorem Has.revise {t : Transcript} {i : Nat} {p : RowKind → Prop} (h : t.Has i p) (j : Nat)
    (f : RowKind → RowKind) (hf : j = i → ∀ kind, t.kindOf i = some kind → p kind → p (f kind)) :
    (t.revise j f).Has i p := by
  obtain ⟨old, hold, hp⟩ := h
  by_cases hij : j = i
  · refine ⟨f old, ?_, hf hij old hold hp⟩
    rw [kindOf_revise, if_pos hij, hold, Option.map_some]
  · refine ⟨old, ?_, hp⟩
    rw [kindOf_revise, if_neg hij, hold]

theorem has_revise_self {t : Transcript} {i : Nat} {old : RowKind} (h : t.kindOf i = some old)
    {f : RowKind → RowKind} {p : RowKind → Prop} (hp : p (f old)) : (t.revise i f).Has i p := by
  refine ⟨f old, ?_, hp⟩
  rw [kindOf_revise, if_pos rfl, h, Option.map_some]

theorem Has.assistant {t : Transcript} {i : Nat} (h : t.Has i RowKind.IsStreaming) :
    ∃ text usage warning, t.kindOf i = some (.assistant text true usage warning) := by
  obtain ⟨kind, hk, hp⟩ := h
  cases kind <;> simp only [RowKind.IsStreaming] at hp
  subst hp
  exact ⟨_, _, _, hk⟩

theorem Has.tool {t : Transcript} {i : Nat} {id : String} (h : t.Has i (RowKind.IsTool id)) :
    ∃ card, t.kindOf i = some (.tool card) ∧ card.toolId = id := by
  obtain ⟨kind, hk, hp⟩ := h
  cases kind <;> simp only [RowKind.IsTool] at hp
  exact ⟨_, hk, hp⟩

end Transcript

namespace Reducer

/-- The representation invariant of the reducer. -/
structure WellFormed (r : Reducer) : Prop where
  indexed : r.state.Indexed
  streaming : ∀ i, r.streaming = some i → r.state.Has i RowKind.IsStreaming
  thinking : ∀ i, r.thinking = some i → r.state.Has i RowKind.IsThinking
  tools : ∀ id i, r.tools.lookup id = some i → id ≠ "" ∧ r.state.Has i (RowKind.IsTool id)

theorem wellFormed_empty : WellFormed {} := by
  constructor <;> simp [Transcript.Indexed]

/-! ### The effect of one event -/

private theorem effect_revise {opens : RowKind → Prop} {t : Transcript} {i : Nat} {old : RowKind}
    (h : t.kindOf i = some old) (f : RowKind → RowKind) (hr : Revises old (f old)) :
    Effect opens t (t.revise i f) [.rowUpdated i] := by
  rw [Transcript.revise_congr h]
  exact Effect.revise i old (f old) h hr

private theorem appendStreamingText_effect {opens : RowKind → Prop} (r : Reducer) (text : String)
    (ho : opens (.assistant text true "" "")) :
    Effect opens r.state (r.appendStreamingText text).1.state (r.appendStreamingText text).2 := by
  unfold appendStreamingText
  split
  · exact .quiet
  · dsimp only
    split
    · split
      · rename_i h
        exact .revise _ _ _ h (.assistant ..)
      · exact .push _ ho
    · exact .push _ ho

private theorem onMessageInterim_effect {opens : RowKind → Prop} {r : Reducer} (h : r.WellFormed)
    (payload : Value) :
    Effect opens r.state (r.onMessageInterim payload).1.state (r.onMessageInterim payload).2 := by
  unfold onMessageInterim
  cases hs : r.streaming with
  | none => exact .quiet
  | some i =>
    obtain ⟨t, u, w, hk⟩ := (h.streaming i hs).assistant
    dsimp only
    refine effect_revise hk _ ?_
    exact Revises.assistant ..

private theorem onThinkingDelta_effect {opens : RowKind → Prop} (r : Reducer) (payload : Value)
    (ho : opens (.thinking (payload.strAt "text"))) :
    Effect opens r.state (r.onThinkingDelta payload).1.state (r.onThinkingDelta payload).2 := by
  unfold onThinkingDelta
  dsimp only
  split
  · split
    · rename_i h
      exact .revise _ _ _ h (.thinking ..)
    · exact .push _ ho
  · exact .push _ ho

/-- The row `pendingGeneratingRow` finds is a tool row without an id. -/
theorem kindOf_pendingGeneratingRow {r : Reducer} {name : String} {i : Nat}
    (h : r.pendingGeneratingRow name = some i) :
    ∃ card, r.state.kindOf i = some (.tool card) ∧ card.toolId = "" ∧ card.name = name := by
  unfold pendingGeneratingRow at h
  rw [Option.map_eq_some_iff] at h
  obtain ⟨j, hj, rfl⟩ := h
  rw [List.findIdx?_eq_some_iff_getElem] at hj
  obtain ⟨hlt, hp, -⟩ := hj
  rw [List.getElem_reverse] at hp
  rw [List.length_reverse] at hlt
  have hk : r.state.kindOf (r.state.rows.length - 1 - j) =
      some (r.state.rows.get ⟨r.state.rows.length - 1 - j, by omega⟩).kind := by
    unfold Transcript.kindOf
    rw [List.getElem?_eq_getElem (by omega), Option.map_some]
    rfl
  rw [hk, List.get_eq_getElem]
  dsimp only
  split at hp
  · rename_i card hcard
    simp only [Bool.and_eq_true, beq_iff_eq] at hp
    exact ⟨card, by rw [hcard], hp⟩
  · cases hp

private theorem onToolProgress_effect {opens : RowKind → Prop} (r : Reducer) (payload : Value) :
    Effect opens r.state (r.onToolProgress payload).1.state (r.onToolProgress payload).2 := by
  unfold onToolProgress
  dsimp only
  split
  · exact .quiet
  · split
    · exact .quiet
    · split
      · rename_i h
        exact .revise _ _ _ h (.tool ..)
      · exact .quiet

private theorem onStatusUpdate_effect {opens : RowKind → Prop} (r : Reducer) (payload : Value)
    (ho : ∀ kind text, opens (.status kind text)) :
    Effect opens r.state (r.onStatusUpdate payload).1.state (r.onStatusUpdate payload).2 := by
  unfold onStatusUpdate
  dsimp only
  split
  · exact .quiet
  · split
    · exact .quiet
    · exact .push _ (ho _ _)

private theorem mergeHeader_effect {opens : RowKind → Prop} (r : Reducer) (info : SessionHeader) :
    Effect opens r.state (r.mergeHeader info).1.state (r.mergeHeader info).2 := by
  unfold mergeHeader
  split
  · exact .quiet
  · exact .header _

section

variable [Serializer]

private theorem onMessageComplete_effect {opens : RowKind → Prop} {r : Reducer} (h : r.WellFormed)
    (payload : Value) :
    Effect opens r.state (r.onMessageComplete payload).1.state (r.onMessageComplete payload).2 := by
  unfold onMessageComplete
  split
  · exact .quiet
  · cases hs : r.streaming with
    | none => exact .quiet
    | some i =>
      obtain ⟨t, u, w, hk⟩ := (h.streaming i hs).assistant
      dsimp only
      refine effect_revise hk _ ?_
      exact Revises.assistant ..

private theorem onToolStart_effect {opens : RowKind → Prop} {r : Reducer} (h : r.WellFormed) (payload : Value)
    (ho : ∀ card, opens (.tool card)) :
    Effect opens r.state (r.onToolStart payload).1.state (r.onToolStart payload).2 := by
  unfold onToolStart
  dsimp only
  split
  · exact .quiet
  · split
    · rename_i hl
      obtain ⟨card, hk, -⟩ := (h.tools _ _ hl).2.tool
      dsimp only
      refine effect_revise hk _ ?_
      exact Revises.tool ..
    · split
      · rename_i hp
        obtain ⟨card, hk, -⟩ := kindOf_pendingGeneratingRow hp
        dsimp only
        refine effect_revise hk _ ?_
        exact Revises.tool ..
      · exact .push _ (ho _)

private theorem onToolComplete_effect {opens : RowKind → Prop} {r : Reducer} (h : r.WellFormed)
    (payload : Value) :
    Effect opens r.state (r.onToolComplete payload).1.state (r.onToolComplete payload).2 := by
  unfold onToolComplete
  dsimp only
  split
  · rename_i hl
    obtain ⟨card, hk, -⟩ := (h.tools _ _ hl).2.tool
    dsimp only
    refine effect_revise hk _ ?_
    exact Revises.tool ..
  · exact .quiet

/-- Every event has one of the four effects, and reports exactly it. -/
theorem handle_effect {r : Reducer} (h : r.WellFormed) (k : EventKind) (payload : Value) :
    Effect (k.Opens payload) r.state (r.handle k payload).1.state (r.handle k payload).2 := by
  cases k with
  | messageStart => exact .push _ trivial
  | messageDelta => exact appendStreamingText_effect r _ trivial
  | messageInterim => exact onMessageInterim_effect h payload
  | messageComplete => exact onMessageComplete_effect h payload
  | thinkingDelta => exact onThinkingDelta_effect r payload trivial
  | toolGenerating => exact .push _ trivial
  | toolStart => exact onToolStart_effect h payload fun _ => trivial
  | toolProgress => exact onToolProgress_effect r payload
  | toolComplete => exact onToolComplete_effect h payload
  | statusUpdate => exact onStatusUpdate_effect r payload fun _ _ => trivial
  | approvalRequest =>
    simp only [handle, onApprovalRequest]
    split
    · exact .quiet
    · rename_i hid
      exact .push _ ⟨rfl, rfl, hid⟩
  | clarifyRequest =>
    simp only [handle, onClarifyRequest]
    split
    · exact .quiet
    · exact .push _ trivial
  | sessionInfo => exact mergeHeader_effect r _
  | sessionTitle => exact mergeHeader_effect r _
  | error => exact .push _ trivial
  | unknown => exact .quiet

end

/-! ### The invariant is preserved -/

/-- A row pushed at the end moves no latch. -/
theorem WellFormed.push {r : Reducer} (h : r.WellFormed) (kind : RowKind) :
    WellFormed { r with state := r.state.push kind } where
  indexed := h.indexed.push kind
  streaming i hi := (h.streaming i hi).push kind
  thinking i hi := (h.thinking i hi).push kind
  tools id i hi := ⟨(h.tools id i hi).1, (h.tools id i hi).2.push kind⟩

/-- A row revised in place keeps the latches that point at it when its kind still fits them. -/
theorem WellFormed.revise {r : Reducer} (h : r.WellFormed) (j : Nat) (f : RowKind → RowKind)
    (hs : r.streaming = some j → ∀ kind, r.state.kindOf j = some kind → kind.IsStreaming → (f kind).IsStreaming)
    (ht : ∀ kind, r.state.kindOf j = some kind → kind.IsThinking → (f kind).IsThinking)
    (hc : ∀ id kind, id ≠ "" → r.state.kindOf j = some kind → kind.IsTool id → (f kind).IsTool id) :
    WellFormed { r with state := r.state.revise j f } where
  indexed := h.indexed.revise j f
  streaming i hi := (h.streaming i hi).revise j f fun hji kind hk => hs (hji ▸ hi) kind (hji ▸ hk)
  thinking i hi := (h.thinking i hi).revise j f fun hji kind hk => ht kind (hji ▸ hk)
  tools id i hi :=
    ⟨(h.tools id i hi).1, (h.tools id i hi).2.revise j f fun hji kind hk =>
      hc id kind (h.tools id i hi).1 (hji ▸ hk)⟩

/-- The same for a row whose old and new kinds are known. -/
theorem WellFormed.revise_same {r : Reducer} (h : r.WellFormed) {j : Nat} {old : RowKind}
    (hk : r.state.kindOf j = some old) {f : RowKind → RowKind} (hs : old.IsStreaming → (f old).IsStreaming)
    (ht : old.IsThinking → (f old).IsThinking) (hc : ∀ id, id ≠ "" → old.IsTool id → (f old).IsTool id) :
    WellFormed { r with state := r.state.revise j f } := by
  have hold : ∀ kind, r.state.kindOf j = some kind → kind = old := by
    intro kind hkind
    rw [hk, Option.some_inj] at hkind
    exact hkind.symm
  refine h.revise j f ?_ ?_ ?_
  · intro _ kind hkind
    rw [hold kind hkind]
    exact hs
  · intro kind hkind
    rw [hold kind hkind]
    exact ht
  · intro id kind hid hkind
    rw [hold kind hkind]
    exact hc id hid

theorem WellFormed.setStreaming {r : Reducer} (h : r.WellFormed) (latch : Option Nat)
    (hl : ∀ i, latch = some i → r.state.Has i RowKind.IsStreaming) :
    WellFormed { r with streaming := latch } :=
  ⟨h.indexed, hl, h.thinking, h.tools⟩

theorem WellFormed.setThinking {r : Reducer} (h : r.WellFormed) (latch : Option Nat)
    (hl : ∀ i, latch = some i → r.state.Has i RowKind.IsThinking) :
    WellFormed { r with thinking := latch } :=
  ⟨h.indexed, h.streaming, hl, h.tools⟩

theorem WellFormed.insertTool {r : Reducer} (h : r.WellFormed) {id : String} {i : Nat} (hid : id ≠ "")
    (hi : r.state.Has i (RowKind.IsTool id)) : WellFormed { r with tools := r.tools.insert id i } where
  indexed := h.indexed
  streaming := h.streaming
  thinking := h.thinking
  tools := by
    intro id' j hj
    by_cases heq : id' = id
    · subst heq
      rw [AList.lookup_insert, Option.some_inj] at hj
      subst hj
      exact ⟨hid, hi⟩
    · rw [AList.lookup_insert_ne heq] at hj
      exact h.tools id' j hj

private theorem onMessageStart_wellFormed {r : Reducer} (h : r.WellFormed) : (r.onMessageStart).1.WellFormed := by
  have hp := (h.push (.assistant "" true "" "")).setThinking none (by simp)
  refine hp.setStreaming (some r.state.rows.length) ?_
  intro i hi
  cases hi
  exact r.state.has_push_self rfl

private theorem appendStreamingText_wellFormed {r : Reducer} (h : r.WellFormed) (text : String) :
    (r.appendStreamingText text).1.WellFormed := by
  have hopen : WellFormed { r with
      state := r.state.push (.assistant text true "" ""), streaming := some r.state.rows.length } := by
    refine (h.push (.assistant text true "" "")).setStreaming (some r.state.rows.length) ?_
    intro i hi
    cases hi
    exact r.state.has_push_self rfl
  unfold appendStreamingText
  split
  · exact h
  · dsimp only
    split
    · split
      · rename_i hk
        exact h.revise_same hk (fun hs => hs) (fun ht => ht) fun id hid hc => hc
      · exact hopen
    · exact hopen

/-- Closing the streaming row: the latch is dropped, so its row may stop streaming. -/
private theorem closeStreaming_wellFormed {r : Reducer} (h : r.WellFormed) (j : Nat) (f : RowKind → RowKind)
    (ht : ∀ kind, kind.IsThinking → (f kind).IsThinking) (hc : ∀ id kind, kind.IsTool id → (f kind).IsTool id) :
    WellFormed { r with streaming := none, state := r.state.revise j f } := by
  refine (h.setStreaming none (by simp)).revise j f ?_ (fun kind _ => ht kind) fun id kind _ _ => hc id kind
  intro hnone
  cases hnone

private theorem onMessageInterim_wellFormed {r : Reducer} (h : r.WellFormed) (payload : Value) :
    (r.onMessageInterim payload).1.WellFormed := by
  unfold onMessageInterim
  dsimp only
  split
  · refine closeStreaming_wellFormed h _ _ ?_ ?_
    · intro kind hk
      cases kind <;> exact hk
    · intro id kind hk
      cases kind <;> exact hk
  · exact h

private theorem onThinkingDelta_wellFormed {r : Reducer} (h : r.WellFormed) (payload : Value) :
    (r.onThinkingDelta payload).1.WellFormed := by
  have hopen : WellFormed { r with
      state := r.state.push (.thinking (payload.strAt "text")), thinking := some r.state.rows.length } := by
    refine (h.push (.thinking (payload.strAt "text"))).setThinking (some r.state.rows.length) ?_
    intro i hi
    cases hi
    exact r.state.has_push_self trivial
  unfold onThinkingDelta
  dsimp only
  split
  · split
    · rename_i hk
      exact h.revise_same hk (fun hs => hs) (fun ht => ht) fun id hid hc => hc
    · exact hopen
  · exact hopen

/-- A tool card rewritten under its id. -/
private theorem reviseTool_wellFormed {r : Reducer} (h : r.WellFormed) (j : Nat) (f : RowKind → RowKind)
    (hf : ∀ kind, kind.IsStreaming ∨ kind.IsThinking → f kind = kind)
    (hc : ∀ id kind, kind.IsTool id → (f kind).IsTool id) :
    WellFormed { r with state := r.state.revise j f } := by
  refine h.revise j f ?_ ?_ fun id kind _ _ => hc id kind
  · intro _ kind _ hs
    rw [hf kind (.inl hs)]
    exact hs
  · intro kind _ ht
    rw [hf kind (.inr ht)]
    exact ht

private theorem onToolProgress_wellFormed {r : Reducer} (h : r.WellFormed) (payload : Value) :
    (r.onToolProgress payload).1.WellFormed := by
  unfold onToolProgress
  dsimp only
  split
  · exact h
  · split
    · exact h
    · split
      · rename_i hk
        exact h.revise_same hk (fun hs => hs) (fun ht => ht) fun id hid hc => hc
      · exact h

private theorem onStatusUpdate_wellFormed {r : Reducer} (h : r.WellFormed) (payload : Value) :
    (r.onStatusUpdate payload).1.WellFormed := by
  unfold onStatusUpdate
  dsimp only
  split
  · exact h
  · split
    · exact h
    · exact h.push _

private theorem onApprovalRequest_wellFormed {r : Reducer} (h : r.WellFormed) (payload : Value) :
    (r.onApprovalRequest payload).1.WellFormed := by
  unfold onApprovalRequest
  split
  · exact h
  · exact h.push _

private theorem onClarifyRequest_wellFormed {r : Reducer} (h : r.WellFormed) (payload : Value) :
    (r.onClarifyRequest payload).1.WellFormed := by
  unfold onClarifyRequest
  dsimp only
  split
  · exact h
  · exact h.push _

private theorem mergeHeader_wellFormed {r : Reducer} (h : r.WellFormed) (info : SessionHeader) :
    (r.mergeHeader info).1.WellFormed := by
  unfold mergeHeader
  split
  · exact h
  · exact ⟨h.indexed, h.streaming, h.thinking, h.tools⟩

/-- A card without an id gets one: nothing pointed at it before. -/
private theorem pairTool_wellFormed {r : Reducer} (h : r.WellFormed) {j : Nat} {id : String} (hid : id ≠ "")
    {card : ToolCard} (hk : r.state.kindOf j = some (.tool card)) (hempty : card.toolId = "")
    (f : RowKind → RowKind) (hf : (f (.tool card)).IsTool id) :
    WellFormed { r with state := r.state.revise j f, tools := r.tools.insert id j } := by
  have hrev : WellFormed { r with state := r.state.revise j f } := by
    refine h.revise_same hk (fun hs => hs.elim) (fun ht => ht.elim) ?_
    intro id' hid' hc
    exact absurd (hc.symm.trans hempty) hid'
  exact hrev.insertTool hid (Transcript.has_revise_self hk hf)

section

variable [Serializer]

private theorem onMessageComplete_wellFormed {r : Reducer} (h : r.WellFormed) (payload : Value) :
    (r.onMessageComplete payload).1.WellFormed := by
  unfold onMessageComplete
  dsimp only
  split
  · exact h
  · split
    · refine closeStreaming_wellFormed h _ _ ?_ ?_
      · intro kind hk
        cases kind <;> exact hk
      · intro id kind hk
        cases kind <;> exact hk
    · exact h

private theorem onToolStart_wellFormed {r : Reducer} (h : r.WellFormed) (payload : Value) :
    (r.onToolStart payload).1.WellFormed := by
  unfold onToolStart
  dsimp only
  split
  · exact h
  · rename_i hid
    split
    · refine reviseTool_wellFormed h _ _ ?_ ?_
      · intro kind hk
        cases kind <;> simp_all [RowKind.IsStreaming, RowKind.IsThinking]
      · intro id kind hk
        cases kind <;> exact hk
    · split
      · rename_i hp
        obtain ⟨card, hk, hempty, -⟩ := kindOf_pendingGeneratingRow hp
        dsimp only
        refine pairTool_wellFormed h hid hk hempty _ ?_
        rfl
      · exact (h.push _).insertTool hid (r.state.has_push_self rfl)

private theorem onToolComplete_wellFormed {r : Reducer} (h : r.WellFormed) (payload : Value) :
    (r.onToolComplete payload).1.WellFormed := by
  unfold onToolComplete
  dsimp only
  split
  · refine reviseTool_wellFormed h _ _ ?_ ?_
    · intro kind hk
      cases kind <;> simp_all [RowKind.IsStreaming, RowKind.IsThinking]
    · intro id kind hk
      cases kind <;> exact hk
  · exact h

theorem handle_wellFormed {r : Reducer} (h : r.WellFormed) (k : EventKind) (payload : Value) :
    (r.handle k payload).1.WellFormed := by
  cases k with
  | messageStart => exact onMessageStart_wellFormed h
  | messageDelta => exact appendStreamingText_wellFormed h _
  | messageInterim => exact onMessageInterim_wellFormed h payload
  | messageComplete => exact onMessageComplete_wellFormed h payload
  | thinkingDelta => exact onThinkingDelta_wellFormed h payload
  | toolGenerating => exact h.push _
  | toolStart => exact onToolStart_wellFormed h payload
  | toolProgress => exact onToolProgress_wellFormed h payload
  | toolComplete => exact onToolComplete_wellFormed h payload
  | statusUpdate => exact onStatusUpdate_wellFormed h payload
  | approvalRequest => exact onApprovalRequest_wellFormed h payload
  | clarifyRequest => exact onClarifyRequest_wellFormed h payload
  | sessionInfo => exact mergeHeader_wellFormed h _
  | sessionTitle => exact mergeHeader_wellFormed h _
  | error => exact h.push _
  | unknown => exact h

theorem apply_wellFormed {r : Reducer} (h : r.WellFormed) (event : EventParams) : (r.apply event).1.WellFormed := by
  unfold apply
  split
  · exact h
  · exact handle_wellFormed h _ _

theorem applyApprovalCard_wellFormed {r : Reducer} (h : r.WellFormed) (key requestId : String) (card : Value) :
    (r.applyApprovalCard key requestId card).1.WellFormed := by
  unfold applyApprovalCard
  split
  · exact h
  · exact apply_wellFormed h _

end

theorem appendUserRow_wellFormed {r : Reducer} (h : r.WellFormed) (key text : String) :
    (r.appendUserRow key text).1.WellFormed := h.push _

/-- A position that a search found. -/
theorem kindOf_find {r : Reducer} {pred : RowKind → Bool} {i : Nat} (h : r.find pred = some i) :
    ∃ kind, r.state.kindOf i = some kind ∧ pred kind = true := by
  unfold find at h
  rw [List.findIdx?_eq_some_iff_getElem] at h
  obtain ⟨hlt, hpred, -⟩ := h
  refine ⟨r.state.rows[i].kind, ?_, hpred⟩
  unfold Transcript.kindOf
  rw [List.getElem?_eq_getElem hlt]
  rfl

/-- An answer settles the first row it is for. -/
theorem resolveCard_cases (r : Reducer) (pred : RowKind → Bool) (settle : RowKind → RowKind) (key : String) :
    (r.find pred = none ∧ r.resolveCard pred settle key = (r, [])) ∨
      ∃ i kind, r.find pred = some i ∧ r.state.kindOf i = some kind ∧ pred kind = true ∧
        r.resolveCard pred settle key =
          ({ r with state := r.state.revise i settle }, wrap key [.rowUpdated i]) := by
  unfold resolveCard
  cases hfind : r.find pred with
  | none => exact .inl ⟨rfl, rfl⟩
  | some i =>
    obtain ⟨kind, hkind, hpred⟩ := kindOf_find hfind
    exact .inr ⟨i, kind, rfl, hkind, hpred, rfl⟩

private theorem resolveCard_wellFormed {r : Reducer} (h : r.WellFormed) (pred : RowKind → Bool)
    (settle : RowKind → RowKind) (key : String)
    (hs : ∀ kind, kind.IsStreaming ∨ kind.IsThinking ∨ (∃ id, kind.IsTool id) → settle kind = kind) :
    (r.resolveCard pred settle key).1.WellFormed := by
  rcases r.resolveCard_cases pred settle key with ⟨-, hsame⟩ | ⟨i, -, -, -, -, hsettled⟩
  · rw [hsame]
    exact h
  · rw [hsettled]
    refine h.revise i settle ?_ ?_ ?_
    · intro _ kind _ hk
      rw [hs kind (.inl hk)]
      exact hk
    · intro kind _ hk
      rw [hs kind (.inr (.inl hk))]
      exact hk
    · intro id kind _ _ hk
      rw [hs kind (.inr (.inr ⟨id, hk⟩))]
      exact hk

theorem resolveApproval_wellFormed {r : Reducer} (h : r.WellFormed) (key requestId : String) :
    (r.resolveApproval key requestId).1.WellFormed := by
  refine resolveCard_wellFormed h _ _ key ?_
  intro kind hk
  cases kind <;> simp_all [RowKind.IsStreaming, RowKind.IsThinking, RowKind.IsTool, settleApproval]

theorem resolveClarify_wellFormed {r : Reducer} (h : r.WellFormed) (key requestId : String) :
    (r.resolveClarify key requestId).1.WellFormed := by
  refine resolveCard_wellFormed h _ _ key ?_
  intro kind hk
  cases kind <;> simp_all [RowKind.IsStreaming, RowKind.IsThinking, RowKind.IsTool, settleClarify]

theorem ingestMessage_wellFormed {acc : Reducer × List TranscriptChange} (h : acc.1.WellFormed) (msg : Value) :
    (ingestMessage acc msg).1.WellFormed := by
  obtain ⟨r, changes⟩ := acc
  unfold ingestMessage
  dsimp only
  split
  · exact h
  · split
    · rename_i card hk
      rw [hk]
      split
      · exact h.push _
      · rename_i hid
        exact (h.push _).insertTool hid (r.state.has_push_self rfl)
    · exact h.push _

theorem ingestResumeMessages_wellFormed (r : Reducer) (key : String) (messages : List Value) :
    (r.ingestResumeMessages key messages).1.WellFormed := by
  have hfold : ∀ acc : Reducer × List TranscriptChange, acc.1.WellFormed →
      (messages.foldl ingestMessage acc).1.WellFormed := by
    induction messages with
    | nil => exact fun acc h => h
    | cons msg messages ih => exact fun acc h => ih _ (ingestMessage_wellFormed h msg)
  exact hfold _ wellFormed_empty

end Reducer

end Hermo
