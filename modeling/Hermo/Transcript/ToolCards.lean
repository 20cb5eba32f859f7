import Hermo.Transcript.Moves

/-!
# One card for each tool id

`OneCard` says that no two tool rows carry the same id and that the map knows exactly the ids of the rows.  The events
keep it: a card is opened or paired only under an id the map does not know.  A history is taken as it is, so a rebuild
keeps it exactly when the history names each id once.
-/

namespace Hermo

/-- The ids of the tool messages in a history; those without one are left out. -/
def historyToolIds (messages : List Value) : List String :=
  messages.filterMap fun msg =>
    let id := ((msg.get "display_metadata").getD .null).strAt "tool_id"
    if msg.isObject ∧ msg.strAt "role" = "tool" ∧ id ≠ "" then some id else none

/-- A history that the operation brings names every tool id once. -/
def Op.NamesOnce : Op → Prop
  | .ingestResumeMessages _ messages => (historyToolIds messages).Nodup
  | _ => True

namespace Transcript

/-- No two rows carry the same tool id. -/
def UniqueIds (t : Transcript) : Prop :=
  ∀ id, id ≠ "" → ∀ i j, t.Has i (RowKind.IsTool id) → t.Has j (RowKind.IsTool id) → i = j

/-- The map knows exactly the tool ids of the rows. -/
def KnowsIds (t : Transcript) (tools : AList fun _ : String => Nat) : Prop :=
  ∀ id, id ∈ tools ↔ id ≠ "" ∧ ∃ i, t.Has i (RowKind.IsTool id)

structure OneCard (t : Transcript) (tools : AList fun _ : String => Nat) : Prop where
  unique : t.UniqueIds
  known : t.KnowsIds tools

theorem has_push_iff (t : Transcript) (kind : RowKind) (i : Nat) (p : RowKind → Prop) :
    (t.push kind).Has i p ↔ (i = t.rows.length ∧ p kind) ∨ t.Has i p := by
  constructor
  · rintro ⟨k, hk, hp⟩
    rw [kindOf_push] at hk
    split at hk
    · rename_i hi
      cases hk
      exact .inl ⟨hi, hp⟩
    · exact .inr ⟨k, hk, hp⟩
  · rintro (⟨rfl, hp⟩ | h)
    · exact t.has_push_self hp
    · exact h.push kind

theorem has_revise_iff {t : Transcript} {j : Nat} {old : RowKind} (hk : t.kindOf j = some old) (new : RowKind) (i : Nat)
    (p : RowKind → Prop) : (t.revise j fun _ => new).Has i p ↔ (i = j ∧ p new) ∨ (i ≠ j ∧ t.Has i p) := by
  constructor
  · rintro ⟨k, hk', hp⟩
    rw [kindOf_revise] at hk'
    split at hk'
    · rename_i hij
      subst hij
      rw [hk, Option.map_some, Option.some_inj] at hk'
      subst hk'
      exact .inl ⟨rfl, hp⟩
    · rename_i hij
      exact .inr ⟨Ne.symm hij, k, hk', hp⟩
  · rintro (⟨rfl, hp⟩ | ⟨hij, k, hk', hp⟩)
    · exact has_revise_self hk hp
    · refine ⟨k, ?_, hp⟩
      rw [kindOf_revise, if_neg (Ne.symm hij), hk']

/-- The rows keep their tool ids. -/
theorem OneCard.same {t t' : Transcript} {tools : AList fun _ : String => Nat} (h : t.OneCard tools)
    (hsame : ∀ id, id ≠ "" → ∀ i, t'.Has i (RowKind.IsTool id) ↔ t.Has i (RowKind.IsTool id)) : t'.OneCard tools := by
  constructor
  · intro id hid i j hi hj
    rw [hsame id hid] at hi hj
    exact h.unique id hid i j hi hj
  · intro id
    rw [h.known id]
    refine and_congr_right fun hid => ?_
    exact exists_congr fun i => (hsame id hid i).symm

/-- The map learns the id a row gets. -/
theorem KnowsIds.add {t t' : Transcript} {tools : AList fun _ : String => Nat} (h : t.KnowsIds tools) {id : String}
    (hid : id ≠ "") {j : Nat}
    (hadd : ∀ id', id' ≠ "" → ∀ i, t'.Has i (RowKind.IsTool id') ↔ (i = j ∧ id = id') ∨ t.Has i (RowKind.IsTool id')) :
    t'.KnowsIds (tools.insert id j) := by
  intro id'
  rw [AList.mem_insert, h id']
  constructor
  · rintro (rfl | ⟨hid', i, hi⟩)
    · exact ⟨hid, j, (hadd id' hid j).2 (.inl ⟨rfl, rfl⟩)⟩
    · exact ⟨hid', i, (hadd id' hid' i).2 (.inr hi)⟩
  · rintro ⟨hid', i, hi⟩
    rcases (hadd id' hid' i).1 hi with ⟨-, rfl⟩ | hi
    · exact .inl rfl
    · exact .inr ⟨hid', i, hi⟩

/-- One row gets an id that the map does not know, and the map learns it. -/
theorem OneCard.add {t t' : Transcript} {tools : AList fun _ : String => Nat} (h : t.OneCard tools) {id : String}
    (hid : id ≠ "") {j : Nat} (hnew : id ∉ tools)
    (hadd : ∀ id', id' ≠ "" → ∀ i, t'.Has i (RowKind.IsTool id') ↔ (i = j ∧ id = id') ∨ t.Has i (RowKind.IsTool id')) :
    t'.OneCard (tools.insert id j) := by
  have hnone : ∀ i, ¬ t.Has i (RowKind.IsTool id) := by
    intro i hi
    exact hnew ((h.known id).2 ⟨hid, i, hi⟩)
  refine ⟨?_, h.known.add hid hadd⟩
  intro id' hid' i i' hi hi'
  rw [hadd id' hid'] at hi hi'
  rcases hi with ⟨rfl, rfl⟩ | hi <;> rcases hi' with ⟨rfl, heq⟩ | hi'
  · rfl
  · exact absurd hi' (hnone i')
  · subst heq
    exact absurd hi (hnone i)
  · exact h.unique id' hid' i i' hi hi'

/-- A row without a tool id is pushed. -/
theorem OneCard.push {t : Transcript} {tools : AList fun _ : String => Nat} (h : t.OneCard tools) {kind : RowKind}
    (hkind : ∀ id, id ≠ "" → ¬ kind.IsTool id) : (t.push kind).OneCard tools := by
  refine h.same ?_
  intro id hid i
  rw [has_push_iff]
  refine or_iff_right ?_
  rintro ⟨-, hk⟩
  exact hkind id hid hk

/-- A row is revised and keeps its tool id, or goes on without one. -/
theorem OneCard.revise {t : Transcript} {tools : AList fun _ : String => Nat} (h : t.OneCard tools) {j : Nat}
    {old : RowKind} (hk : t.kindOf j = some old) (f : RowKind → RowKind)
    (hsame : ∀ id, id ≠ "" → ((f old).IsTool id ↔ old.IsTool id)) : (t.revise j f).OneCard tools := by
  refine h.same ?_
  intro id hid i
  rw [revise_congr hk, has_revise_iff hk, hsame id hid]
  constructor
  · rintro (⟨rfl, hold⟩ | ⟨-, hi⟩)
    · exact ⟨old, hk, hold⟩
    · exact hi
  · intro hi
    by_cases hij : i = j
    · subst hij
      obtain ⟨k, hk', hp⟩ := hi
      rw [hk, Option.some_inj] at hk'
      subst hk'
      exact .inl ⟨rfl, hp⟩
    · exact .inr ⟨hij, hi⟩

end Transcript

namespace Reducer

/-- One card for each tool id. -/
def OneCard (r : Reducer) : Prop := r.state.OneCard r.tools

theorem Move.oneCard {r r' : Reducer} {payload : Value} {k : EventKind} (hmove : Move r payload k r') (h : r.OneCard) :
    r'.OneCard := by
  change r'.state.OneCard r'.tools
  cases hmove with
  | quiet => exact h
  | header => exact Transcript.OneCard.same h fun _ _ _ => Iff.rfl
  | append _ kind hplain =>
    refine Transcript.OneCard.push h ?_
    intro id hid hk
    cases kind with
    | tool card => exact hid (hk.symm.trans hplain)
    | _ => exact hk
  | start => exact Transcript.OneCard.push h fun _ _ hk => hk
  | openText => exact Transcript.OneCard.push h fun _ _ hk => hk
  | streamText _ i old text usage warning hs hk =>
    exact Transcript.OneCard.revise h hk (fun _ => .assistant text true usage warning) fun _ _ => Iff.rfl
  | sealText _ i old usage warning text usage' warning' hs hk =>
    exact Transcript.OneCard.revise h hk (fun _ => .assistant text false usage' warning') fun _ _ => Iff.rfl
  | openThinking => exact Transcript.OneCard.push h fun _ _ hk => hk
  | think _ i old text hk => exact Transcript.OneCard.revise h hk (fun _ => .thinking text) fun _ _ => Iff.rfl
  | updateTool _ i card card' hk hid hnamed hkeeps =>
    refine Transcript.OneCard.revise h hk (fun _ => .tool card') ?_
    intro id _
    change card'.toolId = id ↔ card.toolId = id
    rw [hkeeps]
  | pairTool i card card' hid hnew hp hk hempty hnamed =>
    refine Transcript.OneCard.add h hid (AList.lookup_eq_none.1 hnew) ?_
    intro id' hid' i'
    rw [Transcript.has_revise_iff hk]
    have hnamed' : RowKind.IsTool id' (.tool card') ↔ payload.strAt "tool_id" = id' := by
      change card'.toolId = id' ↔ _
      rw [hnamed]
    rw [hnamed']
    refine or_congr_right ?_
    refine and_iff_right_of_imp ?_
    -- the row that is paired had no id
    rintro ⟨kind, hkind, hold⟩ rfl
    rw [hk, Option.some_inj] at hkind
    subst hkind
    exact hid' (hold.symm.trans hempty)
  | openTool _ card hid hnew =>
    refine Transcript.OneCard.add h hid (AList.lookup_eq_none.1 hnew) ?_
    intro id' hid' i'
    rw [Transcript.has_push_iff]
    exact Iff.rfl

private theorem resolveCard_oneCard {r : Reducer} (h : r.OneCard) (pred : RowKind → Bool)
    (settle : RowKind → RowKind) (key : String) (hsettle : ∀ kind id, (settle kind).IsTool id ↔ kind.IsTool id) :
    (r.resolveCard pred settle key).1.OneCard := by
  rcases r.resolveCard_cases pred settle key with ⟨-, hsame⟩ | ⟨i, kind, -, hk, -, hsettled⟩
  · rw [hsame]
    exact h
  · rw [hsettled]
    exact Transcript.OneCard.revise h hk settle fun id _ => hsettle kind id

/-! ### A history -/

/-- One message of a history: a card under its id, or a row without one. -/
private theorem ingestMessage_cases (acc : Reducer × List TranscriptChange) (msg : Value) :
    (historyToolIds [msg] = [] ∧ (ingestMessage acc msg).1.tools = acc.1.tools ∧
      ((ingestMessage acc msg).1.state = acc.1.state ∨
        ∃ kind : RowKind, (∀ id, id ≠ "" → ¬ kind.IsTool id) ∧
          (ingestMessage acc msg).1.state = acc.1.state.push kind)) ∨
    ∃ card : ToolCard, historyToolIds [msg] = [card.toolId] ∧ card.toolId ≠ "" ∧
      (ingestMessage acc msg).1.tools = acc.1.tools.insert card.toolId acc.1.state.rows.length ∧
        (ingestMessage acc msg).1.state = acc.1.state.push (.tool card) := by
  unfold ingestMessage historyToolIds
  dsimp only
  by_cases hobject : msg.isObject = false
  · rw [if_pos hobject]
    exact .inl ⟨by simp [hobject], rfl, .inl rfl⟩
  · rw [if_neg hobject]
    dsimp only
    have htrue : msg.isObject = true := by simpa using hobject
    by_cases hrole : msg.strAt "role" = "tool"
    · have hkind : messageKind msg = .tool
          { toolId := ((msg.get "display_metadata").getD .null).strAt "tool_id", name := msg.strAt "name",
            complete := true, context := msg.strAt "context", argsJson := "", resultJson := msg.strAt "text",
            durationS := .zero } := by
        unfold messageKind
        rw [hrole]
        rfl
      rw [hkind]
      dsimp only
      by_cases hid : ((msg.get "display_metadata").getD .null).strAt "tool_id" = ""
      · refine .inl ⟨by simp [hid], by rw [if_pos hid], .inr ⟨_, ?_, rfl⟩⟩
        intro id hne hk
        exact hne (hk.symm.trans hid)
      · refine .inr ⟨_, by simp [htrue, hrole, hid], hid, ?_, rfl⟩
        rw [if_neg hid]
    · have hkind : ∀ id, ¬ (messageKind msg).IsTool id := by
        intro id hk
        unfold messageKind at hk
        dsimp only at hk
        split at hk
        · exact hrole (by assumption)
        · exact hk
        · exact hk
        · exact hk
      refine .inl ⟨by simp [hrole], ?_, .inr ⟨messageKind msg, fun id _ => hkind id, rfl⟩⟩
      cases hm : messageKind msg with
      | tool card => exact absurd (by rw [hm]; rfl) (hkind card.toolId)
      | _ => rfl

/-- The reducer after a history. -/
private def ingested (messages : List Value) : Reducer := (messages.foldl ingestMessage ({}, [.reset])).1

private theorem ingested_cards (messages : List Value) :
    (ingested messages).state.KnowsIds (ingested messages).tools ∧
      (∀ id, id ∈ (ingested messages).tools ↔ id ∈ historyToolIds messages) ∧
        ((ingested messages).state.UniqueIds ↔ (historyToolIds messages).Nodup) := by
  induction messages using List.reverseRecOn with
  | nil =>
    refine ⟨?_, ?_, ?_⟩
    · intro id
      refine iff_of_false (AList.notMem_empty id) ?_
      rintro ⟨-, i, kind, hk, -⟩
      cases hk
    · intro id
      exact iff_of_false (AList.notMem_empty id) List.not_mem_nil
    · refine iff_of_true ?_ List.nodup_nil
      intro id _ i j hi
      obtain ⟨kind, hk, -⟩ := hi
      cases hk
  | append_singleton messages msg ih =>
    obtain ⟨hknown, hids, hunique⟩ := ih
    have hsnoc : historyToolIds (messages ++ [msg]) = historyToolIds messages ++ historyToolIds [msg] :=
      List.filterMap_append
    have hstep : ingested (messages ++ [msg]) =
        (ingestMessage (messages.foldl ingestMessage ({}, [.reset])) msg).1 := by
      unfold ingested
      rw [List.foldl_append]
      rfl
    rw [hstep, hsnoc]
    rcases ingestMessage_cases (messages.foldl ingestMessage ({}, [.reset])) msg with
      ⟨hnil, htools, hstate⟩ | ⟨card, hcard, hid, htools, hstate⟩
    · rw [hnil, List.append_nil, htools]
      have hsame : ∀ id, id ≠ "" → ∀ i,
          (ingestMessage (messages.foldl ingestMessage ({}, [.reset])) msg).1.state.Has i (RowKind.IsTool id) ↔
            (ingested messages).state.Has i (RowKind.IsTool id) := by
        intro id hne i
        rcases hstate with hstate | ⟨kind, hkind, hstate⟩
        · rw [hstate]
          rfl
        · rw [hstate, Transcript.has_push_iff]
          refine or_iff_right ?_
          rintro ⟨-, hk⟩
          exact hkind id hne hk
      refine ⟨?_, hids, ?_⟩
      · intro id
        refine (hknown id).trans (and_congr_right fun hne => ?_)
        exact exists_congr fun i => (hsame id hne i).symm
      · rw [← hunique]
        refine forall₂_congr fun id hne => ?_
        refine forall₂_congr fun i j => ?_
        rw [hsame id hne, hsame id hne]
    · rw [hcard, htools, hstate]
      have hadd : ∀ id', id' ≠ "" → ∀ i,
          ((ingested messages).state.push (.tool card)).Has i (RowKind.IsTool id') ↔
            (i = (ingested messages).state.rows.length ∧ card.toolId = id') ∨
              (ingested messages).state.Has i (RowKind.IsTool id') := by
        intro id' _ i
        exact Transcript.has_push_iff _ _ _ _
      refine ⟨hknown.add hid hadd, ?_, ?_⟩
      · intro id
        rw [AList.mem_insert, List.mem_append, List.mem_singleton, ← hids id]
        exact or_comm
      · rw [List.nodup_append_comm, List.singleton_append, List.nodup_cons, ← hunique, ← hids]
        constructor
        · intro hafter
          constructor
          · intro hmem
            obtain ⟨-, i, hi⟩ := (hknown card.toolId).1 hmem
            have hlast := (hadd card.toolId hid _).2 (.inl ⟨rfl, rfl⟩)
            have heq := hafter card.toolId hid i _ ((hadd card.toolId hid i).2 (.inr hi)) hlast
            obtain ⟨kind, hk, -⟩ := hi
            have hlt := Transcript.lt_of_kindOf hk
            omega
          · intro id hne i j hi hj
            exact hafter id hne i j ((hadd id hne i).2 (.inr hi)) ((hadd id hne j).2 (.inr hj))
        · rintro ⟨hnew, hold⟩
          exact (Transcript.OneCard.add ⟨hold, hknown⟩ hid hnew hadd).unique

/-- A rebuilt reducer has one card for each id exactly when the history names every id once. -/
theorem ingestResumeMessages_oneCard (r : Reducer) (key : String) (messages : List Value) :
    (r.ingestResumeMessages key messages).1.OneCard ↔ (historyToolIds messages).Nodup := by
  obtain ⟨hknown, -, hunique⟩ := ingested_cards messages
  rw [← hunique]
  exact ⟨fun h => h.unique, fun h => ⟨h, hknown⟩⟩

/-! ### Runs -/

theorem oneCard_empty : OneCard {} := by
  constructor
  · intro id _ i j hi
    obtain ⟨kind, hk, -⟩ := hi
    cases hk
  · intro id
    refine iff_of_false (AList.notMem_empty id) ?_
    rintro ⟨-, i, kind, hk, -⟩
    cases hk

section

variable [Serializer]

private theorem apply_oneCard {r : Reducer} (hw : r.WellFormed) (h : r.OneCard) (event : EventParams) :
    (r.apply event).1.OneCard := by
  unfold apply
  split
  · exact h
  · exact (handle_move hw _ event.payload).oneCard h

theorem perform_oneCard {r : Reducer} (hw : r.WellFormed) (h : r.OneCard) (op : Op) :
    (r.perform op).1.OneCard ↔ op.NamesOnce := by
  cases op with
  | apply event => exact iff_of_true (apply_oneCard hw h event) trivial
  | resolveApproval key requestId =>
    refine iff_of_true (resolveCard_oneCard h _ _ key ?_) trivial
    intro kind id
    cases kind <;> exact Iff.rfl
  | resolveClarify key requestId =>
    refine iff_of_true (resolveCard_oneCard h _ _ key ?_) trivial
    intro kind id
    cases kind <;> exact Iff.rfl
  | appendUserRow key text => exact iff_of_true (Transcript.OneCard.push h fun _ _ hk => hk) trivial
  | applyApprovalCard key requestId card =>
    refine iff_of_true ?_ trivial
    rw [perform_applyApprovalCard]
    split
    · exact h
    · exact apply_oneCard hw h _
  | ingestResumeMessages key messages => exact ingestResumeMessages_oneCard r key messages
  | resetFromResume key => exact iff_of_true oneCard_empty trivial

/-- Along a run there is one card for each tool id, and the map knows exactly these, if and only if every history
names an id once. -/
theorem one_card (ops : List Op) :
    (∀ before, before <+: ops → (after before).OneCard) ↔
      ∀ key messages, .ingestResumeMessages key messages ∈ ops → (historyToolIds messages).Nodup := by
  have hstep : ∀ before op, (after before).OneCard → ((after (before ++ [op])).OneCard ↔ op.NamesOnce) := by
    intro before op h
    rw [after_snoc]
    exact perform_oneCard (after_wellFormed before) h op
  rw [Run.prefixes_iff (P := fun before => (after before).OneCard) oneCard_empty hstep ops]
  constructor
  · intro h key messages hmem
    obtain ⟨before, rest, rfl⟩ := List.append_of_mem hmem
    refine h before (.ingestResumeMessages key messages) ?_
    exact ⟨rest, List.append_assoc before _ rest⟩
  · intro h before op hprefix
    have hmem : op ∈ ops := hprefix.subset (List.mem_append_right before (List.mem_singleton_self op))
    cases op with
    | ingestResumeMessages key messages => exact h key messages hmem
    | _ => trivial

end

section

attribute [local instance] Serializer.compact

/-- A tool message of a history, with the id of its run. -/
private def toolMessage (id : String) : Value :=
  .object [("role", .string "tool"), ("name", .string "terminal"), ("display_metadata", .object [("tool_id", .string id)])]

/-- A history in which one run has two messages. -/
theorem two_cards :
    ¬ (after [.ingestResumeMessages "chat" [toolMessage "t1", toolMessage "t1"]]).OneCard := by
  intro h
  have hsame : 0 = 1 := h.unique "t1" (by decide) 0 1 ⟨_, rfl, rfl⟩ ⟨_, rfl, rfl⟩
  cases hsame

end

end Reducer

end Hermo
