import Hermo.Library.EditList
import Hermo.Transcript.Invariant

/-!
# The change list of an operation describes it exactly

A change names a row by its index and the receiver reads the row itself from the core, so `TranscriptChange.edit`
turns a change into an edit with the help of the rows after the operation.  `mirror` patches a copy of the rows with
all changes of one operation, and `follow` does so along a list of operations.  The strict `patch` fails on a wrong
index, so `change_stream_faithful` also says that every append names the length of the copy at that moment.
-/

namespace Hermo

open EditList

/-- The edit a change stands for, `rows` being the rows of the core after the operation. -/
def TranscriptChange.edit (rows : List Row) : TranscriptChange → Option (Edit Row)
  | .rowAppended index => rows[index]?.map (.append index)
  | .rowUpdated index => rows[index]?.map (.update index)
  | .reset => some .reset
  | .headerUpdated => some .skip

/-- A copy after the changes of one operation; `none` when a change names a row that is not there. -/
def mirror (copy rows : List Row) (changes : List TranscriptChange) : Option (List Row) :=
  (changes.mapM (TranscriptChange.edit rows)).bind (patch copy)

/-- An operation of the reducer. -/
inductive Op where
  | apply (event : EventParams)
  | resolveApproval (key requestId : String)
  | resolveClarify (key requestId : String)
  | appendUserRow (key text : String)
  | applyApprovalCard (key requestId : String) (card : Value)
  | ingestResumeMessages (key : String) (messages : List Value)
  | resetFromResume (key : String)

/-- The operation replaces the transcript. -/
def Op.replaces : Op → Bool
  | .ingestResumeMessages _ _ | .resetFromResume _ => true
  | _ => false

/-- A change list with one edit in it patches the copy to the new rows. -/
private theorem mirror_singleton {copy rows : List Row} {change : TranscriptChange} {e : Edit Row}
    (h : change.edit rows = some e) : mirror copy rows [change] = e.apply copy := by
  unfold mirror
  simp only [List.mapM_cons, List.mapM_nil, h, Option.bind_eq_bind, Option.bind_some, Option.pure_def, patch_cons]
  cases e.apply copy <;> rfl

private theorem mirror_push (t : Transcript) (kind : RowKind) :
    mirror t.rows (t.push kind).rows [.rowAppended t.rows.length] = some (t.push kind).rows := by
  have hedit : TranscriptChange.edit (t.push kind).rows (.rowAppended t.rows.length) =
      some (.append t.rows.length ⟨t.rows.length, kind⟩) := by
    simp [TranscriptChange.edit]
  rw [mirror_singleton hedit]
  simp [Edit.apply]

private theorem mirror_revise {t : Transcript} {i : Nat} {old : RowKind} (h : t.kindOf i = some old)
    (f : RowKind → RowKind) : mirror t.rows (t.revise i f).rows [.rowUpdated i] = some (t.revise i f).rows := by
  have hlt := Transcript.lt_of_kindOf h
  have hedit : TranscriptChange.edit (t.revise i f).rows (.rowUpdated i) =
      some (.update i { t.rows[i] with kind := f t.rows[i].kind }) := by
    simp [TranscriptChange.edit, hlt]
  rw [mirror_singleton hedit]
  unfold Edit.apply
  dsimp only
  rw [if_pos hlt, Transcript.revise_rows, List.modify_eq_set_getElem?, List.getElem?_eq_getElem hlt]
  rfl

theorem Effect.mirror {opens : RowKind → Prop} {t t' : Transcript} {changes : List TranscriptChange}
    (h : Effect opens t t' changes) : mirror t.rows t'.rows changes = some t'.rows := by
  cases h with
  | quiet => rfl
  | push kind => exact mirror_push t kind
  | revise i old new hk => exact mirror_revise hk _
  | header info => rfl

/-- The header moves only under a `HeaderUpdated`. -/
theorem Effect.header_eq {opens : RowKind → Prop} {t t' : Transcript} {changes : List TranscriptChange}
    (h : Effect opens t t' changes) (hc : .headerUpdated ∉ changes) : t'.header = t.header := by
  cases h with
  | quiet => rfl
  | push kind => rfl
  | revise i old new hk => rfl
  | header info => simp at hc

namespace Reducer

@[simp] theorem wrap_change (key : String) (changes : List TranscriptChange) :
    (wrap key changes).map SessionChange.change = changes := by
  simp [wrap, Function.comp_def]

section

variable [Serializer]

/-- Run one operation; an approval card without an id has no changes. -/
def perform (r : Reducer) : Op → Reducer × List SessionChange
  | .apply event => r.apply event
  | .resolveApproval key requestId => r.resolveApproval key requestId
  | .resolveClarify key requestId => r.resolveClarify key requestId
  | .appendUserRow key text => r.appendUserRow key text
  | .applyApprovalCard key requestId card =>
    let (r', changes) := r.applyApprovalCard key requestId card
    (r', changes.getD [])
  | .ingestResumeMessages key messages => r.ingestResumeMessages key messages
  | .resetFromResume key => r.resetFromResume key

/-- A card of `approval.pending` that names its request is applied as the event that asks for it. -/
theorem perform_applyApprovalCard (r : Reducer) (key requestId : String) (card : Value) :
    (r.perform (.applyApprovalCard key requestId card)).1 =
      if requestId = "" then r
      else (r.apply ⟨"approval.request", key, none, card.setField "request_id" (.string requestId)⟩).1 := by
  change (r.applyApprovalCard key requestId card).1 = _
  unfold applyApprovalCard
  split <;> rfl

/-- Run the operations on a reducer while a copy of its rows follows the change stream. -/
def follow : Reducer × List Row → List Op → Option (Reducer × List Row)
  | s, [] => some s
  | (r, copy), op :: ops =>
    (mirror copy (r.perform op).1.state.rows ((r.perform op).2.map SessionChange.change)).bind fun copy' =>
      follow ((r.perform op).1, copy') ops

end

/-! ### A rebuilt history -/

private theorem mapM_edit_appended (pre rows : List Row) :
    ((List.range' pre.length rows.length).map TranscriptChange.rowAppended).mapM
      (TranscriptChange.edit (pre ++ rows)) = some (appends pre.length rows) := by
  induction rows generalizing pre with
  | nil => rfl
  | cons row rows ih =>
    have key := ih (pre ++ [row])
    rw [List.length_append, List.length_singleton, List.append_assoc, List.singleton_append] at key
    have hhead : TranscriptChange.edit (pre ++ row :: rows) (.rowAppended pre.length) =
        some (.append pre.length row) := by
      simp [TranscriptChange.edit]
    rw [List.length_cons, List.range'_succ, List.map_cons, List.mapM_cons, hhead, key]
    rfl

/-- One round of the ingest loop appends at most one row, and says so. -/
private theorem ingestMessage_changes {acc : Reducer × List TranscriptChange} (msg : Value)
    (h : acc.2 = .reset :: (List.range' 0 acc.1.state.rows.length).map .rowAppended) :
    (ingestMessage acc msg).2 =
      .reset :: (List.range' 0 (ingestMessage acc msg).1.state.rows.length).map .rowAppended := by
  obtain ⟨r, changes⟩ := acc
  unfold ingestMessage
  dsimp only at h ⊢
  split
  · exact h
  · simp [h, List.range'_1_concat]

private theorem foldl_ingestMessage_changes (messages : List Value) {acc : Reducer × List TranscriptChange}
    (h : acc.2 = .reset :: (List.range' 0 acc.1.state.rows.length).map .rowAppended) :
    (messages.foldl ingestMessage acc).2 =
      .reset :: (List.range' 0 (messages.foldl ingestMessage acc).1.state.rows.length).map .rowAppended := by
  induction messages generalizing acc with
  | nil => exact h
  | cons msg messages ih => exact ih (ingestMessage_changes msg h)

/-- The emit contract of a rebuild: a `Reset`, then one `RowAppended` for every row, in order. -/
theorem ingestResumeMessages_changes (r : Reducer) (key : String) (messages : List Value) :
    (r.ingestResumeMessages key messages).2.map SessionChange.change =
      .reset :: (List.range' 0 (r.ingestResumeMessages key messages).1.state.rows.length).map .rowAppended := by
  unfold ingestResumeMessages
  dsimp only
  rw [wrap_change]
  exact foldl_ingestMessage_changes messages rfl

/-- The changes of a rebuild make any copy equal to the new rows. -/
theorem ingestResumeMessages_mirror (r : Reducer) (key : String) (messages : List Value) (copy : List Row) :
    mirror copy (r.ingestResumeMessages key messages).1.state.rows
      ((r.ingestResumeMessages key messages).2.map SessionChange.change) =
        some (r.ingestResumeMessages key messages).1.state.rows := by
  rw [ingestResumeMessages_changes]
  have hrows := mapM_edit_appended [] (r.ingestResumeMessages key messages).1.state.rows
  rw [List.length_nil, List.nil_append] at hrows
  unfold mirror
  rw [List.mapM_cons, hrows]
  exact patch_rebuild copy _

/-! ### The other operations -/

theorem resolveCard_header (r : Reducer) (pred : RowKind → Bool) (settle : RowKind → RowKind) (key : String) :
    (r.resolveCard pred settle key).1.state.header = r.state.header := by
  rcases r.resolveCard_cases pred settle key with ⟨-, hsame⟩ | ⟨i, -, -, -, -, hsettled⟩
  · rw [hsame]
  · rw [hsettled]
    rfl

private theorem resolveCard_mirror (r : Reducer) (pred : RowKind → Bool) (settle : RowKind → RowKind)
    (key : String) :
    mirror r.state.rows (r.resolveCard pred settle key).1.state.rows
      ((r.resolveCard pred settle key).2.map SessionChange.change) =
        some (r.resolveCard pred settle key).1.state.rows := by
  rcases r.resolveCard_cases pred settle key with ⟨-, hsame⟩ | ⟨i, kind, -, hk, -, hsettled⟩
  · rw [hsame]
    rfl
  · rw [hsettled, wrap_change]
    exact mirror_revise hk settle

section

variable [Serializer]

theorem apply_mirror {r : Reducer} (h : r.WellFormed) (event : EventParams) :
    mirror r.state.rows (r.apply event).1.state.rows ((r.apply event).2.map SessionChange.change) =
      some (r.apply event).1.state.rows := by
  unfold apply
  split
  · rfl
  · dsimp only
    rw [wrap_change]
    exact (handle_effect h _ _).mirror

theorem perform_wellFormed {r : Reducer} (h : r.WellFormed) (op : Op) : (r.perform op).1.WellFormed := by
  cases op with
  | apply event => exact apply_wellFormed h event
  | resolveApproval key requestId => exact resolveApproval_wellFormed h key requestId
  | resolveClarify key requestId => exact resolveClarify_wellFormed h key requestId
  | appendUserRow key text => exact appendUserRow_wellFormed h key text
  | applyApprovalCard key requestId card => exact applyApprovalCard_wellFormed h key requestId card
  | ingestResumeMessages key messages => exact ingestResumeMessages_wellFormed r key messages
  | resetFromResume key => exact wellFormed_empty

/-- One operation: its changes carry a copy of the old rows to the new ones. -/
theorem perform_mirror {r : Reducer} (h : r.WellFormed) (op : Op) :
    mirror r.state.rows (r.perform op).1.state.rows ((r.perform op).2.map SessionChange.change) =
      some (r.perform op).1.state.rows := by
  cases op with
  | apply event => exact apply_mirror h event
  | resolveApproval key requestId => exact resolveCard_mirror r _ _ key
  | resolveClarify key requestId => exact resolveCard_mirror r _ _ key
  | appendUserRow key text =>
    unfold perform appendUserRow
    rw [wrap_change]
    exact mirror_push r.state _
  | applyApprovalCard key requestId card =>
    unfold perform applyApprovalCard
    dsimp only
    split
    · rfl
    · have key := apply_mirror h ⟨"approval.request", key, none, card.setField "request_id" (.string requestId)⟩
      dsimp only
      split
      · rename_i hnil
        rw [hnil] at key
        exact key
      · exact key
  | ingestResumeMessages key messages => exact ingestResumeMessages_mirror r key messages _
  | resetFromResume key => rfl

/-- One operation moves the header only under a `HeaderUpdated` or a `Reset`. -/
theorem perform_header {r : Reducer} (h : r.WellFormed) (op : Op)
    (hh : .headerUpdated ∉ (r.perform op).2.map SessionChange.change)
    (hr : .reset ∉ (r.perform op).2.map SessionChange.change) :
    (r.perform op).1.state.header = r.state.header := by
  have happly : ∀ event : EventParams, .headerUpdated ∉ (r.apply event).2.map SessionChange.change →
      (r.apply event).1.state.header = r.state.header := by
    intro event hc
    unfold apply at hc ⊢
    split at hc
    · rw [if_pos (by assumption)]
    · rw [if_neg (by assumption)]
      rw [wrap_change] at hc
      exact (handle_effect h _ _).header_eq hc
  -- only the operations that apply an event can touch the header
  cases op with
  | apply event => exact happly event hh
  | resolveApproval key requestId => exact r.resolveCard_header _ _ key
  | resolveClarify key requestId => exact r.resolveCard_header _ _ key
  | appendUserRow key text => rfl
  | applyApprovalCard key requestId card =>
    unfold perform applyApprovalCard at hh ⊢
    dsimp only at hh ⊢
    split
    · rfl
    · rename_i hid
      rw [if_neg hid] at hh
      refine happly _ ?_
      dsimp only at hh
      split at hh
      · rename_i hnil
        rw [hnil]
        simp
      · exact hh
  | ingestResumeMessages key messages =>
    refine absurd ?_ hr
    unfold perform
    rw [ingestResumeMessages_changes]
    exact List.mem_cons_self
  | resetFromResume key => exact absurd List.mem_cons_self hr

/-- A run from a well-formed reducer, with the copy equal to its rows, keeps both properties. -/
private theorem follow_wellFormed {r : Reducer} (h : r.WellFormed) (ops : List Op) :
    ∃ r' : Reducer, follow (r, r.state.rows) ops = some (r', r'.state.rows) ∧ r'.WellFormed := by
  induction ops generalizing r with
  | nil => exact ⟨r, rfl, h⟩
  | cons op ops ih =>
    obtain ⟨r', hrun, hr'⟩ := ih (perform_wellFormed h op)
    refine ⟨r', ?_, hr'⟩
    unfold follow
    rw [perform_mirror h op, Option.bind_some, hrun]

/-- After every run from the empty reducer the copy holds exactly the rows, and the operation that comes next moves
the header only when it emits a `HeaderUpdated` or a `Reset`. -/
theorem change_stream_faithful (ops : List Op) :
    ∃ r : Reducer, follow ({}, []) ops = some (r, r.state.rows) ∧
      ∀ op : Op, (r.perform op).1.state.header ≠ r.state.header →
        .headerUpdated ∈ (r.perform op).2.map SessionChange.change ∨
          .reset ∈ (r.perform op).2.map SessionChange.change := by
  obtain ⟨r, hrun, hr⟩ := follow_wellFormed wellFormed_empty ops
  refine ⟨r, hrun, ?_⟩
  intro op hne
  by_contra hno
  rw [not_or] at hno
  exact hne (perform_header hr op hno.1 hno.2)

end

end Reducer

end Hermo
