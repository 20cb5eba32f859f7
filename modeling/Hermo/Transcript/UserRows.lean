import Hermo.Transcript.Approvals

/-!
# User rows

No event opens, edits or removes a user row: an operation that does not replace the transcript adds to them only the
row of a submit, and a history brings the prompts it holds.
-/

namespace Hermo

def RowKind.userText : RowKind → Option String
  | .user text => some text
  | _ => none

/-- The texts of the user rows, in order. -/
def Transcript.users (t : Transcript) : List String := t.rows.filterMap fun row => row.kind.userText

/-- The texts of the prompts in a history. -/
def promptTexts (messages : List Value) : List String :=
  messages.filterMap fun msg => if msg.isObject ∧ msg.strAt "role" = "user" then some (msg.strAt "text") else none

/-- The user row an operation adds. -/
def Op.userRow : Op → List String
  | .appendUserRow _ text => [text]
  | _ => []

namespace Transcript

theorem users_push (t : Transcript) (kind : RowKind) : (t.push kind).users = t.users ++ kind.userText.toList := by
  unfold users
  rw [push_rows, List.filterMap_append]
  cases h : kind.userText <;> simp [h]

private theorem filterMap_modify {α β : Type} (p : α → Option β) (f : α → α) (as : List α) (i : Nat)
    (h : ∀ a, as[i]? = some a → p (f a) = p a) : (as.modify i f).filterMap p = as.filterMap p := by
  induction as generalizing i with
  | nil => simp
  | cons a as ih =>
    cases i with
    | zero => simp [List.filterMap_cons, h a rfl]
    | succ i => simp [List.filterMap_cons, ih i fun b hb => h b (by simpa using hb)]

theorem users_revise (t : Transcript) (i : Nat) (f : RowKind → RowKind)
    (h : ∀ kind, t.kindOf i = some kind → (f kind).userText = kind.userText) : (t.revise i f).users = t.users := by
  unfold users
  rw [revise_rows]
  refine filterMap_modify _ _ _ _ ?_
  intro row hrow
  exact h row.kind (by rw [kindOf, hrow, Option.map_some])

end Transcript

/-- No event touches a user row. -/
theorem Effect.users {k : EventKind} {payload : Value} {t t' : Transcript} {changes : List TranscriptChange}
    (h : Effect (k.Opens payload) t t' changes) : t'.users = t.users := by
  cases h with
  | quiet => rfl
  | header info => rfl
  | revise i old new hk hr =>
    refine t.users_revise i _ ?_
    intro kind hkind
    rw [hk, Option.some_inj] at hkind
    subst hkind
    cases hr <;> rfl
  | push kind hopens =>
    rw [t.users_push kind]
    cases kind with
    | user text => exact hopens.elim
    | _ => exact List.append_nil _

namespace Reducer

/-! ### A history -/

private theorem ingestMessage_users (acc : Reducer × List TranscriptChange) (msg : Value) :
    ∃ rest, (ingestMessage acc msg).1.state.users = acc.1.state.users ++ rest ∧
      ∀ text ∈ promptTexts [msg], text ∈ rest := by
  unfold ingestMessage promptTexts
  dsimp only
  split
  · rename_i hobject
    refine ⟨[], (List.append_nil _).symm, ?_⟩
    simp [hobject]
  · refine ⟨(messageKind msg).userText.toList, Transcript.users_push _ _, ?_⟩
    intro text htext
    by_cases hrole : msg.strAt "role" = "user"
    · have hkind : messageKind msg = .user (msg.strAt "text") := by
        unfold messageKind
        rw [hrole]
        rfl
      rw [hkind]
      simp only [List.filterMap_cons, List.filterMap_nil, hrole] at htext
      split at htext
      · cases htext
      · rename_i heq
        rw [Option.ite_none_right_eq_some] at heq
        simpa [heq.2, RowKind.userText] using htext
    · simp [hrole] at htext

/-- Every prompt of the history has a row. -/
theorem ingestResumeMessages_users (r : Reducer) (key : String) {messages : List Value} {text : String}
    (h : text ∈ promptTexts messages) : text ∈ (r.ingestResumeMessages key messages).1.state.users := by
  have hfold : ∀ acc : Reducer × List TranscriptChange, text ∈ acc.1.state.users ∨ text ∈ promptTexts messages →
      text ∈ (messages.foldl ingestMessage acc).1.state.users := by
    clear h
    induction messages with
    | nil =>
      rintro acc (h | h)
      · exact h
      · cases h
    | cons msg messages ih =>
      intro acc h
      obtain ⟨rest, hrest, hmem⟩ := ingestMessage_users acc msg
      refine ih _ ?_
      rw [hrest, List.mem_append]
      rcases h with h | h
      · exact .inl (.inl h)
      · have hsplit : promptTexts (msg :: messages) = promptTexts [msg] ++ promptTexts messages :=
          List.filterMap_append (l := [msg])
        rw [hsplit, List.mem_append] at h
        rcases h with h | h
        · exact .inl (.inr (hmem text h))
        · exact .inr h
  exact hfold ({}, [.reset]) (.inr h)

/-! ### The other operations -/

private theorem resolveCard_users (r : Reducer) (pred : RowKind → Bool) (settle : RowKind → RowKind) (key : String)
    (h : ∀ kind, (settle kind).userText = kind.userText) :
    (r.resolveCard pred settle key).1.state.users = r.state.users := by
  rcases r.resolveCard_cases pred settle key with ⟨-, hsame⟩ | ⟨i, -, -, -, -, hsettled⟩
  · rw [hsame]
  · rw [hsettled]
    exact r.state.users_revise i settle fun kind _ => h kind

section

variable [Serializer]

private theorem apply_users {r : Reducer} (hr : r.WellFormed) (ev : EventParams) :
    (r.apply ev).1.state.users = r.state.users := by
  unfold apply
  split
  · rfl
  · exact (handle_effect hr (.parse ev.eventType) ev.payload).users

/-- The user rows after an operation that does not replace the transcript. -/
theorem perform_users {r : Reducer} (hr : r.WellFormed) {o : Op} (ho : o.replaces = false) :
    (r.perform o).1.state.users = r.state.users ++ o.userRow := by
  cases o with
  | apply ev => exact (apply_users hr ev).trans (List.append_nil _).symm
  | resolveApproval key requestId =>
    refine (resolveCard_users r _ _ key ?_).trans (List.append_nil _).symm
    intro kind
    cases kind <;> rfl
  | resolveClarify key requestId =>
    refine (resolveCard_users r _ _ key ?_).trans (List.append_nil _).symm
    intro kind
    cases kind <;> rfl
  | appendUserRow key text => exact r.state.users_push (.user text)
  | applyApprovalCard key requestId card =>
    refine Eq.trans ?_ (List.append_nil _).symm
    rw [perform_applyApprovalCard]
    split
    · rfl
    · exact apply_users hr _
  | ingestResumeMessages => cases ho
  | resetFromResume => cases ho

end

end Reducer

end Hermo
