import Hermo.Core.Operations
import Hermo.Core.TabOps
import Hermo.Library.Run
import Hermo.Transcript.ClarifyCards
import Mathlib.Data.List.Infix

/-!
# Answering a card

`respond_approval` and `respond_clarify` enter their lock section when the RPC succeeded; every error returns before
it.  `respondApproval_settles` says what this makes of an approval card and of the texts the app shows.  The result of
`clarify.respond` is decoded and dropped: `clarify_iff` says when a card is closed by the acknowledgement that leaves
no question.
-/

namespace Hermo

open Rpc
open Reducer (isUnresolvedApproval)

section

variable [Serializer]

namespace CoreState

/-- `respond_approval` and `respond_clarify` behind their RPC: the lock section, or nothing. -/
def respond (s : CoreState) (a : Action) : Except ClientError Unit → CoreState × List TranscriptChangeDto
  | .ok () => s.act a
  | .error _ => (s, [])

omit [Serializer] in
/-- Row `i` of the session is an approval card of the request. -/
def ApprovalAt (s : CoreState) (key requestId : String) (i : Nat) (resolved : Bool) : Prop :=
  ∃ card, (s.transcriptOf key).bind (·.kindOf i) = some (.approval card) ∧ card.requestId = requestId ∧
    card.resolved = resolved

omit [Serializer] in
/-- Row `i` is the first open card of the request. -/
def OpenApproval (s : CoreState) (key requestId : String) (i : Nat) : Prop :=
  ∃ live, s.sessions.lookup key = some live ∧ live.reducer.find (isUnresolvedApproval requestId) = some i

/-- The change that shows row `i` as it is. -/
def rowUpdate (s : CoreState) (key : String) (i : Nat) : TranscriptChangeDto :=
  ⟨key, .rowUpdated, min i u32Max, rowJson (s.rowsOf key)[i]?, ""⟩

omit [Serializer] in
theorem OpenApproval.approvalAt {s : CoreState} {key requestId : String} {i : Nat}
    (h : s.OpenApproval key requestId i) : s.ApprovalAt key requestId i false := by
  obtain ⟨live, hl, hfind⟩ := h
  obtain ⟨kind, hkind, hopen⟩ := Reducer.kindOf_find hfind
  have htranscript : s.transcriptOf key = some live.reducer.state := by
    unfold transcriptOf tab
    rw [hl]
    rfl
  cases kind with
  | approval card =>
    unfold isUnresolvedApproval at hopen
    simp only [Bool.and_eq_true, beq_iff_eq, Bool.not_eq_true'] at hopen
    exact ⟨card, by rw [htranscript, Option.bind_some, hkind], hopen.1, hopen.2⟩
  | _ => cases hopen

/-- The lock section of `respond_approval` resolves the card and sends it. -/
theorem respondApproval_resolves {s : CoreState} {key requestId : String} {i : Nat}
    (h : s.OpenApproval key requestId i) :
    (s.act (.respondApproval key requestId)).1.ApprovalAt key requestId i true ∧
      (s.act (.respondApproval key requestId)).2 = [(s.act (.respondApproval key requestId)).1.rowUpdate key i] := by
  obtain ⟨live, hl, hfind⟩ := h
  obtain ⟨kind, hkind, hopen⟩ := Reducer.kindOf_find hfind
  have hresolve : live.reducer.resolveApproval key requestId =
      ({ live.reducer with state := live.reducer.state.revise i Reducer.settleApproval },
        Reducer.wrap key [.rowUpdated i]) := by
    unfold Reducer.resolveApproval Reducer.resolveCard
    rw [hfind]
  have hact : s.act (.respondApproval key requestId) =
      (s.setSession key { live with reducer := (live.reducer.resolveApproval key requestId).1 },
        changesToDtos key (live.reducer.resolveApproval key requestId).2
          (live.reducer.resolveApproval key requestId).1.state.rows "") := by
    unfold act respondApproval editReducer
    dsimp only
    rw [hl]
  rw [hact, hresolve]
  have htranscript : (s.setSession key { live with reducer :=
      { live.reducer with state := live.reducer.state.revise i Reducer.settleApproval } }).transcriptOf key =
        some (live.reducer.state.revise i Reducer.settleApproval) := by
    unfold transcriptOf
    rw [tab_setSession, if_pos rfl]
    rfl
  cases kind with
  | approval card =>
    unfold isUnresolvedApproval at hopen
    simp only [Bool.and_eq_true, beq_iff_eq, Bool.not_eq_true'] at hopen
    refine ⟨⟨{ card with resolved := true }, ?_, hopen.1, rfl⟩, ?_⟩
    · rw [htranscript, Option.bind_some, Transcript.kindOf_revise, if_pos rfl, hkind]
      rfl
    · unfold rowUpdate rowsOf
      rw [htranscript]
      rfl
  | _ => cases hopen

end CoreState

end

/-! ### The texts of the app -/

/-- `rust_message`: the `Display` of an error; `detail` is the one of an I/O error. -/
def Operations.CoreError.rustMessage (detail : String) : Operations.CoreError → String
  | .notConnected => "not connected"
  | .timeout => "operation timed out"
  | .rpc code detail => "rpc error " ++ toString code ++ ": " ++ detail
  | .io => "io error: " ++ detail
  | .unexpectedStatus => "unexpected submit status"

/-- `String.contains`. -/
def Mentions (text part : String) : Prop := part.toList <:+: text.toList

instance (text part : String) : Decidable (Mentions text part) := inferInstanceAs (Decidable (_ <:+: _))

private theorem not_mentions {text part : String} {c : Char} (hpart : c ∈ part.toList) (htext : c ∉ text.toList) :
    ¬ Mentions text part := fun h => htext (h.subset hpart)

/-- `approvalRespondErrorCopy`, on the message of the `Throwable`. -/
def approvalRespondErrorCopy (message : Option String) : Option String :=
  match message with
  | none => none
  | some msg =>
    if Mentions msg "rpc error 4009" ∨ Mentions msg "rpc error 4018" then some "Answered elsewhere" else none

private theorem infix_around {α : Type} {p a b : List α} {c : α} (hc : c ∉ p) :
    p <:+: a ++ c :: b ↔ p <:+: a ∨ p <:+: b := by
  have hempty : ∀ l, l <+: c :: b → (∀ x ∈ l, x ∈ p) → l = [] := by
    intro l hl hsub
    cases l with
    | nil => rfl
    | cons x l =>
      obtain ⟨rfl, -⟩ := List.cons_prefix_cons.1 hl
      exact absurd (hsub x List.mem_cons_self) hc
  constructor
  · intro h
    rcases List.infix_append_iff.1 h with ha | hcb | ⟨l₁, l₂, rfl, h₁, h₂⟩
    · exact .inl ha
    · rcases List.infix_cons_iff.1 hcb with hprefix | hb
      · rw [hempty p hprefix fun x hx => hx]
        exact .inl List.nil_infix
      · exact .inr hb
    · rw [hempty l₂ h₂ fun x hx => List.mem_append_right l₁ hx, List.append_nil]
      exact .inl h₁.isInfix
  · rintro (h | h)
    · exact h.trans List.infix_append_left
    · exact h.trans ((List.suffix_cons c b).isInfix.trans List.infix_append_right)

private theorem no_letter (code : Int) : 'r' ∉ code.repr.toList := by
  intro hmem
  cases code with
  | ofNat n =>
    change 'r' ∈ n.repr.toList at hmem
    rw [Nat.toList_repr] at hmem
    exact absurd (Nat.isDigit_of_mem_toDigits (by decide) (by decide) hmem) (by decide)
  | negSucc n =>
    change 'r' ∈ ("-" ++ (n + 1).repr).toList at hmem
    rw [String.toList_append, List.mem_append, Nat.toList_repr] at hmem
    rcases hmem with hmem | hmem
    · simp at hmem
    · exact absurd (Nat.isDigit_of_mem_toDigits (by decide) (by decide) hmem) (by decide)

/-- The text of an RPC error names a code where its own code begins with it, or where its message names it. -/
theorem mentions_rpc_iff (code : Int) (detail : String) {part : String} {digits : List Char}
    (hpart : part.toList = "rpc error ".toList ++ digits) (hdigits : ':' ∉ digits) :
    Mentions ("rpc error " ++ toString code ++ ": " ++ detail) part ↔
      digits <+: (toString code).toList ∨ Mentions detail part := by
  have hno : ∀ l, ¬ 'r' :: l <:+: code.repr.toList := fun l h => no_letter code (h.subset List.mem_cons_self)
  have hhead : ∀ l, ¬ 'r' :: l <+: code.repr.toList := fun l h => hno l h.isInfix
  have htext : ("rpc error " ++ toString code ++ ": " ++ detail).toList =
      ("rpc error ".toList ++ (toString code).toList) ++ ':' :: ' ' :: detail.toList := by
    simp
  unfold Mentions
  rw [htext, hpart, infix_around (by simpa using hdigits)]
  refine or_congr ?_ ?_
  · simp [List.infix_cons_iff, hno, hhead]
  · simp [List.infix_cons_iff]

/-- The app says that the approval was answered elsewhere. -/
def SaysElsewhere (message : Option String) : Prop := approvalRespondErrorCopy message = some "Answered elsewhere"

theorem saysElsewhere_iff (message : Option String) :
    SaysElsewhere message ↔
      ∃ text, message = some text ∧ (Mentions text "rpc error 4009" ∨ Mentions text "rpc error 4018") := by
  unfold SaysElsewhere approvalRespondErrorCopy
  cases message with
  | none => simp
  | some text =>
    simp only [Option.some_inj, exists_eq_left']
    split
    · exact iff_of_true rfl ‹_›
    · exact iff_of_false nofun ‹_›

/-- The errors of a call that the app takes for an answer from elsewhere. -/
def NamesElsewhere : ClientError → Prop
  | .rpc code detail =>
    ("4009".toList <+: (toString code).toList ∨ Mentions detail "rpc error 4009") ∨
      ("4018".toList <+: (toString code).toList ∨ Mentions detail "rpc error 4018")
  | _ => False

theorem saysElsewhere_rustMessage (e : ClientError) (detail : String) :
    SaysElsewhere (some ((Operations.CoreError.ofClient e).rustMessage detail)) ↔ NamesElsewhere e := by
  rw [saysElsewhere_iff]
  simp only [Option.some_inj, exists_eq_left']
  cases e with
  | rpc code detail =>
    have hname4009 : "rpc error 4009".toList = "rpc error ".toList ++ "4009".toList := by decide
    have hname4018 : "rpc error 4018".toList = "rpc error ".toList ++ "4018".toList := by decide
    exact or_congr (mentions_rpc_iff code detail hname4009 (by decide))
      (mentions_rpc_iff code detail hname4018 (by decide))
  | timeout =>
    have hno : '4' ∉ "operation timed out".toList := by decide
    exact iff_of_false (not_or.2 ⟨not_mentions (by decide) hno, not_mentions (by decide) hno⟩) id
  | closed reason =>
    have hno : '4' ∉ "not connected".toList := by decide
    exact iff_of_false (not_or.2 ⟨not_mentions (by decide) hno, not_mentions (by decide) hno⟩) id

/-! ### `respond_approval` -/

section

variable [Serializer]

namespace Operations

private theorem core_settle (s : Shared) (a : Action) (reply : Except ClientError Unit) :
    (settle s a reply).1.store.core = (s.store.core.respond a reply).1 := by
  cases reply <;> rfl

/-- Unless the gateway says 4009, a card is resolved and shown exactly when the RPC succeeded, and an error changes
nothing; the app takes an error for an answer from elsewhere when its text names 4009 or 4018. -/
theorem respondApproval_settles (s : Shared) (key requestId : String) (reply : Except ClientError Unit) :
    ((∀ detail, reply ≠ .error (.rpc 4009 detail)) →
      ∃ s' p, Point.next s (.approving key requestId) (.answered reply) = some (s', p) ∧
        s'.store.core = (s.store.core.respond (.respondApproval key requestId) reply).1 ∧
        (∀ i, s.store.core.OpenApproval key requestId i →
          ((s'.store.core.ApprovalAt key requestId i true ∧
              (s.store.core.respond (.respondApproval key requestId) reply).2 = [s'.store.core.rowUpdate key i]) ↔
            reply = .ok ())) ∧
        ∀ e, reply = .error e →
          s' = s ∧ (s.store.core.respond (.respondApproval key requestId) reply).2 = [] ∧ p = .fail (.ofClient e)) ∧
      (∀ message, SaysElsewhere message ↔
        ∃ text, message = some text ∧ (Mentions text "rpc error 4009" ∨ Mentions text "rpc error 4018")) ∧
      ∀ e detail, SaysElsewhere (some ((CoreError.ofClient e).rustMessage detail)) ↔ NamesElsewhere e := by
  refine ⟨fun _ => ⟨(settle s (.respondApproval key requestId) reply).1,
    (settle s (.respondApproval key requestId) reply).2, rfl, core_settle s _ reply, ?_, ?_⟩, saysElsewhere_iff,
    saysElsewhere_rustMessage⟩
  · intro i hopen
    rw [core_settle]
    cases reply with
    | ok u => exact iff_of_true (CoreState.respondApproval_resolves hopen) rfl
    | error e =>
      refine iff_of_false ?_ nofun
      rintro ⟨-, hsent⟩
      cases hsent
  · rintro e rfl
    exact ⟨rfl, rfl, rfl⟩

/-- What follows on the reply of `clarify.respond` is `CoreState.respond`. -/
theorem next_clarifying (s : Shared) (key requestId : String) (reply : Except ClientError Unit) :
    ∃ s' p, Point.next s (.clarifying key requestId) (.answered reply) = some (s', p) ∧
      s'.store.core = (s.store.core.respond (.respondClarify key requestId) reply).1 :=
  ⟨_, _, rfl, core_settle s (.respondClarify key requestId) reply⟩

end Operations

/-! ### `respond_clarify` -/

omit [Serializer] in
/-- The acknowledgement leaves no question, or the request expired. -/
def ClarifyAck.final (ack : ClarifyAck) : Bool := ack.remaining.isEmpty || ack.status == "expired"

/-- While a card is on the transcript: the result of a `clarify.respond` for it, or another lock section. -/
inductive ClarifyStep where
  | reply (result : Outcome)
  | other (a : Action)

omit [Serializer] in
/-- The acknowledgement of a call that succeeded. -/
def ClarifyStep.ack : ClarifyStep → Option ClarifyAck
  | .reply result => (result.map ClarifyAck.fromValue).toOption
  | .other _ => none

omit [Serializer] in
def acks (steps : List ClarifyStep) : List ClarifyAck := steps.filterMap ClarifyStep.ack

namespace CoreState

/-- `respond_clarify` behind its RPC does not look at the acknowledgement. -/
def clarifyStep (s : CoreState) (key requestId : String) : ClarifyStep → CoreState
  | .reply result =>
    (s.respond (.respondClarify key requestId) ((result.map ClarifyAck.fromValue).map fun _ => ())).1
  | .other a => (s.act a).1

def clarifyRun (s : CoreState) (key requestId : String) (steps : List ClarifyStep) : CoreState :=
  steps.foldl (clarifyStep · key requestId) s

omit [Serializer] in
/-- Row `i` of the session is a clarify card of the request, with `ahead` open ones before it. -/
def ClarifyAt (s : CoreState) (key requestId : String) (i : Nat) (resolved : Bool) (ahead : Nat) : Prop :=
  ∃ live, (s.tab key).live = some live ∧ live.reducer.state.CardAt requestId i resolved ahead

omit [Serializer] in
private theorem op_clarify {t : Tab} {live : LiveSession} {key key' requestId : String} {b : TabAction}
    (h : t.op live key b = some (.resolveClarify key' requestId)) : b = .respondClarify requestId := by
  cases b <;> simp only [Tab.op, Option.some.injEq, reduceCtorEq, Option.ite_none_left_eq_some,
    Option.ite_none_right_eq_some, and_false, Op.resolveClarify.injEq] at h
  rw [h.2]

/-- An action that leaves the transcript there and answers no card of the request. -/
private theorem act_clarifyAt {s : CoreState} (hwf : s.WellFormed) {key requestId : String} {a : Action}
    (hreplace : a.replaces key = false) (hanswer : a ≠ .respondClarify key requestId) {i ahead : Nat} {resolved : Bool}
    (h : s.ClarifyAt key requestId i resolved ahead) : (s.act a).1.ClarifyAt key requestId i resolved ahead := by
  obtain ⟨live, hl, hcard⟩ := h
  unfold ClarifyAt
  rw [tab_act]
  cases hon : s.onTab key a with
  | none => exact ⟨live, hl, hcard⟩
  | some b =>
    obtain ⟨hkeeps, hrebuild⟩ := onTab_kept hreplace hon
    refine ⟨_, Tab.live_act hl key hkeeps, ?_⟩
    dsimp only
    cases hop : (s.tab key).op live key b with
    | none => exact hcard
    | some o =>
      refine Reducer.perform_cardAt (hwf key live hl) (Tab.op_replaces hrebuild hop) ?_ hcard
      rintro key' rfl
      obtain rfl := op_clarify hop
      exact hanswer (onTab_respondClarify hon)

/-- An answer of the request. -/
private theorem respondClarify_clarifyAt {s : CoreState} {key requestId : String} {i ahead : Nat} {resolved : Bool}
    (h : s.ClarifyAt key requestId i resolved ahead) :
    (s.act (.respondClarify key requestId)).1.ClarifyAt key requestId i (resolved || ahead == 0) (ahead - 1) := by
  obtain ⟨live, hl, hcard⟩ := h
  have hon : s.onTab key (.respondClarify key requestId) = some (.respondClarify requestId) := if_pos rfl
  unfold ClarifyAt
  rw [tab_act, hon]
  exact ⟨_, Tab.live_act hl key rfl, Reducer.resolveClarify_cardAt key hcard⟩

omit [Serializer] in
private theorem ClarifyAt.unique {s : CoreState} {key requestId : String} {i ahead ahead' : Nat}
    {resolved resolved' : Bool} (h : s.ClarifyAt key requestId i resolved ahead)
    (h' : s.ClarifyAt key requestId i resolved' ahead') : resolved = resolved' := by
  obtain ⟨live, hl, card, hcard, -, rfl, -⟩ := h
  obtain ⟨live', hl', card', hcard', -, rfl, -⟩ := h'
  cases hl.symm.trans hl'
  cases hcard.symm.trans hcard'
  rfl

omit [Serializer] in
private theorem acks_snoc (steps : List ClarifyStep) (step : ClarifyStep) :
    acks (steps ++ [step]) = acks steps ++ step.ack.toList := by
  unfold acks
  rw [List.filterMap_append]
  cases hack : step.ack with
  | none => simp [List.filterMap_cons_none hack]
  | some ack => simp [List.filterMap_cons_some hack]

/-- The card is closed once there were more successful replies than open cards before it. -/
theorem clarifyRun_clarifyAt {s : CoreState} (hwf : s.WellFormed) {key requestId : String} {i ahead : Nat}
    (hcard : s.ClarifyAt key requestId i false ahead) {steps : List ClarifyStep}
    (hkeep : ∀ a, .other a ∈ steps → a.replaces key = false ∧ a ≠ .respondClarify key requestId) :
    (s.clarifyRun key requestId steps).WellFormed ∧
      (s.clarifyRun key requestId steps).ClarifyAt key requestId i (decide (ahead < (acks steps).length))
        (ahead - (acks steps).length) := by
  induction steps using List.reverseRecOn with
  | nil => exact ⟨hwf, hcard⟩
  | append_singleton steps step ih =>
    obtain ⟨hbefore, hat⟩ := ih fun a ha => hkeep a (List.mem_append_left _ ha)
    have hrun : s.clarifyRun key requestId (steps ++ [step]) =
        (s.clarifyRun key requestId steps).clarifyStep key requestId step := List.foldl_append
    rw [hrun, acks_snoc, List.length_append]
    cases step with
    | other a =>
      obtain ⟨hreplace, hanswer⟩ := hkeep a (List.mem_append_right _ List.mem_cons_self)
      exact ⟨hbefore.act a, act_clarifyAt hbefore hreplace hanswer hat⟩
    | reply result =>
      cases result with
      | error e => exact ⟨hbefore, hat⟩
      | ok value =>
        refine ⟨hbefore.act _, ?_⟩
        have hafter := respondClarify_clarifyAt hat
        have hresolved : (decide (ahead < (acks steps).length) || ahead - (acks steps).length == 0) =
            decide (ahead < (acks steps).length + 1) := by
          rw [Bool.eq_iff_iff]
          simp only [Bool.or_eq_true, decide_eq_true_eq, beq_iff_eq]
          omega
        rw [hresolved, Nat.sub_sub] at hafter
        exact hafter

/-! ### Every sequence of replies -/

omit [Serializer] in
/-- The successful replies before the final one are as many as the open cards before this one. -/
def FinalInTurn (ahead : Nat) (before : List ClarifyStep) (step : ClarifyStep) : Prop :=
  ∀ ack, step.ack = some ack → (acks before).any ClarifyAck.final = false →
    (ack.final = true ↔ (acks before).length = ahead)

omit [Serializer] in
private theorem acks_iff (ahead : Nat) (steps : List ClarifyStep) :
    (∀ before, before <+: steps → decide (ahead < (acks before).length) = (acks before).any ClarifyAck.final) ↔
      ∀ before step, before ++ [step] <+: steps → FinalInTurn ahead before step := by
  refine Run.prefixes_iff (by simp [acks]) ?_ steps
  intro before step hbefore
  unfold FinalInTurn
  rw [acks_snoc]
  cases step.ack with
  | none => simpa using hbefore
  | some ack =>
    simp only [Option.toList_some, List.length_append, List.length_singleton, List.any_append, List.any_cons,
      List.any_nil, Bool.or_false, Option.some_inj, forall_eq']
    rw [← hbefore, Bool.eq_iff_iff]
    simp only [decide_eq_true_eq, Bool.or_eq_true, decide_eq_false_iff_not]
    by_cases hlt : ahead < (acks before).length
    · exact iff_of_true (iff_of_true (by omega) (.inl hlt)) (absurd hlt)
    · have hturn : ahead < (acks before).length + 1 ↔ (acks before).length = ahead := by omega
      simp only [hlt, false_or, not_false_eq_true, true_implies, hturn]
      exact ⟨Iff.symm, Iff.symm⟩

/-- While answers for it come in, a clarify card is closed exactly when an acknowledgement left no question, if and
only if the first such acknowledgement is the one behind those that closed the cards before it. -/
theorem clarify_iff (registry : SessionRegistry) (prior : List Action) (key requestId : String) (i ahead : Nat)
    (steps : List ClarifyStep) (hcard : ((new registry).run prior).ClarifyAt key requestId i false ahead)
    (hkeep : ∀ a, .other a ∈ steps → a.replaces key = false ∧ a ≠ .respondClarify key requestId) :
    (∀ before, before <+: steps → ∃ n, (((new registry).run prior).clarifyRun key requestId before).ClarifyAt key
        requestId i ((acks before).any ClarifyAck.final) n) ↔
      ∀ before step, before ++ [step] <+: steps → FinalInTurn ahead before step := by
  have hwf : ((new registry).run prior).WellFormed := (wellFormed_new registry).run prior
  rw [← acks_iff]
  refine forall_congr' fun before => forall_congr' fun hfirst => ?_
  have hat := (clarifyRun_clarifyAt hwf hcard fun a ha => hkeep a (hfirst.subset ha)).2
  constructor
  · rintro ⟨n, hn⟩
    exact hat.unique hn
  · intro heq
    exact ⟨_, heq ▸ hat⟩

end CoreState

end

/-! ### An answer from elsewhere, and a batch of two questions -/

section

attribute [local instance] Serializer.compact

private def promptChat : Action := .openSession (.created ⟨"live", "chat", ""⟩) none 80

private def approvalPrompt : Action :=
  .deliver ⟨"approval.request", "live", none, .object [("request_id", .string "r1")]⟩

private def approvalShared : Operations.Shared :=
  { client := true, store := { core := (CoreState.new {}).run [promptChat, approvalPrompt], file := none } }

theorem respondApproval_settles_ok : ∃ s' p,
    Operations.Point.next approvalShared (.approving "chat" "r1") (.answered (.ok ())) = some (s', p) ∧
      s'.store.core.ApprovalAt "chat" "r1" 0 true := by
  obtain ⟨s', p, hnext, -, hcard, -⟩ :=
    (Operations.respondApproval_settles approvalShared "chat" "r1" (.ok ())).1 nofun
  exact ⟨s', p, hnext, ((hcard 0 ⟨_, rfl, rfl⟩).2 rfl).1⟩

/-- With 4009 the card stays open; with 4018 it does too, but the app says that it was answered elsewhere. -/
theorem elsewhere_leaves_card :
    approvalShared.store.core.OpenApproval "chat" "r1" 0 ∧
      (approvalShared.store.core.respond (.respondApproval "chat" "r1")
        (.error (.rpc 4009 "no pending request"))).1.ApprovalAt "chat" "r1" 0 false ∧
      (approvalShared.store.core.respond (.respondApproval "chat" "r1")
        (.error (.rpc 4018 "stale target"))).1.ApprovalAt "chat" "r1" 0 false ∧
      SaysElsewhere (some ((Operations.CoreError.ofClient (.rpc 4018 "stale target")).rustMessage "")) := by
  have hopen : approvalShared.store.core.OpenApproval "chat" "r1" 0 := ⟨_, rfl, rfl⟩
  refine ⟨hopen, hopen.approvalAt, hopen.approvalAt, ?_⟩
  exact (saysElsewhere_rustMessage _ "").2 (.inr (.inl (by decide)))

private def clarifyPrompt (questions : List Value) : Action :=
  .deliver ⟨"clarify.request", "live", none, .object [("request_id", .string "c1"), ("questions", .array questions)]⟩

private def clarifyQuestion (qid : String) : Value := .object [("qid", .string qid), ("question", .string "?")]

private def lastAck : ClarifyStep := .reply (.ok (.object [("status", .string "ok"), ("remaining", .array [])]))

private def batchAck : ClarifyStep :=
  .reply (.ok (.object [("status", .string "ok"), ("remaining", .array [.string "q1"])]))

/-- The card of one question is closed by its answer. -/
theorem clarify_iff_single :
    ∃ n, (((CoreState.new {}).run [promptChat, clarifyPrompt [clarifyQuestion "q0"]]).clarifyRun "chat" "c1"
      [lastAck]).ClarifyAt "chat" "c1" 0 true n := by
  refine (CoreState.clarify_iff {} [promptChat, clarifyPrompt [clarifyQuestion "q0"]] "chat" "c1" 0 0 [lastAck]
    ⟨_, rfl, _, rfl, rfl, rfl, rfl⟩ ?_).2 ?_ [lastAck] (List.prefix_refl _)
  · intro a ha
    cases List.mem_singleton.1 ha
  · intro before step hprefix ack hack _
    have hempty : before = [] := by
      have hlen := hprefix.length_le
      simpa using hlen
    subst hempty
    obtain ⟨rfl, -⟩ := List.cons_prefix_cons.1 hprefix
    cases hack
    exact iff_of_true rfl rfl

/-- A card of two questions is closed by the first answer, which leaves the second question open. -/
theorem batch_closed_early :
    ((CoreState.new {}).run
        [promptChat, clarifyPrompt [clarifyQuestion "q0", clarifyQuestion "q1"]]).ClarifyAt "chat" "c1" 0 false 0 ∧
      acks [batchAck] = [⟨"ok", ["q1"]⟩] ∧ (acks [batchAck]).any ClarifyAck.final = false ∧
      (((CoreState.new {}).run [promptChat, clarifyPrompt [clarifyQuestion "q0", clarifyQuestion "q1"]]).clarifyRun
        "chat" "c1" [batchAck]).ClarifyAt "chat" "c1" 0 true 0 :=
  ⟨⟨_, rfl, _, rfl, rfl, rfl, rfl⟩, rfl, by decide, ⟨_, rfl, _, rfl, rfl, rfl, rfl⟩⟩

end

end Hermo
