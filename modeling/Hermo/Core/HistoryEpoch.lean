import Hermo.Core.TabOps
import Hermo.Library.Generation

/-!
# The history-epoch guard

`send` and `submit_slash_message` capture the history epoch of the session before they await the submit, and append
the user row only when the session still carries it.  The epochs are tags drawn from the counter of the core
(`Generation`): `Stamped` keeps the distance of a live session's tag to the counter along a run.  `submit_guard_iff`
says exactly when the row is appended, as long as the counter did not go round since the captured session was built;
`submit_guard_wraps` shows that this condition is needed.
-/

namespace Hermo

namespace Action

theorem draws_of_installs {key : String} {a : Action} (h : a.installs key = true) : a.draws = true := by
  cases a <;> first | rfl | cases h

private theorem age_replicate (key : String) (messages : List Value) (replayEpoch : Option String) (n k : Nat) :
    Generation.age draws (installs key) n
      (List.replicate (k + 1) (.rebuildSession key messages replayEpoch)) = 0 := by
  induction k generalizing n with
  | zero => simp [Generation.age, installs]
  | succ k ih =>
    rw [List.replicate_succ]
    unfold Generation.age
    exact ih _

end Action

/-- The end of `send` and `submit_slash_message`: `none` is a failed RPC.  An unknown status publishes no row. -/
def CoreState.finishSubmit [Serializer] (s : CoreState) (key text : String) (historyEpoch : UInt64)
    (status : Option SubmitStatus) : CoreState × List TranscriptChangeDto :=
  match status with
  | some status => if status.accepted then s.appendUserRow key text historyEpoch else (s, [])
  | none => (s, [])

namespace CoreState

/-- The epoch of the live session of a key, `none` when it is not open. -/
def epochOf (s : CoreState) (key : String) : Option UInt64 :=
  (s.tab key).live.map LiveSession.historyEpoch

theorem historyEpoch_kept {b : TabAction}
    (h : ∀ messages replayEpoch historyEpoch, b ≠ .rebuildSession messages replayEpoch historyEpoch) (epoch : UInt64) :
    b.historyEpoch epoch = epoch := by
  cases b with
  | rebuildSession => exact absurd rfl (h _ _ _)
  | _ => rfl

section

variable [Serializer]

private theorem editReducer_historyEpoch (s : CoreState) (key : String)
    (edit : Reducer → Reducer × List SessionChange) : (s.editReducer key edit).1.historyEpoch = s.historyEpoch := by
  unfold editReducer
  split <;> rfl

private theorem deliverEvent_historyEpoch (s : CoreState) (ev : EventParams) :
    (s.deliverEvent ev).1.historyEpoch = s.historyEpoch := by
  unfold deliverEvent routeEvent
  cases s.resolve ev.sessionId with
  | none => rfl
  | some key =>
    dsimp only
    cases hl : s.sessions.lookup key with
    | none => rfl
    | some live => rfl

private theorem reemitCard_historyEpoch (s : CoreState) (key : String) (card : Value) :
    (s.reemitCard key card).1.historyEpoch = s.historyEpoch := by
  unfold reemitCard
  dsimp only
  split
  · rfl
  · split
    · rfl
    · split
      · rfl
      · split
        · rfl
        · split <;> rfl

/-- The counter moves with every open and every rebuild, and with nothing else. -/
theorem act_historyEpoch (s : CoreState) (a : Action) :
    (s.act a).1.historyEpoch = if a.draws then s.historyEpoch + 1 else s.historyEpoch := by
  cases a with
  | deliver ev => exact deliverEvent_historyEpoch s ev
  | openSession reply profile cols => rfl
  | closeSession key => rfl
  | clearSessions => rfl
  | forgetGateway => rfl
  | rebuildSession key messages replayEpoch =>
    unfold act rebuildSession
    dsimp only
    split <;> rfl
  | repointLiveSid key sid =>
    unfold act repointLiveSid
    dsimp only
    split
    · rfl
    · split <;> rfl
  | touch key seq epoch => rfl
  | reemitCard key card => exact reemitCard_historyEpoch s key card
  | appendUserRow key text historyEpoch =>
    unfold act appendUserRow
    dsimp only
    split
    · rfl
    · split
      · exact editReducer_historyEpoch s key _
      · rfl
  | respondApproval key requestId => exact editReducer_historyEpoch s key _
  | respondClarify key requestId => exact editReducer_historyEpoch s key _

theorem run_historyEpoch (s : CoreState) (actions : List Action) :
    (s.run actions).historyEpoch = s.historyEpoch + UInt64.ofNat (actions.countP Action.draws) := by
  induction actions generalizing s with
  | nil => simp
  | cons a actions ih =>
    rw [run_cons, ih, act_historyEpoch, List.countP_cons, UInt64.ofNat_add]
    split
    · rw [UInt64.add_assoc, UInt64.add_comm 1]
      rfl
    · simp

private theorem act_epochOf {t : Tab} (key : String) {b : TabAction} (hb : b.keeps)
    (he : ∀ epoch, b.historyEpoch epoch = epoch) :
    (t.act key b).1.live.map LiveSession.historyEpoch = t.live.map LiveSession.historyEpoch := by
  cases hl : t.live with
  | none => rw [(Tab.act_none hl key hb).1]
  | some live => rw [Tab.live_act hl key hb, Option.map_some, Option.map_some, he]

/-- An action that does not replace the session keeps its epoch. -/
private theorem epochOf_kept {s : CoreState} {key : String} {a : Action} (h : a.replaces key = false) :
    (s.act a).1.epochOf key = s.epochOf key := by
  unfold epochOf
  rw [tab_act]
  cases hon : s.onTab key a with
  | none => rfl
  | some b =>
    obtain ⟨hb, he⟩ := onTab_kept h hon
    exact act_epochOf key hb (historyEpoch_kept he)

/-- A session that was just opened or rebuilt carries the new value of the counter. -/
private theorem epochOf_installed {s : CoreState} {key : String} {a : Action} (h : a.installs key = true)
    {epoch : UInt64} (he : (s.act a).1.epochOf key = some epoch) : epoch = s.historyEpoch + 1 := by
  unfold epochOf at he
  rw [tab_act] at he
  cases a <;> simp only [Action.installs, Bool.false_eq_true, beq_iff_eq] at h
  case openSession reply profile cols =>
    simp only [onTab, h, ↓reduceIte] at he
    exact (Option.some_inj.1 he).symm
  case rebuildSession key' messages replayEpoch =>
    simp only [onTab, h, ↓reduceIte] at he
    change ((s.tab key).act key _).1.live.map LiveSession.historyEpoch = some epoch at he
    cases hl : (s.tab key).live with
    | none =>
      rw [(Tab.act_none hl key rfl).1] at he
      cases he
    | some live =>
      rw [Tab.live_act hl key rfl] at he
      exact (Option.some_inj.1 he).symm

/-- A session that was removed has no epoch. -/
private theorem epochOf_removed {s : CoreState} {key : String} {a : Action} (h : a.replaces key = true)
    (hi : a.installs key = false) : (s.act a).1.epochOf key = none := by
  unfold epochOf
  rw [tab_act]
  cases a <;> simp_all [onTab, Action.replaces, Action.installs] <;> rfl

/-- The tag of the live session of `key` lies `n` behind the counter. -/
def Stamped (s : CoreState) (key : String) (n : Nat) : Prop :=
  ∀ epoch, s.epochOf key = some epoch → epoch + UInt64.ofNat n = s.historyEpoch

private theorem Stamped.act {s : CoreState} {key : String} {n : Nat} (h : s.Stamped key n) (a : Action) :
    (s.act a).1.Stamped key (if a.installs key then 0 else if a.draws then n + 1 else n) := by
  intro epoch he
  rw [act_historyEpoch]
  by_cases hi : a.installs key = true
  · rw [if_pos hi, if_pos (Action.draws_of_installs hi), epochOf_installed hi he]
    simp
  · rw [Bool.not_eq_true] at hi
    by_cases hr : a.replaces key = true
    · rw [epochOf_removed hr hi] at he
      cases he
    · rw [Bool.not_eq_true] at hr
      rw [epochOf_kept hr] at he
      have hn := h epoch he
      rw [hi]
      simp only [Bool.false_eq_true, ↓reduceIte]
      split
      · rw [UInt64.ofNat_add, ← UInt64.add_assoc, hn]
        rfl
      · exact hn

theorem Stamped.run {s : CoreState} {key : String} {n : Nat} (h : s.Stamped key n) (actions : List Action) :
    (s.run actions).Stamped key (Generation.age Action.draws (Action.installs key) n actions) := by
  induction actions generalizing s n with
  | nil => exact h
  | cons a actions ih => exact ih (h.act a)

private theorem run_kept {s : CoreState} {key : String} {actions : List Action}
    (h : ∀ a ∈ actions, a.replaces key = false) : (s.run actions).epochOf key = s.epochOf key := by
  induction actions generalizing s with
  | nil => rfl
  | cons a actions ih =>
    rw [run_cons, ih fun b hb => h b (List.mem_cons_of_mem a hb)]
    exact epochOf_kept (h a List.mem_cons_self)

/-- A key that is open after its session was replaced was opened or rebuilt in between. -/
private theorem installed_of_open {s : CoreState} {key : String} {actions : List Action}
    (h : ∃ a ∈ actions, a.replaces key = true) {epoch : UInt64}
    (he : (s.run actions).epochOf key = some epoch) : ∃ a ∈ actions, a.installs key = true := by
  by_contra hno
  push Not at hno
  have hgone : ∀ (as : List Action) (s : CoreState), (∀ a ∈ as, a.installs key ≠ true) → s.epochOf key = none →
      (s.run as).epochOf key = none := by
    intro as
    induction as with
    | nil => exact fun s _ hs => hs
    | cons a as ih =>
      intro s ha hs
      refine ih _ (fun b hb => ha b (List.mem_cons_of_mem a hb)) ?_
      have hi := Bool.eq_false_iff.2 (ha a List.mem_cons_self)
      by_cases hr : a.replaces key = true
      · exact epochOf_removed hr hi
      · rw [epochOf_kept (Bool.eq_false_iff.2 hr), hs]
  obtain ⟨a, ha, hr⟩ := h
  obtain ⟨as, bs, rfl⟩ := List.append_of_mem ha
  rw [run_append, run_cons] at he
  have hend := hgone bs ((s.run as).act a).1 (fun b hb => hno b (by simp [hb]))
    (epochOf_removed hr (Bool.eq_false_iff.2 (hno a ha)))
  rw [hend] at he
  cases he

/-- The row is appended when the submit was accepted and the captured epoch is still there; otherwise nothing
happens. -/
theorem finishSubmit_cases (s : CoreState) (key text : String) (epoch : UInt64)
    (status : Option SubmitStatus) :
    ((status = some .streaming ∨ status = some .redirected) ∧ s.epochOf key = some epoch ∧
        (s.finishSubmit key text epoch status).1.rowsOf key =
          s.rowsOf key ++ [⟨(s.rowsOf key).length, .user text⟩]) ∨
      (¬ ((status = some .streaming ∨ status = some .redirected) ∧ s.epochOf key = some epoch) ∧
        s.finishSubmit key text epoch status = (s, [])) := by
  -- the append looks at the session again, under the epoch that was captured
  have happend : (s.epochOf key = some epoch ∧ (s.appendUserRow key text epoch).1.rowsOf key =
      s.rowsOf key ++ [⟨(s.rowsOf key).length, .user text⟩]) ∨
        (s.epochOf key ≠ some epoch ∧ s.appendUserRow key text epoch = (s, [])) := by
    unfold appendUserRow epochOf rowsOf transcriptOf tab
    dsimp only
    cases hl : s.sessions.lookup key with
    | none => exact .inr ⟨by simp, rfl⟩
    | some live =>
      dsimp only
      by_cases he : live.historyEpoch = epoch
      · refine .inl ⟨by simp [he], ?_⟩
        rw [if_pos he]
        unfold editReducer
        rw [hl]
        simp [setSession, Reducer.appendUserRow]
      · exact .inr ⟨by simpa using he, by rw [if_neg he]⟩
  unfold finishSubmit
  cases status with
  | none => exact .inr ⟨by simp, rfl⟩
  | some status =>
    cases status with
    | other => exact .inr ⟨by simp, rfl⟩
    | streaming =>
      rcases happend with ⟨he, hrows⟩ | ⟨he, hsame⟩
      · exact .inl ⟨.inl rfl, he, hrows⟩
      · exact .inr ⟨fun h => he h.2, hsame⟩
    | redirected =>
      rcases happend with ⟨he, hrows⟩ | ⟨he, hsame⟩
      · exact .inl ⟨.inr rfl, he, hrows⟩
      · exact .inr ⟨fun h => he h.2, hsame⟩

/-- The captured epoch is still there exactly when the session was not replaced. -/
theorem epochOf_iff (registry : SessionRegistry) (before inflight : List Action) {key : String}
    {live : LiveSession} (hopen : (((new registry).run before).tab key).live = some live)
    (hcount : Generation.age Action.draws (Action.installs key) 0 before + inflight.countP Action.draws < 2 ^ 64) :
    ((new registry).run (before ++ inflight)).epochOf key = some live.historyEpoch ↔
      ∀ a ∈ inflight, a.replaces key = false := by
  have hcaptured : ((new registry).run before).epochOf key = some live.historyEpoch := by
    unfold epochOf
    rw [hopen, Option.map_some]
  have hstart : (new registry).Stamped key 0 := by
    intro epoch he
    cases he
  have htag := hstart.run before live.historyEpoch hcaptured
  rw [run_append]
  constructor
  · intro he
    by_contra hno
    push Not at hno
    have hr : ∃ a ∈ inflight, a.replaces key = true := by
      obtain ⟨a, ha, hne⟩ := hno
      exact ⟨a, ha, by simpa using hne⟩
    -- the session is a later one, and its epoch was drawn later
    have hi := installed_of_open hr he
    have htag' := hstart.run (before ++ inflight) live.historyEpoch (by rwa [run_append])
    rw [run_append, run_historyEpoch, Generation.age_append] at htag'
    exact Generation.tag_ne htag htag'
      (Generation.age_lt _ _ (fun a => Action.draws_of_installs) _ hi) hcount rfl
  · intro hkept
    rw [run_kept hkept, hcaptured]

/-- The guard of `send` and `submit_slash_message`.  After `before` the epoch of the live session of `key` is
captured and the prompt submitted; `inflight` is everything that runs before the reply is handled.  If the counter
was drawn fewer than `2 ^ 64` times since the captured session was opened or rebuilt, then the user row is appended
exactly when the submit was accepted and nothing in `inflight` opened, rebuilt or removed the session; otherwise the
state stays as it is and nothing is sent. -/
theorem submit_guard_iff (registry : SessionRegistry) (before inflight : List Action) (key text : String)
    (status : Option SubmitStatus) (live : LiveSession)
    (hopen : (((new registry).run before).tab key).live = some live)
    (hcount : Generation.age Action.draws (Action.installs key) 0 before + inflight.countP Action.draws < 2 ^ 64) :
    let s := (new registry).run (before ++ inflight)
    let result := s.finishSubmit key text live.historyEpoch status
    let guard := (status = some .streaming ∨ status = some .redirected) ∧
      ∀ a ∈ inflight, a.replaces key = false
    (result.1.rowsOf key = s.rowsOf key ++ [⟨(s.rowsOf key).length, .user text⟩] ↔ guard) ∧
      (¬ guard → result = (s, [])) := by
  intro s result guard
  have hcases := finishSubmit_cases s key text live.historyEpoch status
  rw [epochOf_iff registry before inflight hopen hcount] at hcases
  rcases hcases with ⟨hstatus, hkept, hrows⟩ | ⟨hno, hsame⟩
  · exact ⟨⟨fun _ => ⟨hstatus, hkept⟩, fun _ => hrows⟩, fun h => absurd ⟨hstatus, hkept⟩ h⟩
  · refine ⟨⟨fun hrows => ?_, fun h => absurd h hno⟩, fun _ => hsame⟩
    change (s.finishSubmit key text live.historyEpoch status).1.rowsOf key = _ at hrows
    rw [hsame] at hrows
    exact absurd (congrArg List.length hrows) (by simp)

private theorem open_replicate {s : CoreState} {key : String} (messages : List Value) (replayEpoch : Option String)
    (h : (s.epochOf key).isSome) (k : Nat) :
    ((s.run (List.replicate k (.rebuildSession key messages replayEpoch))).epochOf key).isSome := by
  induction k generalizing s with
  | zero => exact h
  | succ k ih =>
    rw [List.replicate_succ, run_cons]
    refine ih ?_
    unfold epochOf at h ⊢
    rw [tab_act]
    simp only [onTab, ↓reduceIte]
    cases hl : (s.tab key).live with
    | none =>
      rw [hl] at h
      cases h
    | some live =>
      change (((s.tab key).act key _).1.live.map _).isSome
      rw [Tab.live_act hl key rfl]
      rfl

/-- After `2 ^ 64` rebuilds the counter is where it was, and the captured epoch fits the rebuilt session. -/
private theorem epochOf_wraps {s : CoreState} {key : String} {epoch : UInt64} (h : s.epochOf key = some epoch)
    (hs : epoch = s.historyEpoch) (messages : List Value) (replayEpoch : Option String) :
    (s.run (List.replicate (2 ^ 64) (.rebuildSession key messages replayEpoch))).epochOf key = some epoch := by
  have hstamp : s.Stamped key 0 := by
    intro e he
    rw [h, Option.some_inj] at he
    rw [← he, hs]
    simp
  obtain ⟨e, he⟩ := Option.isSome_iff_exists.1 (open_replicate messages replayEpoch (by rw [h]; rfl) (2 ^ 64))
  have htag := hstamp.run (List.replicate (2 ^ 64) (.rebuildSession key messages replayEpoch)) e he
  rw [show (2 : Nat) ^ 64 = 18446744073709551615 + 1 from rfl, Action.age_replicate, run_historyEpoch,
    List.countP_replicate] at htag
  rw [he, hs]
  have hzero : UInt64.ofNat (18446744073709551615 + 1) = 0 := by rfl
  simpa [Action.draws, hzero] using htag

end

end CoreState

/-! ### A chat that is reopened, and one that is rebuilt too often -/

section

attribute [local instance] Serializer.compact

private def openChat : Action := .openSession (.created ⟨"live", "chat", ""⟩) none 80

/-- The row is appended to the chat that was captured, and not to the same key after a close and an open. -/
theorem submit_guard_iff_chat :
    (((CoreState.new {}).run [openChat]).finishSubmit "chat" "hi" 1 (some .streaming)).1.rowsOf "chat" =
        [⟨0, .user "hi"⟩] ∧
      ((CoreState.new {}).run [openChat, .closeSession "chat", openChat]).finishSubmit "chat" "hi" 1
        (some .streaming) = ((CoreState.new {}).run [openChat, .closeSession "chat", openChat], []) := by
  have hcaptured : (((CoreState.new {}).run [openChat]).tab "chat").live = some ⟨"live", {}, 0, 1⟩ := rfl
  have hkept := CoreState.submit_guard_iff {} [openChat] [] "chat" "hi" (some .streaming) _ hcaptured (by decide)
  have hreopened := CoreState.submit_guard_iff {} [openChat] [.closeSession "chat", openChat] "chat" "hi"
    (some .streaming) _ hcaptured (by decide)
  exact ⟨hkept.1.2 ⟨.inl rfl, by simp⟩, hreopened.2 fun h => absurd (h.2 _ List.mem_cons_self) (by decide)⟩

/-- The guard alone does not stop a row from reaching a rebuilt transcript: after `2 ^ 64` rebuilds the counter has
gone round, and the row is appended to a session that was rebuilt after the capture. -/
theorem submit_guard_wraps :
    let rebuild : Action := .rebuildSession "chat" [] none
    let s := (CoreState.new {}).run ([openChat] ++ List.replicate (2 ^ 64) rebuild)
    (s.finishSubmit "chat" "hi" 1 (some .streaming)).1.rowsOf "chat" =
        s.rowsOf "chat" ++ [⟨(s.rowsOf "chat").length, .user "hi"⟩] ∧
      rebuild ∈ List.replicate (2 ^ 64) rebuild ∧ rebuild.replaces "chat" = true := by
  intro rebuild s
  have hepoch : s.epochOf "chat" = some 1 := by
    change ((CoreState.new {}).run ([openChat] ++ _)).epochOf "chat" = some 1
    rw [CoreState.run_append]
    exact CoreState.epochOf_wraps rfl rfl [] none
  refine ⟨?_, List.mem_replicate.2 ⟨by decide, rfl⟩, rfl⟩
  rcases CoreState.finishSubmit_cases s "chat" "hi" 1 (some .streaming) with ⟨-, -, hrows⟩ | ⟨hno, -⟩
  · exact hrows
  · exact absurd ⟨.inl rfl, hepoch⟩ hno

end

end Hermo
