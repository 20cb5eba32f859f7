import Hermo.App.Repository
import Hermo.App.Titlebar

/-!
# The titlebar of the Android app

`Steady` is the condition of a step: a coroutine that puts another session on the screen finds a model in the titlebar
that may stand over it, and one that comes back with a header brings the model of the session on the screen, or the
same one.  `retitled_step` says that a step keeps the titlebar exactly under this condition.
-/

namespace Hermo.Repository

open Tasks Run
open AppState (Belongs Retitled remember)

variable {s : AppState} {known : String → String}

/-! ### The condition -/

/-- The loop over the planned keys ends, and shows one that is open. -/
def SteadyRestore (known : String → String) (s : AppState) (plan : RestorePlan) (resumed : List String) : Prop :=
  ∀ key, restoredCurrent plan resumed = some key →
    key ∈ s.tabs.keys ∨ key ∈ s.pendingKeys \ plan.resumeKeys.toFinset → Belongs known s.phase.model (some key)

/-- The verb may run. -/
def SteadyCall (known : String → String) (s : AppState) : Call → Prop
  | .switchTab key | .openExistingSession key => s.MayTap known key
  | .openBotChat profile =>
    ∀ key, openTabForProfile .android s.sessions s.tabs.keys profile = some key → s.MayTap known key
  | _ => True

/-- The coroutine may go on with the answer. -/
def SteadyAnswer [HeaderReader] (known : String → String) (s : AppState) : Task → CoreAnswer → Prop
  | .restoring plan _ [_] resumed, .opened key =>
    SteadyRestore known (register s key).1 plan (if (register s key).2 then resumed ++ [key] else resumed)
  | .restoring plan _ [_] resumed, .failed _ => SteadyRestore known s plan resumed
  | .minting, .opened key | .opening _, .opened key =>
    (register s key).2 = true → Belongs known s.phase.model (some key)
  | .closing key, .done =>
    ∀ next, (s.tabs.close key).current = some next → next ∈ (s.tabs.close key).keys ∨ next ∈ s.pendingKeys →
      Belongs known s.phase.model (some next)
  | .resetting, .done => Belongs known s.phase.model none
  | .refreshing key .header, .sessions summaries =>
    ∀ summary, summaries.find? (·.key = key) = some summary → s.phase.isReady →
      s.Fits known key (HeaderReader.headerModelOf summary.headerJson)
  | .refreshing key _, .sessions summaries => s.Fits known key (s.brought key (summaries.find? (·.key = key)))
  | _, _ => True

def SteadyInput [HeaderReader] (known : String → String) (s : AppState) : Task → Input → Prop
  | .called call, .run => SteadyCall known s call
  | t, .answer answer => SteadyAnswer known s t answer
  | _, _ => True

/-- The condition of a step, beside the models known so far. -/
def Steady [HeaderReader] (w : System AppState Task × (String → String)) : Tasks.Label Task Input Empty → Prop
  | .task i input => ∀ t, w.1.tasks[i]? = some t → SteadyInput w.2 w.1.shared t input
  | _ => True

/-! ### Registration -/

theorem quiet_register (s : AppState) (key : String) :
    AppState.Quiet s (register s key).1 ∧ (register s key).1.phase = s.phase ∧
      (register s key).1.currentKey = s.currentKey := by
  unfold register
  cases hreg : s.registerKey .android key with
  | ok mid =>
    have hmid := AppState.registered_of_ok hreg
    have hdims := AppState.dims_registerKey hreg
    exact ⟨.of_dims hdims hmid.phase, hmid.phase, hmid.currentKey⟩
  | error left =>
    obtain ⟨queue, rfl⟩ := AppState.eq_of_error hreg
    exact ⟨.of_dims (.refl _) rfl, rfl, rfl⟩

/-- A key that was registered is a tab. -/
theorem mem_register (s : AppState) (key : String) (h : (register s key).2 = true) :
    key ∈ (register s key).1.tabs.keys := by
  unfold register at h ⊢
  cases hreg : s.registerKey .android key with
  | ok mid =>
    have htabs := (AppState.registered_of_ok hreg).tabs
    change key ∈ mid.tabs.keys
    rw [htabs]
    exact TabSet.mem_add.2 (.inr rfl)
  | error left =>
    rw [hreg] at h
    cases h

variable [HeaderReader]

/-! ### The pieces of the coroutines -/

theorem retitled_refreshHeader (hknows : s.Knows known) (htitled : s.Titled known) (key : String)
    (summary : Option SessionSummary) :
    Retitled known (s.refreshHeader key summary) ↔
      ∀ header, summary = some header → s.phase.isReady →
        s.Fits known key (HeaderReader.headerModelOf header.headerJson) := by
  cases summary with
  | none => exact iff_of_true ((AppState.Quiet.refl s).retitled hknows htitled rfl) fun _ h => nomatch h
  | some summary =>
    refine Iff.trans (AppState.retitled_showHeader hknows htitled key summary) ?_
    constructor
    · rintro h _ ⟨⟩
      exact h
    · exact fun h => h summary rfl

theorem retitled_finish (hknows : s.Knows known) (key : String) (summary : Option SessionSummary) {tail : Tail}
    (htail : tail ≠ .header) :
    Retitled known (finish s key summary tail).1 ↔ s.Fits known key (s.brought key summary) := by
  have hafter := AppState.retitled_afterOpen hknows key summary
  cases tail with
  | header => exact absurd rfl htail
  | opened => exact hafter
  | connected => exact hafter
  | closed isEmpty => cases isEmpty <;> exact hafter

/-- A session is put on the screen, and its header asked for while it is open. -/
theorem retitled_refreshThen {s' : AppState} (hquiet : AppState.Quiet s s') (hknows : s.Knows known)
    (hphase : s'.phase = s.phase) {key : String} (hcurrent : s'.currentKey = some key) {tail : Tail}
    (htail : tail ≠ .header) :
    Retitled known (refreshThen s' key tail).1 ↔
      (s'.isOpenOrRestoring key → Belongs known s.phase.model (some key)) := by
  unfold refreshThen
  by_cases hopen : s'.isOpenOrRestoring key
  · rw [if_pos hopen]
    refine (hquiet.retitled_iff hknows hphase).trans ?_
    rw [hcurrent]
    exact ⟨fun h _ => h, fun h => h hopen⟩
  · -- no round trip is spent, and the model is the one of the session
    rw [if_neg hopen]
    exact iff_of_true ((retitled_finish (hquiet.knows hknows) key none htail).2 (.inl hcurrent))
      fun h => absurd h hopen

theorem retitled_switchTab (hknows : s.Knows known) (htitled : s.Titled known) (key : String) :
    Retitled known (switchTab s key).1 ↔ s.MayTap known key := by
  unfold switchTab AppState.MayTap
  cases htap : tabTap s.tabs s.currentKey key with
  | none =>
    have hsame : Retitled known s := (AppState.Quiet.refl s).retitled hknows htitled rfl
    exact iff_of_true hsame (AppState.mayTap_of_none htitled htap)
  | some next =>
    obtain ⟨hmem, rfl⟩ := TabSet.tabTap_eq htap
    have hopen : AppState.isOpenOrRestoring { s with tabs := ⟨s.tabs.keys, some key⟩, currentKey := some key } key :=
      .inl hmem
    have hquiet : AppState.Quiet s { s with tabs := ⟨s.tabs.keys, some key⟩, currentKey := some key } :=
      .of_dims (.refl _) rfl
    refine Iff.trans (retitled_refreshThen hquiet hknows rfl rfl (by simp)) ?_
    exact ⟨fun h _ => h hopen, fun h _ => h hmem⟩

theorem retitled_opened (hknows : s.Knows known) (htitled : s.Titled known) (key profile : String) :
    Retitled known (opened s key profile).1 ↔
      ((register s key).2 = true → Belongs known s.phase.model (some key)) := by
  obtain ⟨hquiet, hphase, hcurrent⟩ := quiet_register s key
  have hmem := mem_register s key
  unfold opened
  generalize register s key = result at hquiet hphase hcurrent hmem
  obtain ⟨mid, isOpen⟩ := result
  cases isOpen with
  | false => exact iff_of_true (hquiet.retitled hknows htitled hcurrent) fun h => nomatch h
  | true =>
    have hshown : AppState.Quiet s { mid with
        sessions := withProfile mid.sessions key profile, currentKey := some key } :=
      ⟨hquiet.models.trans (dims_withProfile _ _ _), hquiet.phase⟩
    refine Iff.trans (retitled_refreshThen hshown hknows hphase rfl (by simp)) ?_
    exact ⟨fun h _ => h (.inl (hmem rfl)), fun h _ => h rfl⟩

theorem retitled_showMain {s' : AppState} (hquiet : AppState.Quiet s s') (hknows : s.Knows known)
    (hphase : s'.phase = s.phase) (key : String) :
    Retitled known (showMain s' key).1 ↔
      (s'.isOpenOrRestoring key → Belongs known s.phase.model (some key)) := by
  have hshown : AppState.Quiet s { s' with tabs := ⟨s'.tabs.keys, some key⟩, currentKey := some key } :=
    ⟨hquiet.models, hquiet.phase⟩
  exact retitled_refreshThen hshown hknows hphase rfl (by simp)

theorem retitled_minted (hknows : s.Knows known) (htitled : s.Titled known) (key : String) :
    Retitled known (minted s key).1 ↔
      ((register s key).2 = true → Belongs known s.phase.model (some key)) := by
  obtain ⟨hquiet, hphase, hcurrent⟩ := quiet_register s key
  have hmem := mem_register s key
  unfold minted
  generalize register s key = result at hquiet hphase hcurrent hmem
  obtain ⟨mid, isOpen⟩ := result
  cases isOpen with
  | false =>
    have hclosed := hquiet.trans (AppState.quiet_closed mid "error: no session could be resumed")
    exact iff_of_true (hclosed.retitled hknows htitled hcurrent) fun h => nomatch h
  | true =>
    refine (retitled_showMain hquiet hknows hphase key).trans ?_
    exact ⟨fun h _ => h (.inl (hmem rfl)), fun h _ => h rfl⟩

/-- The loop over the planned keys has ended. -/
theorem retitled_concludeRestore {s' : AppState} (hquiet : AppState.Quiet s s') (hknows : s.Knows known)
    (htitled : s.Titled known) (hphase : s'.phase = s.phase) (hcurrent : s'.currentKey = s.currentKey)
    (plan : RestorePlan) (summaries : List SessionSummary) (resumed : List String) :
    Retitled known (concludeRestore s' plan summaries resumed).1 ↔ SteadyRestore known s' plan resumed := by
  have hsettled : AppState.Quiet s { s' with
      pendingKeys := s'.pendingKeys \ plan.resumeKeys.toFinset
      sessions := applySummaries s'.sessions summaries } :=
    ⟨hquiet.models.trans (dims_applySummaries _ _), hquiet.phase⟩
  unfold concludeRestore SteadyRestore
  dsimp only
  cases restoredCurrent plan resumed with
  | some key =>
    refine (retitled_showMain hsettled hknows hphase key).trans ?_
    rw [hphase]
    constructor
    · rintro h _ ⟨⟩
      exact h
    · exact fun h => h key rfl
  | none =>
    refine iff_of_true ?_ fun _ h => nomatch h
    dsimp only
    split
    · exact (hsettled.trans (AppState.quiet_closed _ _)).retitled hknows htitled hcurrent
    · have hbegun := hsettled.trans (AppState.quiet_beginOpen _)
      exact hbegun.retitled hknows htitled hcurrent

theorem retitled_closed (hknows : s.Knows known) (htitled : s.Titled known) (key : String) :
    Retitled known (closed s key).1 ↔ SteadyAnswer known s (.closing key) .done := by
  have hquiet : AppState.Quiet s { s with tabs := s.tabs.close key, sessions := s.sessions.erase key } :=
    .of_dims (dims_erase _ _) rfl
  unfold closed SteadyAnswer
  dsimp only
  cases hmoved : (s.tabs.close key).current.filter (some · ≠ s.currentKey) with
  | some current =>
    obtain ⟨hnext, -⟩ := Option.filter_eq_some_iff.1 hmoved
    have hshown : AppState.Quiet s { s with
        tabs := s.tabs.close key, sessions := s.sessions.erase key, currentKey := some current } :=
      ⟨hquiet.models, hquiet.phase⟩
    refine Iff.trans (retitled_refreshThen hshown hknows rfl rfl (by simp)) ?_
    rw [hnext]
    constructor
    · rintro h _ ⟨⟩
      exact h
    · exact fun h => h current rfl
  | none =>
    refine iff_of_true ?_ ?_
    · dsimp only
      split <;> exact AppState.Quiet.retitled ⟨hquiet.models, hquiet.phase⟩ hknows htitled rfl
    · intro next hnext _
      rw [hnext, Option.filter_eq_none_iff] at hmoved
      have hshown : some next = s.currentKey := by simpa using hmoved next rfl
      rw [hshown]
      exact AppState.titled_iff.1 htitled

/-- The loop over the planned keys goes on, or has ended. -/
theorem retitled_restoreNext {s' : AppState} (hquiet : AppState.Quiet s s') (hknows : s.Knows known)
    (htitled : s.Titled known) (hphase : s'.phase = s.phase) (hcurrent : s'.currentKey = s.currentKey)
    (plan : RestorePlan) (summaries : List SessionSummary) (rest resumed : List String) :
    Retitled known (restoreNext s' plan summaries rest resumed).1 ↔ (rest = [] → SteadyRestore known s' plan resumed) := by
  cases rest with
  | nil =>
    refine Iff.trans (retitled_concludeRestore hquiet hknows htitled hphase hcurrent plan summaries resumed) ?_
    exact ⟨fun h _ => h, fun h => h rfl⟩
  | cons next rest =>
    have hbegun := hquiet.trans (AppState.quiet_beginOpen s')
    exact iff_of_true (hbegun.retitled hknows htitled hcurrent) fun h => nomatch h

theorem retitled_restored (hknows : s.Knows known) (htitled : s.Titled known) (plan : RestorePlan)
    (summaries : List SessionSummary) (rest resumed : List String) (key : String) :
    Retitled known (restored s plan summaries rest resumed key).1 ↔
      (rest = [] →
        SteadyRestore known (register s key).1 plan (if (register s key).2 then resumed ++ [key] else resumed)) := by
  obtain ⟨hquiet, hphase, hcurrent⟩ := quiet_register s key
  exact retitled_restoreNext hquiet hknows htitled hphase hcurrent plan summaries rest _

omit [HeaderReader] in
theorem quiet_onConnectFailure (s : AppState) (failure : CoreFailure) :
    AppState.Quiet s (onConnectFailure s failure) ∧ (onConnectFailure s failure).currentKey = s.currentKey := by
  unfold onConnectFailure
  split
  · exact ⟨AppState.quiet_reduce s .authFailed (fun _ h => nomatch h) s.endpointText s.currentKey.isSome, rfl⟩
  · exact ⟨AppState.quiet_closed s _, rfl⟩

theorem retitled_run (hknows : s.Knows known) (htitled : s.Titled known) (call : Call) :
    Retitled known (run s call).1 ↔ SteadyCall known s call := by
  have hsame : Retitled known s := (AppState.Quiet.refl s).retitled hknows htitled rfl
  have hbegun : Retitled known s.beginOpen := (AppState.quiet_beginOpen s).retitled hknows htitled rfl
  unfold run SteadyCall
  cases call with
  | loginAndConnect password =>
    have hconnecting : Retitled known { s with phase := .connecting } :=
      AppState.retitled_of_not_ready Bool.false_ne_true
    exact iff_of_true hconnecting trivial
  | openExistingSession storedId =>
    dsimp only
    by_cases hmem : storedId ∈ s.tabs.keys
    · rw [if_pos hmem]
      exact retitled_switchTab hknows htitled storedId
    · rw [if_neg hmem]
      exact iff_of_true hbegun fun h => absurd h hmem
  | openNewSession => exact iff_of_true hbegun trivial
  | openBotChat profile =>
    dsimp only
    cases openTabForProfile .android s.sessions s.tabs.keys profile with
    | some openKey =>
      refine Iff.trans (retitled_switchTab hknows htitled openKey) ?_
      constructor
      · rintro h _ ⟨⟩
        exact h
      · exact fun h => h openKey rfl
    | none => exact iff_of_true hbegun fun _ h => nomatch h
  | switchTab key => exact retitled_switchTab hknows htitled key
  | setSessionTitle title =>
    dsimp only
    cases s.currentKey <;> exact iff_of_true hsame trivial
  | _ => exact iff_of_true hsame trivial

/-! ### One answer -/

theorem retitled_answered (hknows : s.Knows known) (htitled : s.Titled known) {t : Task} {a : CoreAnswer}
    {r : AppState × Task} (hanswer : Answered s t a r) : Retitled known r.1 ↔ SteadyAnswer known s t a := by
  have hsame : Retitled known s := (AppState.Quiet.refl s).retitled hknows htitled rfl
  have hfailed : ∀ failure, Retitled known (onConnectFailure s failure) := by
    intro failure
    obtain ⟨hquiet, hcurrent⟩ := quiet_onConnectFailure s failure
    exact hquiet.retitled hknows htitled hcurrent
  cases hanswer with
  | unpaired | loggedIn | connected | listed | pairFailed | forgetFailed | resetFailed | closeFailed | titleFailed =>
    exact iff_of_true hsame trivial
  | refreshFailed key tail => cases tail <;> exact iff_of_true hsame trivial
  | resumed | paired | forgot => exact iff_of_true (AppState.retitled_of_not_ready Bool.false_ne_true) trivial
  | loginFailed failure | connectFailed failure | mainFailed _ failure => exact iff_of_true (hfailed failure) trivial
  | listFailed => exact iff_of_true ((AppState.quiet_closed s _).retitled hknows htitled rfl) trivial
  | chosen summaries lastActive plan =>
    have hquiet : AppState.Quiet s { s with pendingKeys := s.pendingKeys ∪ plan.resumeKeys.toFinset } :=
      .of_dims (.refl _) rfl
    refine iff_of_true ((retitled_restoreNext hquiet hknows htitled rfl rfl plan summaries _ []).2 ?_) trivial
    -- nothing was resumed, so nothing is shown
    intro _ key hcur
    unfold restoredCurrent at hcur
    cases hplan : plan.current <;> simp [hplan] at hcur
  | restored plan summaries asked key rest resumed =>
    refine (retitled_restored hknows htitled plan summaries rest resumed key).trans ?_
    cases rest with
    | nil => exact ⟨fun h => h rfl, fun h _ => h⟩
    | cons => exact iff_of_true (fun h => nomatch h) trivial
  | restoreFailed plan summaries asked rest resumed =>
    have hquiet := AppState.quiet_finishInFlightOpen .android s
    refine (retitled_restoreNext hquiet hknows htitled rfl rfl plan summaries rest resumed).trans ?_
    cases rest with
    | nil => exact ⟨fun h => h rfl, fun h _ => h⟩
    | cons => exact iff_of_true (fun h => nomatch h) trivial
  | minted key => exact retitled_minted hknows htitled key
  | mintFailed =>
    have hquiet := (AppState.quiet_finishInFlightOpen .android s).trans
      (AppState.quiet_closed _ "error: no session could be resumed")
    exact iff_of_true (hquiet.retitled hknows htitled rfl) trivial
  | reset =>
    have hquiet : AppState.Quiet s ({ s with tabs := {}, sessions := ∅, currentKey := none } : AppState).beginOpen :=
      .of_dims (dims_empty _) rfl
    exact hquiet.retitled_iff hknows rfl
  | opened profile key => exact retitled_opened hknows htitled key profile
  | openFailed =>
    exact iff_of_true ((AppState.quiet_finishInFlightOpen .android s).retitled hknows htitled rfl) trivial
  | closed key => exact retitled_closed hknows htitled key
  | titled key =>
    refine iff_of_true ?_ trivial
    unfold refreshThen
    split <;> exact hsame
  | refreshed key tail summaries =>
    cases tail with
    | header => exact retitled_refreshHeader hknows htitled key _
    | opened => exact retitled_finish hknows key _ (by simp)
    | connected => exact retitled_finish hknows key _ (by simp)
    | closed isEmpty => exact retitled_finish hknows key _ (by simp)

/-! ### Runs -/

omit [HeaderReader] in
theorem retitled_onEvent {s' : AppState} (hknows : s.Knows known) (htitled : s.Titled known) {event : CoreEvent}
    {launched : List Task} (hevent : onEvent s event = some (s', launched)) : Retitled known s' := by
  cases event with
  | connection status =>
    cases hevent
    exact (AppState.quiet_onConnectionStatus s status).retitled hknows htitled rfl
  | transcript change =>
    obtain ⟨next, hchange, heq⟩ := Option.map_eq_some_iff.1 hevent
    cases heq
    obtain ⟨hquiet, hcurrent⟩ := AppState.quiet_onTranscriptChange hchange
    exact hquiet.retitled hknows htitled hcurrent

theorem retitled_next {s' : AppState} (hknows : s.Knows known) (htitled : s.Titled known) {t t' : Task} {input : Input}
    {launched : List Task} (hnext : next s t input = some (s', t', launched)) :
    Retitled known s' ↔ SteadyInput known s t input := by
  rcases next_cases hnext with ⟨call, rfl, rfl, heq⟩ | ⟨event, after, spawned, rfl, rfl, hevent, heq⟩ |
    ⟨a, r, rfl, hanswer, heq⟩
  · cases heq
    exact retitled_run hknows htitled call
  · cases heq
    exact iff_of_true (retitled_onEvent hknows htitled hevent) trivial
  · cases heq
    have hcondition : SteadyInput known s t (.answer a) ↔ SteadyAnswer known s t a := by
      cases t <;> exact Iff.rfl
    exact (retitled_answered hknows htitled hanswer).trans hcondition.symm

theorem retitled_step {w w' : System AppState Task} {l : Tasks.Label Task Input Empty} (hknows : w.shared.Knows known)
    (htitled : w.shared.Titled known) (hstep : program.step w l = some w') :
    Retitled known w'.shared ↔ Steady (w, known) l := by
  cases l with
  | start t =>
    obtain ⟨-, rfl⟩ := Program.step_start hstep
    exact iff_of_true ((AppState.Quiet.refl w.shared).retitled hknows htitled rfl) trivial
  | task i input =>
    obtain ⟨t, s', t', launched, ht, hnext, rfl⟩ := Program.step_task hstep
    refine (retitled_next hknows htitled hnext).trans ?_
    constructor
    · intro h u hu
      rw [ht, Option.some_inj] at hu
      exact hu ▸ h
    · exact fun h => h t ht
  | env e => exact e.elim

/-- The repository, with the last models known beside it. -/
def titleStep : System AppState Task × (String → String) → Tasks.Label Task Input Empty →
    Option (System AppState Task × (String → String)) :=
  AppState.titleStep program.step System.shared

/-- Nothing is known when the repository is created. -/
def titleStart : System AppState Task × (String → String) := (start, fun _ => "")

/-- The titlebar belongs to the session on the screen in all states of a run exactly when all its steps are steady. -/
theorem titled_run {w : System AppState Task} {labels : List (Tasks.Label Task Input Empty)}
    (hrun : exec program.step start labels = some w) :
    (∀ before t, before <+: labels → exec titleStep titleStart before = some t → t.1.shared.Titled t.2) ↔
      Meets titleStep Steady titleStart labels :=
  AppState.titled_run program.step System.shared (fun _ _ _ _ hknows htitled => retitled_step hknows htitled) rfl hrun

end Hermo.Repository
