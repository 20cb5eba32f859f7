import Hermo.App.FeatureOpens
import Hermo.App.Titlebar

/-!
# The titlebar of the iOS app

The completion of an open reads the session that is on the screen then, so it is always right; what is left to
`Steady` are the actions that put another session on the screen, and the header refreshes of the other tabs.
-/

namespace Hermo.AppFeature

open Store Run
open AppState (Belongs Retitled remember)

variable {s : AppState} {known : String → String}

/-! ### The condition -/

/-- The action may be reduced. -/
def SteadyAction [HeaderReader] (known : String → String) (s : AppState) : Action → Prop
  | .switchTab key | .openExistingSession key => s.MayTap known key
  | .openBotChat profile =>
    ∀ key, openTabForProfile .ios s.sessions s.tabs.keys profile = some key → s.MayTap known key
  | .newSessionOpened key | .existingSessionOpened key | .botChatOpened key _ => Belongs known s.phase.model (some key)
  -- the strip tells which tab is next, and without one the closed key leaves the screen
  | .tabClosed key => Belongs known s.phase.model ((s.tabs.close key).current.or (s.currentKey.filter (· ≠ key)))
  | .sessionsCleared => Belongs known s.phase.model none
  | .headerRefreshed key summary =>
    s.isOpenOrRestoring key → s.phase.isReady → s.Fits known key (HeaderReader.headerModelOf summary.headerJson)
  | _ => True

/-- The condition of a step, beside the models known so far. -/
def Steady [HeaderReader] (w : System AppState Effect × (String → String)) : Store.Label Action CoreAnswer → Prop
  | .send a => SteadyAction w.2 w.1.state a
  | .resume i answer =>
    ∀ e a rest, w.1.effects[i]? = some e → resume e answer = some (some a, rest) → SteadyAction w.2 w.1.state a

/-! ### Single actions -/

theorem retitled_performSwitchTab (hknows : s.Knows known) (htitled : s.Titled known) (key : String) :
    Retitled known (performSwitchTab s key).1 ↔ s.MayTap known key := by
  unfold performSwitchTab AppState.MayTap
  cases htap : tabTap s.tabs s.currentKey key with
  | none =>
    have hsame : Retitled known s := (AppState.Quiet.refl s).retitled hknows htitled rfl
    exact iff_of_true hsame (AppState.mayTap_of_none htitled htap)
  | some next =>
    obtain ⟨hmem, rfl⟩ := TabSet.tabTap_eq htap
    have hquiet : AppState.Quiet s { s with tabs := ⟨s.tabs.keys, some key⟩, currentKey := some key } :=
      .of_dims (.refl _) rfl
    refine Iff.trans (hquiet.retitled_iff hknows rfl) ?_
    exact ⟨fun h _ => h, fun h => h hmem⟩

private theorem ok_of_completed {result : Except AppState AppState} (h : completed result = some s) :
    result = .ok s := by
  cases result with
  | error left => cases h
  | ok state =>
    cases h
    rfl

theorem retitled_sessionOpened {s' : AppState} (hknows : s.Knows known) {key : String} {stamp : Sessions → Sessions}
    (hstamp : ∀ sessions, Dims sessions (stamp sessions)) {started : List Effect}
    (hopened : sessionOpened s key stamp = some (s', started)) :
    Retitled known s' ↔ Belongs known s.phase.model (some key) := by
  obtain ⟨registered, hreg, heq⟩ := Option.map_eq_some_iff.1 hopened
  obtain ⟨mid, hmid, rfl⟩ := Option.map_eq_some_iff.1 hreg
  cases heq
  have hphase := (registered_of_completed hmid).phase
  have hdims : Dims s.sessions mid.sessions := AppState.dims_registerKey (ok_of_completed hmid)
  have hquiet : AppState.Quiet s { mid.finishInFlightOpen .ios with
      sessions := stamp mid.sessions, currentKey := some key } :=
    .of_dims (hdims.trans (hstamp mid.sessions)) hphase
  exact hquiet.retitled_iff hknows hphase

/-- A closed tab leaves the screen to the tab that the strip shows next. -/
theorem tabClosed_eq (s : AppState) (key : String) :
    ∃ inFlightOpens, (tabClosed s key).1 = { s with
      tabs := s.tabs.close key
      sessions := s.sessions.erase key
      currentKey := (s.tabs.close key).current.or (s.currentKey.filter (· ≠ key))
      inFlightOpens := inFlightOpens } := by
  have hkept : (if s.currentKey = some key then none else s.currentKey) = s.currentKey.filter (· ≠ key) := by
    cases hcurrent : s.currentKey with
    | none => rfl
    | some shown =>
      by_cases hkey : shown = key
      · rw [if_pos (congrArg some hkey), Option.filter_some_neg (by simpa using hkey)]
      · rw [if_neg (fun h => hkey (Option.some_inj.1 h)), Option.filter_some_pos (by simpa using hkey)]
  unfold tabClosed
  dsimp only
  cases hnext : (s.tabs.close key).current with
  | none =>
    rw [hkept]
    dsimp only [Option.filter_none, Option.none_or]
    split <;> exact ⟨_, rfl⟩
  | some next =>
    rw [Option.some_or]
    by_cases hsame : (if s.currentKey = some key then some next else s.currentKey) = some next
    · rw [hsame, Option.filter_some_neg (by simp)]
      dsimp only
      split <;> exact ⟨_, rfl⟩
    · rw [Option.filter_some_pos (by simpa using Ne.symm hsame)]
      exact ⟨_, rfl⟩

theorem retitled_tabClosed (hknows : s.Knows known) (key : String) :
    Retitled known (tabClosed s key).1 ↔
      Belongs known s.phase.model ((s.tabs.close key).current.or (s.currentKey.filter (· ≠ key))) := by
  obtain ⟨inFlightOpens, heq⟩ := tabClosed_eq s key
  rw [heq]
  exact AppState.Quiet.retitled_iff (.of_dims (dims_erase s.sessions key) rfl) hknows rfl

theorem retitled_mainSessionRestored {s' : AppState} {planned resumed : List String} {summaries : List SessionSummary}
    {planCurrent : Option String} (hrestored : mainSessionRestored s planned resumed summaries planCurrent = some s') :
    Retitled known s' := by
  obtain ⟨mid, -, rfl⟩ := Option.map_eq_some_iff.1 hrestored
  exact AppState.retitled_of_own rfl

private theorem quiet_connectFailed (s : AppState) (isAuthShape : Bool) (closedReason : String) :
    AppState.Quiet s (connectFailed s isAuthShape closedReason) ∧
      (connectFailed s isAuthShape closedReason).currentKey = s.currentKey := by
  unfold connectFailed
  split
  · exact ⟨AppState.quiet_reduce s .authFailed (fun _ h => nomatch h) s.endpointText s.currentKey.isSome, rfl⟩
  · exact ⟨AppState.quiet_closed s closedReason, rfl⟩

/-! ### The reducer -/

variable [HeaderReader]

theorem retitled_reduce {s' : AppState} (hknows : s.Knows known) (htitled : s.Titled known) {a : Action}
    {started : List Effect} (hreduce : reduce s a = some (s', started)) :
    Retitled known s' ↔ SteadyAction known s a := by
  have hsame : Retitled known s := (AppState.Quiet.refl s).retitled hknows htitled rfl
  have hbegun : Retitled known s.beginOpen := (AppState.quiet_beginOpen s).retitled hknows htitled rfl
  have htapped : ∀ key, performSwitchTab s key = (s', started) → (Retitled known s' ↔ s.MayTap known key) := by
    intro key heq
    have hswitched := retitled_performSwitchTab hknows htitled key
    rwa [heq] at hswitched
  cases a with
  | loginAndConnect password =>
    cases hreduce
    exact iff_of_true (AppState.retitled_of_not_ready Bool.false_ne_true) trivial
  | core event =>
    cases event with
    | connection status =>
      cases hreduce
      exact iff_of_true ((AppState.quiet_onConnectionStatus s status).retitled hknows htitled rfl) trivial
    | transcript change =>
      obtain ⟨next, hchange, heq⟩ := Option.map_eq_some_iff.1 hreduce
      cases heq
      obtain ⟨hquiet, hcurrent⟩ := AppState.quiet_onTranscriptChange hchange
      exact iff_of_true (hquiet.retitled hknows htitled hcurrent) trivial
  | resumeStarted endpointText =>
    cases hreduce
    exact iff_of_true (AppState.retitled_of_not_ready Bool.false_ne_true) trivial
  | paired endpointText =>
    cases hreduce
    exact iff_of_true (AppState.retitled_of_not_ready Bool.false_ne_true) trivial
  | connectFailed isAuthShape closedReason =>
    cases hreduce
    obtain ⟨hquiet, hcurrent⟩ := quiet_connectFailed s isAuthShape closedReason
    exact iff_of_true (hquiet.retitled hknows htitled hcurrent) trivial
  | mainSessionReady =>
    cases hreduce
    exact iff_of_true (AppState.retitled_of_own rfl) trivial
  | mainSessionClosed reason =>
    cases hreduce
    exact iff_of_true ((AppState.quiet_closed s reason).retitled hknows htitled rfl) trivial
  | resumePlanned keys =>
    cases hreduce
    have hquiet : AppState.Quiet s { s.beginOpen with pendingKeys := s.pendingKeys ∪ keys.toFinset } :=
      .of_dims (.refl _) rfl
    exact iff_of_true (hquiet.retitled hknows htitled rfl) trivial
  | mainSessionRestored planned resumed summaries current =>
    obtain ⟨next, hrestored, heq⟩ := Option.map_eq_some_iff.1 hreduce
    cases heq
    exact iff_of_true (retitled_mainSessionRestored hrestored) trivial
  | mainSessionRestoreFailed planned =>
    cases hreduce
    have hclosed : AppState.Quiet s (mainSessionRestoreFailed s planned) :=
      ⟨.refl _, (AppState.quiet_closed s "error: no session could be resumed").phase⟩
    exact iff_of_true (hclosed.retitled hknows htitled rfl) trivial
  | forgotGateway =>
    cases hreduce
    exact iff_of_true (AppState.retitled_of_not_ready Bool.false_ne_true) trivial
  | sessionsCleared =>
    cases hreduce
    have hquiet : AppState.Quiet s (clearSessionState s) := .of_dims (dims_empty _) rfl
    exact hquiet.retitled_iff hknows rfl
  | headerRefreshed key summary =>
    cases hreduce
    unfold AppState.applyHeaderRefresh
    by_cases hopen : s.isOpenOrRestoring key
    · rw [if_neg (not_not.2 hopen)]
      refine Iff.trans (AppState.retitled_showHeader hknows htitled key summary) ?_
      exact ⟨fun h _ => h, fun h => h hopen⟩
    · rw [if_pos hopen]
      exact iff_of_true hsame fun h => absurd h hopen
  | openNewSession =>
    cases hreduce
    exact iff_of_true hbegun trivial
  | openExistingSession storedId =>
    have heq := Option.some_inj.1 hreduce
    by_cases hmem : storedId ∈ s.tabs.keys
    · rw [if_pos hmem] at heq
      exact htapped storedId heq
    · rw [if_neg hmem] at heq
      cases heq
      exact iff_of_true hbegun fun h => absurd h hmem
  | openBotChat profile =>
    have heq := Option.some_inj.1 hreduce
    unfold SteadyAction
    dsimp only
    cases hkey : openTabForProfile .ios s.sessions s.tabs.keys profile with
    | some openKey =>
      rw [hkey] at heq
      refine (htapped openKey heq).trans ?_
      constructor
      · rintro h _ ⟨⟩
        exact h
      · exact fun h => h openKey rfl
    | none =>
      rw [hkey] at heq
      cases heq
      exact iff_of_true hbegun fun _ h => nomatch h
  | switchTab key => exact htapped key (Option.some_inj.1 hreduce)
  | newSessionOpened key => exact retitled_sessionOpened hknows (fun _ => .refl _) hreduce
  | existingSessionOpened key => exact retitled_sessionOpened hknows (fun _ => .refl _) hreduce
  | botChatOpened key profile =>
    have hopened : sessionOpened s key (withProfile · key profile) = some (s', started) := hreduce
    exact retitled_sessionOpened hknows (fun sessions => dims_withProfile sessions key profile) hopened
  | sessionOpenFailed =>
    cases hreduce
    exact iff_of_true ((AppState.quiet_finishInFlightOpen .ios s).retitled hknows htitled rfl) trivial
  | sessionReady key summary =>
    cases hreduce
    refine iff_of_true (AppState.retitled_of_own ?_) trivial
    cases summary with
    | none => rfl
    | some summary =>
      unfold AppState.afterOpen
      dsimp only
      split <;> rfl
  | tabClosed key =>
    have heq := Option.some_inj.1 hreduce
    have hclosed := retitled_tabClosed hknows key
    rwa [heq] at hclosed
  | _ =>
    cases hreduce
    exact iff_of_true hsame trivial

/-! ### Runs -/

theorem retitled_step {w w' : System AppState Effect} {l : Store.Label Action CoreAnswer} (hknows : w.state.Knows known)
    (htitled : w.state.Titled known) (hstep : feature.step w l = some w') :
    Retitled known w'.state ↔ Steady (w, known) l := by
  cases l with
  | send a =>
    obtain ⟨-, hsend⟩ := Feature.step_send hstep
    obtain ⟨s', started, hreduce, rfl⟩ := Feature.send_eq hsend
    exact retitled_reduce hknows htitled hreduce
  | resume i answer =>
    obtain ⟨e, action, rest, he, hresume, hafter⟩ := Feature.step_resume hstep
    rcases hafter with ⟨rfl, rfl⟩ | ⟨a, rfl, hsend⟩
    · refine iff_of_true ((AppState.Quiet.refl w.state).retitled hknows htitled rfl) ?_
      intro e' a rest' he' hresume'
      rw [he, Option.some_inj] at he'
      subst he'
      cases hresume'.symm.trans hresume
    · obtain ⟨s', started, hreduce, rfl⟩ := Feature.send_eq hsend
      refine (retitled_reduce hknows htitled hreduce).trans ?_
      constructor
      · intro h e' a' rest' he' hresume'
        rw [he, Option.some_inj] at he'
        subst he'
        cases hresume'.symm.trans hresume
        exact h
      · exact fun h => h e a rest he hresume

/-- The feature, with the last models known beside it. -/
def titleStep : System AppState Effect × (String → String) → Store.Label Action CoreAnswer →
    Option (System AppState Effect × (String → String)) :=
  AppState.titleStep feature.step System.state

/-- Nothing is known when the app is launched. -/
def titleStart : System AppState Effect × (String → String) := (start, fun _ => "")

/-- The titlebar belongs to the session on the screen in all states of a run exactly when all its steps are steady. -/
theorem titled_run {w : System AppState Effect} {labels : List (Store.Label Action CoreAnswer)}
    (hrun : exec feature.step start labels = some w) :
    (∀ before t, before <+: labels → exec titleStep titleStart before = some t → t.1.state.Titled t.2) ↔
      Meets titleStep Steady titleStart labels :=
  AppState.titled_run feature.step System.state (fun _ _ _ _ hknows htitled => retitled_step hknows htitled) rfl hrun

end Hermo.AppFeature
