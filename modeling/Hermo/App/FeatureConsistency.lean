import Hermo.App.Consistency
import Hermo.App.FeatureOpens

/-!
# Consistent states of the iOS feature

The actions that effects send are reduced in whatever state they find.  `SafeAction` names those that need more: the
three that make the app ready, the two that end a restore, a reset under a ready phase, and the close of the only tab
of a ready app.
-/

namespace Hermo.AppFeature

open Store Run

/-- The keys of a plan are tabs then, where the session map has them. -/
def Settles (s : AppState) (planned resumed : List String) : Prop :=
  ∀ key ∈ planned, key ∈ s.sessions → key ∈ s.tabs.keys ∨ key ∈ resumed

/-- The action may be reduced. -/
def SafeAction (s : AppState) : Action → Prop
  | .mainSessionReady => s.CanBeReady
  | .sessionReady _ _ => s.CanBeReady
  | .sessionsCleared => ¬ s.phase.isReady
  | .tabClosed key => s.phase.isReady → s.tabs.keys ≠ [key]
  | .mainSessionRestored planned resumed _ _ =>
    s.endpointText ≠ "" ∧ (resumed = [] → s.currentKey ≠ none) ∧ Settles s planned resumed
  | .mainSessionRestoreFailed planned => Settles s planned []
  | _ => True

/-- The condition of a step: what an effect sends may be reduced. -/
def Safe (w : System AppState Effect) : Store.Label Action CoreAnswer → Prop
  | .send _ => True
  | .resume i answer =>
    ∀ e a rest, w.effects[i]? = some e → resume e answer = some (some a, rest) → SafeAction w.state a

/-- The actions from outside need nothing. -/
theorem safe_of_sent {a : Action} (h : sent a = true) (s : AppState) : SafeAction s a := by
  cases a <;> trivial

/-! ### Single actions -/

theorem consistent_performSwitchTab {s s' : AppState} (h : s.Consistent) {key : String} {started : List Effect}
    (hswitch : performSwitchTab s key = (s', started)) : s'.Consistent := by
  unfold performSwitchTab at hswitch
  cases htap : tabTap s.tabs s.currentKey key with
  | none =>
    rw [htap] at hswitch
    cases hswitch
    exact h
  | some next =>
    obtain ⟨hmem, rfl⟩ := TabSet.tabTap_eq htap
    simp only [htap] at hswitch
    cases hswitch
    exact h.tap hmem

theorem consistent_sessionOpened {s s' : AppState} (h : s.Consistent) {key : String} {stamp : Sessions → Sessions}
    (hstamp : ∀ sessions, ∀ k ∈ stamp sessions, k ∈ sessions) {started : List Effect}
    (hopened : sessionOpened s key stamp = some (s', started)) : s'.Consistent := by
  obtain ⟨registered, hreg, heq⟩ := Option.map_eq_some_iff.1 hopened
  obtain ⟨mid, hmid, rfl⟩ := Option.map_eq_some_iff.1 hreg
  cases heq
  have hregistered := registered_of_completed hmid
  have hloose := (hregistered.loose h.loose).finishInFlightOpen .ios
  refine AppState.Loose.consistent ⟨hloose.ready, hloose.distinct, ?_⟩ rfl ?_ ?_
  · exact fun k hk => hloose.known k (hstamp _ k hk)
  · change mid.tabs.current = some key
    rw [hregistered.tabs, TabSet.current_add]
  · change key ∈ mid.tabs.keys
    rw [hregistered.tabs]
    exact TabSet.mem_add.2 (.inr rfl)

theorem consistent_tabClosed {s s' : AppState} (h : s.Consistent) {key : String}
    (hlast : s.phase.isReady → s.tabs.keys ≠ [key]) {started : List Effect}
    (hclosed : tabClosed s key = (s', started)) : s'.Consistent := by
  have hclose := h.close hlast
  have hcurrent : (if s.currentKey = some key then (s.tabs.close key).current else s.currentKey) =
      (s.tabs.close key).current := by
    by_cases hkey : s.currentKey = some key
    · rw [if_pos hkey]
    · have hcur : s.tabs.current ≠ some key := fun hcur => hkey (h.current.trans hcur)
      rw [if_neg hkey, TabSet.current_close_of_ne hcur, h.current]
  unfold tabClosed at hclosed
  simp only [hcurrent] at hclosed
  split at hclosed
  · rename_i current hmoved
    obtain ⟨hsome, -⟩ := Option.filter_eq_some_iff.1 hmoved
    rw [hsome] at hclose
    cases hclosed
    exact hclose
  · split at hclosed
    · cases hclosed
      exact hclose.beginOpen
    · cases hclosed
      exact hclose

private theorem restoredCurrent_mem {resumed : List String} {planCurrent : Option String} {shown : String}
    (h : restoredCurrent resumed planCurrent = some shown) : shown ∈ resumed := by
  unfold restoredCurrent at h
  rcases Option.or_eq_some_iff.1 h with hplan | ⟨-, hlast⟩
  · obtain ⟨-, hmem⟩ := Option.filter_eq_some_iff.1 hplan
    exact of_decide_eq_true hmem
  · exact List.mem_of_getLast? hlast

private theorem restoredCurrent_none {resumed : List String} {planCurrent : Option String}
    (h : restoredCurrent resumed planCurrent = none) : resumed = [] :=
  List.getLast?_eq_none_iff.1 (Option.or_eq_none_iff.1 h).2

theorem consistent_mainSessionRestored {s s' : AppState} (h : s.Consistent) {planned resumed : List String}
    {summaries : List SessionSummary} {planCurrent : Option String} (hendpoint : s.endpointText ≠ "")
    (hshown : resumed = [] → s.currentKey ≠ none) (hsettles : Settles s planned resumed)
    (hrestored : mainSessionRestored s planned resumed summaries planCurrent = some s') : s'.Consistent := by
  obtain ⟨mid, hmid, rfl⟩ := Option.map_eq_some_iff.1 hrestored
  have hkeys := restoredKeys_of_foldlM hmid
  have hloose : mid.Loose := by
    refine ⟨?_, hkeys.distinct h.distinct, ?_⟩
    · rw [hkeys.phase, hkeys.endpointText]
      exact fun hr => (h.ready hr).1
    · intro key hkey
      unfold AppState.isOpenOrRestoring
      rw [hkeys.tabs, hkeys.pendingKeys]
      rcases hkeys.sessions key hkey with hold | hnew
      · exact (h.known key hold).imp_left .inl
      · exact .inl (.inr hnew)
  have hleft : ∀ key ∈ planned, key ∈ mid.sessions → key ∈ mid.tabs.keys := by
    intro key hkey hentry
    rw [hkeys.tabs]
    rcases hkeys.sessions key hentry with hold | hnew
    · exact hsettles key hkey hold
    · exact .inr hnew
  have hsettled := hloose.settle planned (applySummaries mid.sessions summaries)
    (fun key hkey => mem_applySummaries.1 hkey) hleft
  dsimp only
  refine AppState.Consistent.finishInFlightOpen ?_ .ios
  cases hcur : restoredCurrent resumed planCurrent with
  | some shown =>
    have hmem : shown ∈ mid.tabs.keys := (hkeys.tabs shown).2 (.inr (restoredCurrent_mem hcur))
    have hconsistent : AppState.Consistent { mid with
        pendingKeys := mid.pendingKeys \ planned.toFinset
        sessions := applySummaries mid.sessions summaries
        tabs := ⟨mid.tabs.keys, some shown⟩
        currentKey := some shown } :=
      AppState.Loose.consistent ⟨hsettled.ready, hsettled.distinct, hsettled.known⟩ rfl rfl hmem
    refine hconsistent.phase fun _ => .inr ⟨?_, Option.some_ne_none shown⟩
    rw [← hkeys.endpointText] at hendpoint
    exact hendpoint
  | none =>
    have hnone := restoredCurrent_none hcur
    subst hnone
    cases hmid
    have hconsistent : AppState.Consistent { s with
        pendingKeys := s.pendingKeys \ planned.toFinset
        sessions := applySummaries s.sessions summaries } :=
      ⟨h.ready, h.current, h.shown, h.distinct, hsettled.known⟩
    exact hconsistent.phase fun _ => .inr ⟨hendpoint, hshown rfl⟩

theorem consistent_mainSessionRestoreFailed {s : AppState} (h : s.Consistent) {planned : List String}
    (hsettles : Settles s planned []) : (mainSessionRestoreFailed s planned).Consistent := by
  have hleft : ∀ key ∈ planned, key ∈ s.sessions → key ∈ s.tabs.keys := fun key hkey hentry =>
    (hsettles key hkey hentry).resolve_right List.not_mem_nil
  have hsettled := h.loose.settle planned s.sessions (fun _ hkey => hkey) hleft
  have hconsistent : AppState.Consistent { s with pendingKeys := s.pendingKeys \ planned.toFinset } :=
    ⟨h.ready, h.current, h.shown, h.distinct, hsettled.known⟩
  exact (hconsistent.closed _).finishInFlightOpen .ios

/-- Nothing is open in a cleared state. -/
theorem consistent_clearSessionState {s : AppState} (hready : ¬ s.phase.isReady) :
    (clearSessionState s).Consistent := by
  refine ⟨fun hr => absurd hr hready, rfl, fun k hk => (nomatch hk), List.nodup_nil, ?_⟩
  exact fun k hk => absurd hk (AList.notMem_empty k)

/-! ### The reducer -/

variable [HeaderReader]

theorem consistent_reduce {s s' : AppState} (h : s.Consistent) {a : Action} (hsafe : SafeAction s a)
    {started : List Effect} (hreduce : reduce s a = some (s', started)) : s'.Consistent := by
  cases a with
  | loginAndConnect password =>
    cases hreduce
    exact h.phase fun hr => nomatch hr
  | core event =>
    cases event with
    | connection status =>
      cases hreduce
      exact h.onConnectionStatus status
    | transcript change =>
      obtain ⟨next, hchange, heq⟩ := Option.map_eq_some_iff.1 hreduce
      cases heq
      exact h.onTranscriptChange hchange
  | resumeStarted endpointText =>
    cases hreduce
    exact ⟨fun hr => (nomatch hr), h.current, h.shown, h.distinct, h.known⟩
  | paired endpointText =>
    cases hreduce
    exact ⟨fun hr => (nomatch hr), h.current, h.shown, h.distinct, h.known⟩
  | connectFailed isAuthShape closedReason =>
    cases hreduce
    unfold connectFailed
    split
    · exact h.phase fun hr => .inl (PhaseMachine.isReady_of_reduce hr)
    · exact h.closed closedReason
  | mainSessionReady =>
    cases hreduce
    exact h.phase fun _ => .inr hsafe
  | mainSessionClosed reason =>
    cases hreduce
    exact h.closed reason
  | resumePlanned keys =>
    cases hreduce
    exact h.pending Finset.subset_union_left _ _
  | mainSessionRestored planned resumed summaries current =>
    obtain ⟨next, hrestored, heq⟩ := Option.map_eq_some_iff.1 hreduce
    cases heq
    exact consistent_mainSessionRestored h hsafe.1 hsafe.2.1 hsafe.2.2 hrestored
  | mainSessionRestoreFailed planned =>
    cases hreduce
    exact consistent_mainSessionRestoreFailed h hsafe
  | forgotGateway =>
    cases hreduce
    have hcleared : (clearSessionState { s with phase := .unpaired }).Consistent :=
      consistent_clearSessionState Bool.false_ne_true
    exact ⟨fun hr => (nomatch hr), hcleared.current, hcleared.shown, hcleared.distinct, hcleared.known⟩
  | sessionsCleared =>
    cases hreduce
    exact consistent_clearSessionState hsafe
  | headerRefreshed key summary =>
    cases hreduce
    exact h.applyHeaderRefresh key summary
  | openNewSession =>
    cases hreduce
    exact h.beginOpen
  | openExistingSession storedId =>
    have hopen := Option.some_inj.1 hreduce
    split at hopen
    · exact consistent_performSwitchTab h hopen
    · cases hopen
      exact h.beginOpen
  | openBotChat profile =>
    have hopen := Option.some_inj.1 hreduce
    split at hopen
    · exact consistent_performSwitchTab h hopen
    · cases hopen
      exact h.beginOpen
  | switchTab key => exact consistent_performSwitchTab h (Option.some_inj.1 hreduce)
  | newSessionOpened key => exact consistent_sessionOpened h (fun _ _ hk => hk) hreduce
  | existingSessionOpened key => exact consistent_sessionOpened h (fun _ _ hk => hk) hreduce
  | botChatOpened key profile =>
    have hopened : sessionOpened s key (withProfile · key profile) = some (s', started) := hreduce
    exact consistent_sessionOpened h (fun _ _ hk => mem_withProfile.1 hk) hopened
  | sessionOpenFailed =>
    cases hreduce
    exact h.finishInFlightOpen .ios
  | sessionReady key summary =>
    cases hreduce
    exact h.afterOpen hsafe fun hp => nomatch hp
  | tabClosed key => exact consistent_tabClosed h hsafe (Option.some_inj.1 hreduce)
  | _ =>
    cases hreduce
    exact h

/-! ### Runs -/

theorem consistent_send {m w' : System AppState Effect} (h : m.state.Consistent) {a : Action}
    (hsafe : SafeAction m.state a) (hsend : feature.send m a = some w') : w'.state.Consistent := by
  obtain ⟨s', started, hreduce, rfl⟩ := Feature.send_eq hsend
  exact consistent_reduce h hsafe hreduce

theorem consistent_step {w w' : System AppState Effect} {l : Store.Label Action CoreAnswer} (h : w.state.Consistent)
    (hok : Safe w l) (hstep : feature.step w l = some w') : w'.state.Consistent := by
  cases l with
  | send a =>
    obtain ⟨hsent, hsend⟩ := Feature.step_send hstep
    exact consistent_send h (safe_of_sent hsent w.state) hsend
  | resume i answer =>
    obtain ⟨e, action, rest, he, hresume, hafter⟩ := Feature.step_resume hstep
    rcases hafter with ⟨rfl, rfl⟩ | ⟨a, rfl, hsend⟩
    · exact h
    · exact consistent_send (m := Feature.after w i rest) h (hok e a rest he hresume) hsend

/-- The state of the feature is consistent after every run whose effects send safe actions. -/
theorem consistent_of_safe {w : System AppState Effect} {labels : List (Store.Label Action CoreAnswer)}
    (hok : Meets feature.step Safe start labels) (hrun : exec feature.step start labels = some w) :
    w.state.Consistent :=
  exec_invariant feature.step (P := fun w => w.state.Consistent) (fun _ _ _ h ha hs => consistent_step h ha hs)
    AppState.consistent_empty hok hrun

end Hermo.AppFeature
