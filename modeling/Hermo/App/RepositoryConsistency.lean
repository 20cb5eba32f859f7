import Hermo.App.Consistency
import Hermo.App.Repository

/-!
# Consistent states of the Android app

A coroutine that goes on after a call of the core does not look at what happened meanwhile.  `SafeAnswer` names the
four places where that shows: a header refresh whose tab is gone, a reset under a ready phase, the close of the only
tab, and the loop that restores the tabs, which adds them before one of them goes on the screen.
-/

namespace Hermo.Repository

open Tasks Run

/-- The loop over the planned keys goes on with these tabs, or ends with them. -/
def SafeRestore (s : AppState) (plan : RestorePlan) (rest resumed : List String) (tabs : TabSet) : Prop :=
  match rest with
  | [] =>
    (∀ key ∈ plan.resumeKeys, key ∈ s.sessions → key ∈ tabs.keys) ∧
      ∀ shown, restoredCurrent plan resumed = some shown → shown ∈ tabs.keys
  | _ :: _ => tabs.current = s.currentKey

/-- What was parked for the key can be applied. -/
def Drains (s : AppState) (key : String) : Prop := ∀ change ∈ s.parkedChanges, change.key = key → change.FitsInt

/-- The coroutine may go on with the answer. -/
def SafeAnswer (s : AppState) : Task → CoreAnswer → Prop
  | .restoring plan _ (_ :: rest) resumed, .opened key =>
    (Drains s key → SafeRestore s plan rest (resumed ++ [key]) (s.tabs.add key)) ∧
      (¬ Drains s key → SafeRestore s plan rest resumed s.tabs)
  | .restoring plan _ (_ :: rest) resumed, .failed _ => SafeRestore s plan rest resumed s.tabs
  | .resetting, .done => ¬ s.phase.isReady
  | .closing key, .done => s.tabs.keys = [key] → s.currentKey ≠ some key
  | .refreshing key tail, .sessions summaries =>
    ((summaries.find? (·.key = key)).isSome → s.isOpenOrRestoring key) ∧ (tail ≠ .header → s.CanBeReady)
  | _, _ => True

/-- The condition of a step. -/
def Safe (w : System AppState Task) : Tasks.Label Task Input Empty → Prop
  | .task i (.answer answer) => ∀ t, w.tasks[i]? = some t → SafeAnswer w.shared t answer
  | _ => True

/-! ### Registration -/

theorem register_eq (s : AppState) (key : String) :
    (Drains s key ∧ ∃ mid, AppState.Registered s key mid ∧ register s key = (mid.finishInFlightOpen .android, true)) ∨
      (¬ Drains s key ∧ ∃ queue, register s key =
        (AppState.finishInFlightOpen .android
          { s with pendingKeys := insert key s.pendingKeys, parkedChanges := queue }, false)) := by
  unfold register
  cases hreg : s.registerKey .android key with
  | ok mid => exact .inl ⟨AppState.fits_of_registerKey hreg, mid, AppState.registered_of_ok hreg, rfl⟩
  | error left =>
    obtain ⟨queue, rfl⟩ := AppState.eq_of_error hreg
    refine .inr ⟨?_, queue, rfl⟩
    intro hdrains
    obtain ⟨mid, hok⟩ := AppState.registerKey_isOk (p := .android) hdrains
    rw [hreg] at hok
    cases hok

private theorem consistent_unregistered {s : AppState} (h : s.Consistent) (key : String)
    (queue : List TranscriptChangeDto) :
    (AppState.finishInFlightOpen .android
      { s with pendingKeys := insert key s.pendingKeys, parkedChanges := queue }).Consistent :=
  (h.pending (Finset.subset_insert key _) queue s.inFlightOpens).finishInFlightOpen .android

private theorem loose_registered {s mid : AppState} {key : String} (h : s.Loose) (hmid : AppState.Registered s key mid) :
    (mid.finishInFlightOpen .android).Loose := (hmid.loose h).finishInFlightOpen .android

private theorem mem_registered {s mid : AppState} {key : String} (hmid : AppState.Registered s key mid) :
    key ∈ (mid.finishInFlightOpen .android).tabs.keys := by
  change key ∈ mid.tabs.keys
  rw [hmid.tabs]
  exact TabSet.mem_add.2 (.inr rfl)

/-! ### Pieces of the coroutines -/

variable [HeaderReader]

/-- The refresh of a tab waits for the core. -/
theorem consistent_refreshThen {s : AppState} (h : s.Consistent) {key : String} (hmem : key ∈ s.tabs.keys)
    (tail : Tail) : (refreshThen s key tail).1.Consistent := by
  have hopen : s.isOpenOrRestoring key := .inl hmem
  unfold refreshThen
  rw [if_pos hopen]
  exact h

theorem consistent_switchTab {s : AppState} (h : s.Consistent) (key : String) : (switchTab s key).1.Consistent := by
  unfold switchTab
  cases htap : tabTap s.tabs s.currentKey key with
  | none => exact h
  | some next =>
    obtain ⟨hmem, rfl⟩ := TabSet.tabTap_eq htap
    exact consistent_refreshThen (h.tap hmem) hmem .opened

theorem consistent_showMain {s : AppState} (h : s.Loose) {key : String} (hmem : key ∈ s.tabs.keys) :
    (showMain s key).1.Consistent := by
  have hshown : AppState.Consistent { s with tabs := ⟨s.tabs.keys, some key⟩, currentKey := some key } :=
    AppState.Loose.consistent ⟨h.ready, h.distinct, h.known⟩ rfl rfl hmem
  exact consistent_refreshThen hshown hmem .connected

theorem consistent_opened {s : AppState} (h : s.Consistent) (key profile : String) :
    (opened s key profile).1.Consistent := by
  unfold opened
  rcases register_eq s key with ⟨-, mid, hmid, heq⟩ | ⟨-, queue, heq⟩
  · have hloose := loose_registered h.loose hmid
    have hmem := mem_registered hmid
    have hshown : AppState.Consistent { mid.finishInFlightOpen .android with
        sessions := withProfile mid.sessions key profile, currentKey := some key } := by
      refine AppState.Loose.consistent ⟨hloose.ready, hloose.distinct, ?_⟩ rfl ?_ hmem
      · exact fun k hk => hloose.known k (mem_withProfile.1 hk)
      · change mid.tabs.current = some key
        rw [hmid.tabs, TabSet.current_add]
    rw [heq]
    exact consistent_refreshThen hshown hmem .opened
  · rw [heq]
    exact consistent_unregistered h key queue

theorem consistent_minted {s : AppState} (h : s.Consistent) (key : String) : (minted s key).1.Consistent := by
  unfold minted
  rcases register_eq s key with ⟨-, mid, hmid, heq⟩ | ⟨-, queue, heq⟩
  · rw [heq]
    exact consistent_showMain (loose_registered h.loose hmid) (mem_registered hmid)
  · rw [heq]
    exact (consistent_unregistered h key queue).closed _

/-- The loop has ended: the planned keys with an entry are tabs, and so is the one that is shown. -/
theorem consistent_concludeRestore {s : AppState} (h : s.Loose) (plan : RestorePlan) (summaries : List SessionSummary)
    (resumed : List String) (hleft : ∀ key ∈ plan.resumeKeys, key ∈ s.sessions → key ∈ s.tabs.keys)
    (hshown : ∀ shown, restoredCurrent plan resumed = some shown → shown ∈ s.tabs.keys)
    (hnone : restoredCurrent plan resumed = none → s.Consistent) :
    (concludeRestore s plan summaries resumed).1.Consistent := by
  have hsettled := h.settle plan.resumeKeys (applySummaries s.sessions summaries)
    (fun key hkey => mem_applySummaries.1 hkey) hleft
  unfold concludeRestore
  dsimp only
  cases hcur : restoredCurrent plan resumed with
  | some key => exact consistent_showMain hsettled (hshown key hcur)
  | none =>
    have hsame := hnone hcur
    have hconsistent : AppState.Consistent { s with
        pendingKeys := s.pendingKeys \ plan.resumeKeys.toFinset
        sessions := applySummaries s.sessions summaries } :=
      ⟨hsame.ready, hsame.current, hsame.shown, hsame.distinct, hsettled.known⟩
    dsimp only
    split
    · exact hconsistent.closed _
    · exact hconsistent.beginOpen

/-- No tab was added. -/
theorem consistent_restoreNext {s : AppState} (h : s.Consistent) {plan : RestorePlan} {rest resumed : List String}
    (hsafe : SafeRestore s plan rest resumed s.tabs) (summaries : List SessionSummary) :
    (restoreNext s plan summaries rest resumed).1.Consistent := by
  cases rest with
  | nil => exact consistent_concludeRestore h.loose plan summaries resumed hsafe.1 hsafe.2 fun _ => h
  | cons next rest => exact h.beginOpen

theorem consistent_restored {s : AppState} (h : s.Consistent) {plan : RestorePlan} {rest resumed : List String}
    {key : String} (hadded : Drains s key → SafeRestore s plan rest (resumed ++ [key]) (s.tabs.add key))
    (hsame : ¬ Drains s key → SafeRestore s plan rest resumed s.tabs) (summaries : List SessionSummary) :
    (restored s plan summaries rest resumed key).1.Consistent := by
  unfold restored
  rcases register_eq s key with ⟨hdrains, mid, hmid, heq⟩ | ⟨hstuck, queue, heq⟩
  · have hsafe := hadded hdrains
    have hloose := loose_registered h.loose hmid
    rw [heq]
    dsimp only
    rw [if_pos rfl]
    cases rest with
    | nil =>
      obtain ⟨hleft, hshown⟩ := hsafe
      refine consistent_concludeRestore hloose plan summaries _ ?_ ?_ ?_
      · intro k hk hentry
        change k ∈ mid.tabs.keys
        rw [hmid.tabs]
        rcases hmid.sessions k hentry with hold | rfl
        · exact hleft k hk hold
        · exact TabSet.mem_add.2 (.inr rfl)
      · intro shown hcur
        change shown ∈ mid.tabs.keys
        rw [hmid.tabs]
        exact hshown shown hcur
      · intro hnone
        unfold restoredCurrent at hnone
        rw [List.getLast?_concat, Option.or_eq_none_iff] at hnone
        cases hnone.2
    | cons next rest =>
      have hcur : s.currentKey = some key := hsafe.symm.trans (TabSet.current_add _ key)
      have hconsistent : (mid.finishInFlightOpen .android).Consistent := by
        refine hloose.consistent (hmid.currentKey.trans hcur) ?_ (mem_registered hmid)
        change mid.tabs.current = some key
        rw [hmid.tabs, TabSet.current_add]
      exact hconsistent.beginOpen
  · have hsafe := hsame hstuck
    rw [heq]
    dsimp only
    rw [if_neg (by decide)]
    exact consistent_restoreNext (consistent_unregistered h key queue) hsafe summaries

theorem consistent_closed {s : AppState} (h : s.Consistent) {key : String}
    (hlast : s.tabs.keys = [key] → s.currentKey ≠ some key) : (closed s key).1.Consistent := by
  have hready : s.phase.isReady → s.tabs.keys ≠ [key] := by
    intro hr hkeys
    obtain ⟨shown, hshown⟩ := Option.ne_none_iff_exists'.1 (h.ready hr).2
    have hmem := h.shown shown hshown
    rw [hkeys, List.mem_singleton] at hmem
    exact hlast hkeys (hmem ▸ hshown)
  have hclosed := h.close hready
  unfold closed
  dsimp only
  cases hmoved : (s.tabs.close key).current.filter (some · ≠ s.currentKey) with
  | some current =>
    obtain ⟨hcur, -⟩ := Option.filter_eq_some_iff.1 hmoved
    rw [hcur] at hclosed
    exact consistent_refreshThen hclosed (hclosed.shown current rfl) _
  | none =>
    -- the strip shows what the screen shows, unless it was closed with the only tab
    have hsame : (s.tabs.close key).current = s.currentKey := by
      by_cases hcur : s.tabs.current = some key
      · have hshown : s.currentKey = some key := h.current.trans hcur
        have hmem := h.shown key hshown
        have hvalid : s.tabs.Valid := ⟨h.distinct, fun k hk => h.shown k (h.current.trans hk)⟩
        cases hnext : (s.tabs.close key).current with
        | some current =>
          have hin := (hvalid.close key).shown current hnext
          have hne := ((TabSet.mem_close h.distinct).1 hin).1
          rw [hnext, hshown, Option.filter_some_pos (by simpa using hne)] at hmoved
          cases hmoved
        | none =>
          have hempty := (TabSet.current_close_self hmem hcur).2.1 hnext
          rw [TabSet.keys_close] at hempty
          have hsplit := List.cons_perm_iff_perm_erase.2 ⟨hmem, List.Perm.refl _⟩
          rw [hempty] at hsplit
          exact absurd hshown (hlast (List.singleton_perm.1 hsplit).symm)
      · rw [TabSet.current_close_of_ne hcur, h.current]
    rw [hsame] at hclosed
    dsimp only
    split
    · exact hclosed.beginOpen
    · exact hclosed

omit [HeaderReader] in
theorem consistent_forgot (s : AppState) : (forgot s).Consistent := by
  refine ⟨fun hr => (nomatch hr), rfl, fun k hk => (nomatch hk), List.nodup_nil, ?_⟩
  exact fun k hk => absurd hk (AList.notMem_empty k)

omit [HeaderReader] in
/-- Nothing is open after a reset. -/
theorem consistent_reset {s : AppState} (hready : ¬ s.phase.isReady) :
    AppState.Consistent { s with tabs := {}, sessions := ∅, currentKey := none } := by
  refine ⟨fun hr => absurd hr hready, rfl, fun k hk => (nomatch hk), List.nodup_nil, ?_⟩
  exact fun k hk => absurd hk (AList.notMem_empty k)

omit [HeaderReader] in
theorem consistent_onConnectFailure {s : AppState} (h : s.Consistent) (failure : CoreFailure) :
    (onConnectFailure s failure).Consistent := by
  unfold onConnectFailure
  split
  · exact h.phase fun hr => .inl (PhaseMachine.isReady_of_reduce hr)
  · exact h.closed _

theorem consistent_run {s : AppState} (h : s.Consistent) (call : Call) : (run s call).1.Consistent := by
  unfold run
  cases call with
  | loginAndConnect password => exact h.phase fun hr => nomatch hr
  | openExistingSession storedId =>
    dsimp only
    split
    · exact consistent_switchTab h storedId
    · exact h.beginOpen
  | openNewSession => exact h.beginOpen
  | openBotChat profile =>
    dsimp only
    cases openTabForProfile .android s.sessions s.tabs.keys profile with
    | some openKey => exact consistent_switchTab h openKey
    | none => exact h.beginOpen
  | switchTab key => exact consistent_switchTab h key
  | setSessionTitle title =>
    dsimp only
    cases s.currentKey <;> exact h
  | _ => exact h

theorem consistent_finish {s : AppState} (h : s.Consistent) {key : String} {summary : Option SessionSummary}
    {tail : Tail} (hopen : summary.isSome → s.isOpenOrRestoring key) (hcan : tail ≠ .header → s.CanBeReady) :
    (finish s key summary tail).1.Consistent := by
  unfold finish
  cases tail with
  | header => exact h.refreshHeader hopen
  | opened => exact h.afterOpen (p := .android) (hcan (by simp)) fun _ => hopen
  | connected => exact h.afterOpen (p := .android) (hcan (by simp)) fun _ => hopen
  | closed isEmpty =>
    have hafter := h.afterOpen (p := .android) (hcan (by simp)) fun _ => hopen
    cases isEmpty with
    | false => exact hafter
    | true => exact hafter.beginOpen

/-! ### One answer -/

theorem consistent_answered {s : AppState} (h : s.Consistent) {t : Task} {a : CoreAnswer} {r : AppState × Task}
    (hsafe : SafeAnswer s t a) (hanswer : Answered s t a r) : r.1.Consistent := by
  cases hanswer with
  | unpaired | loggedIn | connected | listed | pairFailed | forgetFailed | resetFailed | closeFailed | titleFailed
  | refreshFailed => exact h
  | resumed endpoint | paired endpoint => exact (h.endpoint endpoint).phase fun hr => nomatch hr
  | loginFailed failure | connectFailed failure | mainFailed _ failure => exact consistent_onConnectFailure h failure
  | listFailed => exact h.closed _
  | chosen summaries lastActive plan =>
    have hsub : s.pendingKeys ⊆ s.pendingKeys ∪ plan.resumeKeys.toFinset := Finset.subset_union_left
    have hpending := h.pending hsub s.parkedChanges s.inFlightOpens
    refine consistent_restoreNext hpending ?_ summaries
    cases hkeys : plan.resumeKeys with
    | nil =>
      refine ⟨by simp [hkeys], ?_⟩
      intro shown hcur
      cases hplan : plan.current <;> simp [restoredCurrent, hplan] at hcur
    | cons key rest => exact h.current.symm
  | restored plan summaries => exact consistent_restored h hsafe.1 hsafe.2 summaries
  | restoreFailed plan summaries => exact consistent_restoreNext (h.finishInFlightOpen .android) hsafe summaries
  | minted key => exact consistent_minted h key
  | mintFailed => exact (h.finishInFlightOpen .android).closed _
  | forgot => exact consistent_forgot s
  | reset => exact (consistent_reset hsafe).beginOpen
  | opened profile key => exact consistent_opened h key profile
  | openFailed => exact h.finishInFlightOpen .android
  | closed key => exact consistent_closed h hsafe
  | titled key =>
    unfold refreshThen
    split
    · exact h
    · have hfinished : (finish s key none .header).1.Consistent := consistent_finish h (by simp) (by simp)
      exact hfinished
  | refreshed key tail summaries => exact consistent_finish h hsafe.1 hsafe.2

/-! ### Runs -/

omit [HeaderReader] in
theorem consistent_onEvent {s s' : AppState} (h : s.Consistent) {event : CoreEvent} {launched : List Task}
    (hevent : onEvent s event = some (s', launched)) : s'.Consistent := by
  cases event with
  | connection status =>
    cases hevent
    exact h.onConnectionStatus status
  | transcript change =>
    obtain ⟨next, hchange, heq⟩ := Option.map_eq_some_iff.1 hevent
    cases heq
    exact h.onTranscriptChange hchange

theorem consistent_next {s s' : AppState} (h : s.Consistent) {t t' : Task} {input : Input} {launched : List Task}
    (hsafe : ∀ a, input = .answer a → SafeAnswer s t a) (hnext : next s t input = some (s', t', launched)) :
    s'.Consistent := by
  rcases next_cases hnext with ⟨call, rfl, rfl, heq⟩ | ⟨event, after, spawned, rfl, rfl, hevent, heq⟩ |
    ⟨a, r, rfl, hanswer, heq⟩
  · cases heq
    exact consistent_run h call
  · cases heq
    exact consistent_onEvent h hevent
  · cases heq
    exact consistent_answered h (hsafe a rfl) hanswer

theorem consistent_step {w w' : System AppState Task} {l : Tasks.Label Task Input Empty} (h : w.shared.Consistent)
    (hok : Safe w l) (hstep : program.step w l = some w') : w'.shared.Consistent := by
  cases l with
  | start t =>
    obtain ⟨-, rfl⟩ := Program.step_start hstep
    exact h
  | task i input =>
    obtain ⟨t, s', t', launched, ht, hnext, rfl⟩ := Program.step_task hstep
    refine consistent_next h ?_ hnext
    rintro a rfl
    exact hok t ht
  | env e => exact e.elim

/-- The state of the repository is consistent after every run whose answers are safe. -/
theorem consistent_of_safe {w : System AppState Task} {labels : List (Tasks.Label Task Input Empty)}
    (hok : Meets program.step Safe start labels) (hrun : exec program.step start labels = some w) :
    w.shared.Consistent :=
  exec_invariant program.step (P := fun w => w.shared.Consistent) (fun _ _ _ h ha hs => consistent_step h ha hs)
    AppState.consistent_empty hok hrun

end Hermo.Repository
