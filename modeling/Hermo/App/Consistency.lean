import Hermo.App.Registration

/-!
# Consistent states of the app

`Consistent` relates the phase, the tabs, the session on the screen and the session map.  `Loose` leaves out which tab
is on the screen; it is what holds between the registration of a session and the moment it is shown.
-/

namespace Hermo

open OrderedMap

namespace AppState

structure Consistent (s : AppState) : Prop where
  ready : s.phase.isReady → s.endpointText ≠ "" ∧ s.currentKey ≠ none
  current : s.currentKey = s.tabs.current
  shown : ∀ key, s.currentKey = some key → key ∈ s.tabs.keys
  distinct : s.tabs.keys.Nodup
  known : ∀ key ∈ s.sessions, s.isOpenOrRestoring key

structure Loose (s : AppState) : Prop where
  ready : s.phase.isReady → s.endpointText ≠ ""
  distinct : s.tabs.keys.Nodup
  known : ∀ key ∈ s.sessions, s.isOpenOrRestoring key

/-- The app may say that it is ready. -/
def CanBeReady (s : AppState) : Prop := s.endpointText ≠ "" ∧ s.currentKey ≠ none

theorem consistent_empty : Consistent {} := by
  refine ⟨by simp [AppPhase.isReady], rfl, by simp, List.nodup_nil, ?_⟩
  intro key hkey
  exact absurd hkey (AList.notMem_empty key)

theorem Consistent.loose {s : AppState} (h : s.Consistent) : s.Loose := ⟨fun hr => (h.ready hr).1, h.distinct, h.known⟩

/-- The tab that is shown is on the strip. -/
theorem Loose.consistent {s : AppState} (h : s.Loose) {key : String} (hkey : s.currentKey = some key)
    (hcurrent : s.tabs.current = some key) (hmem : key ∈ s.tabs.keys) : s.Consistent := by
  refine ⟨?_, hkey.trans hcurrent.symm, ?_, h.distinct, h.known⟩
  · intro hr
    rw [hkey]
    exact ⟨h.ready hr, by simp⟩
  · intro k hk
    rw [hkey, Option.some_inj] at hk
    exact hk ▸ hmem

/-! ### Single writes -/

theorem Consistent.phase {s : AppState} (h : s.Consistent) {phase : AppPhase}
    (hphase : phase.isReady → s.phase.isReady ∨ s.CanBeReady) : Consistent { s with phase := phase } := by
  refine ⟨?_, h.current, h.shown, h.distinct, h.known⟩
  intro hr
  rcases hphase hr with hold | hnew
  · exact h.ready hold
  · exact hnew

theorem Consistent.endpoint {s : AppState} (h : s.Consistent) (endpoint : EndpointDto) :
    Consistent { s with endpointText := endpoint.displayText } :=
  ⟨fun hr => ⟨endpoint.displayText_ne, (h.ready hr).2⟩, h.current, h.shown, h.distinct, h.known⟩

theorem Consistent.sessions {s : AppState} (h : s.Consistent) {sessions : Sessions}
    (hknown : ∀ key ∈ sessions, s.isOpenOrRestoring key) : Consistent { s with sessions := sessions } :=
  ⟨h.ready, h.current, h.shown, h.distinct, hknown⟩

/-- More pending keys, and any bookkeeping besides. -/
theorem Consistent.pending {s : AppState} (h : s.Consistent) {pendingKeys : Finset String}
    (hsub : s.pendingKeys ⊆ pendingKeys) (parkedChanges : List TranscriptChangeDto) (inFlightOpens : Int) :
    Consistent { s with pendingKeys := pendingKeys, parkedChanges := parkedChanges, inFlightOpens := inFlightOpens } :=
  ⟨h.ready, h.current, h.shown, h.distinct, fun key hkey => (h.known key hkey).imp_right fun hp => hsub hp⟩

theorem Consistent.beginOpen {s : AppState} (h : s.Consistent) : s.beginOpen.Consistent :=
  h.pending (Finset.Subset.refl _) _ _

theorem Consistent.finishInFlightOpen {s : AppState} (h : s.Consistent) (p : Platform) :
    (s.finishInFlightOpen p).Consistent := h.pending (Finset.Subset.refl _) _ _

theorem Loose.finishInFlightOpen {s : AppState} (h : s.Loose) (p : Platform) : (s.finishInFlightOpen p).Loose :=
  ⟨h.ready, h.distinct, h.known⟩

theorem Consistent.closed {s : AppState} (h : s.Consistent) (reason : String) : (s.closed reason).Consistent :=
  h.phase fun hr => .inl (PhaseMachine.isReady_of_reduce hr)

theorem Consistent.onConnectionStatus {s : AppState} (h : s.Consistent) (status : Lifecycle.ConnectionStatus) :
    (s.onConnectionStatus status).Consistent := by
  refine h.phase fun hr => .inl ?_
  cases status <;> exact PhaseMachine.isReady_of_reduce hr

theorem Consistent.onTranscriptChange {p : Platform} {s s' : AppState} (h : s.Consistent)
    {change : TranscriptChangeDto} (hchange : s.onTranscriptChange p change = some s') : s'.Consistent := by
  rcases onTranscriptChange_eq hchange with ⟨-, rfl⟩ | ⟨hopen, sessions, rfl, hmem⟩
  · by_cases hpos : s.inFlightOpens > 0
    · rw [if_pos hpos]
      obtain ⟨parked, hpark⟩ := s.park_eq change
      rw [hpark]
      exact h.pending (Finset.Subset.refl _) parked _
    · rw [if_neg hpos]
      exact h
  · refine h.sessions fun key hkey => ?_
    rcases hmem key hkey with hold | rfl
    · exact h.known key hold
    · exact hopen

/-- Keys that leave the pending ones are tabs, where they have an entry. -/
theorem Loose.settle {s : AppState} (h : s.Loose) (planned : List String) (sessions : Sessions)
    (hsessions : ∀ key ∈ sessions, key ∈ s.sessions)
    (hleft : ∀ key ∈ planned, key ∈ s.sessions → key ∈ s.tabs.keys) :
    Loose { s with pendingKeys := s.pendingKeys \ planned.toFinset, sessions := sessions } := by
  refine ⟨h.ready, h.distinct, ?_⟩
  intro key hkey
  have hold := hsessions key hkey
  by_cases hplan : key ∈ planned
  · exact .inl (hleft key hplan hold)
  · refine (h.known key hold).imp_right fun hp => ?_
    exact Finset.mem_sdiff.2 ⟨hp, fun hin => hplan (List.mem_toFinset.1 hin)⟩

/-! ### Header refreshes -/

section

variable [HeaderReader]

theorem Consistent.writeSummary {s : AppState} (h : s.Consistent) {key : String} (hopen : s.isOpenOrRestoring key)
    (summary : SessionSummary) : (s.writeSummary key summary).Consistent := by
  refine h.sessions fun k hk => ?_
  rcases mem_put.1 hk with rfl | hold
  · exact hopen
  · exact h.known k hold

theorem Consistent.showHeader {s : AppState} (h : s.Consistent) (summary : SessionSummary) :
    (s.showHeader summary).Consistent :=
  h.phase fun hr => .inl (PhaseMachine.isReady_of_reduce hr)

theorem Consistent.refreshHeader {s : AppState} (h : s.Consistent) {key : String} {summary : Option SessionSummary}
    (hopen : summary.isSome → s.isOpenOrRestoring key) : (s.refreshHeader key summary).Consistent := by
  cases summary with
  | none => exact h
  | some summary => exact (h.writeSummary (hopen rfl) summary).showHeader summary

theorem Consistent.applyHeaderRefresh {s : AppState} (h : s.Consistent) (key : String) (summary : SessionSummary) :
    (s.applyHeaderRefresh key summary).Consistent := by
  unfold AppState.applyHeaderRefresh
  by_cases hopen : s.isOpenOrRestoring key
  · rw [if_neg (not_not.2 hopen)]
    exact (h.writeSummary hopen summary).showHeader summary
  · rw [if_pos hopen]
    exact h

/-- The end of `afterOpen`; iOS looks at the tabs again before it writes the summary. -/
theorem Consistent.afterOpen {p : Platform} {s : AppState} (h : s.Consistent) (hcan : s.CanBeReady) {key : String}
    {summary : Option SessionSummary} (hopen : p = .android → summary.isSome → s.isOpenOrRestoring key) :
    (s.afterOpen p key summary).Consistent := by
  cases p with
  | android =>
    have hrefreshed := h.refreshHeader (hopen rfl)
    refine hrefreshed.phase fun _ => .inr ?_
    cases summary <;> exact hcan
  | ios =>
    cases summary with
    | none => exact h.phase fun _ => .inr hcan
    | some summary =>
      unfold AppState.afterOpen
      dsimp only
      by_cases hknown : s.isOpenOrRestoring key
      · rw [if_pos hknown]
        exact (h.writeSummary hknown summary).phase fun _ => .inr hcan
      · rw [if_neg hknown]
        exact h.phase fun _ => .inr hcan

end

/-! ### Registration -/

theorem Registered.loose {s s' : AppState} {key : String} (h : Registered s key s') (hs : s.Loose) : s'.Loose := by
  refine ⟨?_, ?_, ?_⟩
  · rw [h.phase, h.endpointText]
    exact hs.ready
  · rw [h.tabs]
    exact TabSet.nodup_add hs.distinct key
  · intro k hk
    unfold isOpenOrRestoring
    rw [h.tabs, h.pendingKeys, TabSet.mem_add, Finset.mem_erase]
    by_cases heq : k = key
    · exact .inl (.inr heq)
    · rcases hs.known k ((h.sessions k hk).resolve_right heq) with htab | hpending
      · exact .inl (.inl htab)
      · exact .inr ⟨heq, hpending⟩

/-! ### Tabs -/

theorem Consistent.tap {s : AppState} (h : s.Consistent) {key : String} (hmem : key ∈ s.tabs.keys) :
    Consistent { s with tabs := ⟨s.tabs.keys, some key⟩, currentKey := some key } :=
  Loose.consistent ⟨h.loose.ready, h.distinct, h.known⟩ rfl rfl hmem

/-- A tab is closed in the strip and in the session map, and the strip tells which one is shown. -/
theorem Consistent.close {s : AppState} (h : s.Consistent) {key : String} (hlast : s.phase.isReady → s.tabs.keys ≠ [key]) :
    Consistent { s with
      tabs := s.tabs.close key
      sessions := s.sessions.erase key
      currentKey := (s.tabs.close key).current } := by
  have hvalid : s.tabs.Valid := ⟨h.distinct, fun k hk => h.shown k (h.current.trans hk)⟩
  have hclosed := hvalid.close key
  refine ⟨?_, rfl, hclosed.shown, hclosed.distinct, ?_⟩
  · intro hr
    refine ⟨(h.ready hr).1, ?_⟩
    obtain ⟨shown, hshown⟩ := Option.ne_none_iff_exists'.1 (h.ready hr).2
    have hcur : s.tabs.current = some shown := h.current.symm.trans hshown
    by_cases heq : shown = key
    · subst heq
      have hmem := h.shown shown hshown
      intro hnone
      have hempty := (TabSet.current_close_self hmem hcur).2.1 hnone
      rw [TabSet.keys_close] at hempty
      have hsplit := List.cons_perm_iff_perm_erase.2 ⟨hmem, List.Perm.refl _⟩
      rw [hempty] at hsplit
      exact hlast hr (List.singleton_perm.1 hsplit).symm
    · have hne : s.tabs.current ≠ some key := by
        rw [hcur]
        exact fun hkey => heq (Option.some_inj.1 hkey)
      change (s.tabs.close key).current ≠ none
      rw [TabSet.current_close_of_ne hne, hcur]
      simp
  · intro k hk
    obtain ⟨hne, hold⟩ := AList.mem_erase.1 hk
    exact (h.known k hold).imp_left fun htab => (TabSet.mem_close h.distinct).2 ⟨hne, htab⟩

end AppState

end Hermo
