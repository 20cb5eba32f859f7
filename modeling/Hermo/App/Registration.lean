import Hermo.App.AppState

/-!
# Registering an opened session

What the shared functions of the app do to the session map, the tabs and the bookkeeping of the opens.  `Registered`
collects it for `registerKey`; `rowsOf_register` says that the rows of the session are what was parked for it.
-/

namespace Hermo

open OrderedMap

/-! ### Keys of the session map -/

theorem mem_applySessionChange {p : Platform} {sessions sessions' : Sessions} {key kind rowJson title : String}
    {index : Int} {known : Finset String}
    (h : applySessionChange p sessions key kind index rowJson known title = some sessions') {k : String}
    (hk : k ∈ sessions') : k ∈ sessions ∨ (k = key ∧ key ∈ known) := by
  unfold applySessionChange at h
  by_cases hknown : key ∈ known
  · rw [if_neg (not_not.2 hknown)] at h
    dsimp only at h
    by_cases hkind : kind = "headerUpdated"
    · rw [if_pos hkind, Option.some_inj] at h
      subst h
      exact (mem_put.1 hk).symm.imp_right fun heq => ⟨heq, hknown⟩
    · rw [if_neg hkind] at h
      obtain ⟨rows, -, rfl⟩ := Option.map_eq_some_iff.1 h
      exact (mem_put.1 hk).symm.imp_right fun heq => ⟨heq, hknown⟩
  · rw [if_pos hknown, Option.some_inj] at h
    exact .inl (h ▸ hk)

theorem mem_ensureSession {sessions : Sessions} {key k : String} :
    k ∈ ensureSession sessions key ↔ k ∈ sessions ∨ k = key := by
  unfold ensureSession
  by_cases h : key ∈ sessions
  · rw [if_pos h]
    constructor
    · exact Or.inl
    · rintro (hk | rfl)
      · exact hk
      · exact h
  · rw [if_neg h, mem_put, or_comm]

theorem mem_withProfile {sessions : Sessions} {key profile k : String} :
    k ∈ withProfile sessions key profile ↔ k ∈ sessions := by
  unfold withProfile
  split
  · rfl
  · cases hcur : sessions.lookup key with
    | none => rfl
    | some current =>
      dsimp only
      split
      · rfl
      · have hmem : key ∈ sessions := AList.lookup_isSome.1 (by rw [hcur]; rfl)
        rw [mem_put]
        constructor
        · rintro (rfl | hk)
          · exact hmem
          · exact hk
        · exact Or.inr

theorem mem_applySummaries {sessions : Sessions} {summaries : List SessionSummary} {k : String} :
    k ∈ applySummaries sessions summaries ↔ k ∈ sessions := by
  unfold applySummaries
  induction summaries generalizing sessions with
  | nil => rfl
  | cons summary summaries ih =>
    rw [List.foldl_cons, ih]
    cases hcur : sessions.lookup summary.key with
    | none => rfl
    | some existing =>
      have hmem : summary.key ∈ sessions := AList.lookup_isSome.1 (by rw [hcur]; rfl)
      rw [mem_put]
      constructor
      · rintro (rfl | hk)
        · exact hmem
        · exact hk
      · exact Or.inr

namespace AppState

theorem mem_knownKeys {s : AppState} {key : String} : key ∈ s.knownKeys ↔ s.isOpenOrRestoring key := by
  unfold knownKeys isOpenOrRestoring
  rw [Finset.mem_union, List.mem_toFinset]

/-! ### Draining -/

private theorem drainLoop_ok {p : Platform} {key : String} {known : Finset String} {sessions sessions' : Sessions}
    {otherKeys queue remaining : List TranscriptChangeDto}
    (h : drainLoop p key known sessions otherKeys queue = .ok (sessions', remaining)) :
    remaining = otherKeys ++ queue.filter (·.key ≠ key) ∧ ∀ k ∈ sessions', k ∈ sessions ∨ k = key := by
  induction queue generalizing sessions otherKeys with
  | nil =>
    cases h
    rw [List.filter_nil, List.append_nil]
    exact ⟨rfl, fun k hk => .inl hk⟩
  | cons parked queue ih =>
    unfold drainLoop at h
    by_cases hkey : parked.key = key
    · rw [if_neg (not_not.2 hkey)] at h
      cases happ : applySessionChange p sessions key (kindOf parked) parked.index parked.rowJson known
          parked.title with
      | none =>
        rw [happ] at h
        cases h
      | some mid =>
        rw [happ] at h
        obtain ⟨hremaining, hmem⟩ := ih h
        rw [List.filter_cons_of_neg (by simpa using hkey)]
        refine ⟨hremaining, ?_⟩
        intro k hk
        rcases hmem k hk with hmid | rfl
        · exact (mem_applySessionChange happ hmid).imp_right And.left
        · exact .inr rfl
    · rw [if_pos hkey] at h
      obtain ⟨hremaining, hmem⟩ := ih h
      rw [List.filter_cons_of_pos (by simpa using hkey), hremaining, List.append_assoc]
      exact ⟨rfl, hmem⟩

/-- Draining takes the changes of the key out of the queue and writes the session map. -/
theorem drainParked_ok {p : Platform} {s s' : AppState} {key : String} (h : s.drainParked p key = .ok s') :
    ∃ sessions, s' = { s with sessions := sessions, parkedChanges := s.parkedChanges.filter (·.key ≠ key) } ∧
      ∀ k ∈ sessions, k ∈ s.sessions ∨ k = key := by
  unfold drainParked at h
  cases hloop : drainLoop p key (insert key s.knownKeys) s.sessions [] s.parkedChanges with
  | error queue =>
    simp only [hloop] at h
    cases h
  | ok result =>
    obtain ⟨sessions, remaining⟩ := result
    simp only [hloop] at h
    cases h
    obtain ⟨hremaining, hmem⟩ := drainLoop_ok hloop
    rw [List.nil_append] at hremaining
    exact ⟨sessions, by rw [hremaining], hmem⟩

/-- What `registerKey` does: the key is a tab and nothing that was parked for it is left. -/
structure Registered (s : AppState) (key : String) (s' : AppState) : Prop where
  phase : s'.phase = s.phase
  endpointText : s'.endpointText = s.endpointText
  currentKey : s'.currentKey = s.currentKey
  inFlightOpens : s'.inFlightOpens = s.inFlightOpens
  tabs : s'.tabs = s.tabs.add key
  pendingKeys : s'.pendingKeys = s.pendingKeys.erase key
  parkedChanges : s'.parkedChanges = s.parkedChanges.filter (·.key ≠ key)
  sessions : ∀ k ∈ s'.sessions, k ∈ s.sessions ∨ k = key

theorem registered_of_ok {p : Platform} {s s' : AppState} {key : String} (h : s.registerKey p key = .ok s') :
    Registered s key s' := by
  unfold registerKey at h
  cases hdrain : drainParked p { s with pendingKeys := insert key s.pendingKeys } key with
  | error left =>
    rw [hdrain] at h
    cases h
  | ok drained =>
    obtain ⟨sessions, rfl, hmem⟩ := drainParked_ok hdrain
    rw [hdrain] at h
    cases h
    refine ⟨rfl, rfl, rfl, rfl, rfl, Finset.erase_insert_eq_erase _ _, rfl, ?_⟩
    intro k hk
    rcases mem_ensureSession.1 hk with hk | rfl
    · exact hmem k hk
    · exact .inr rfl

/-- An exception in the loop leaves the key pending. -/
theorem eq_of_error {p : Platform} {s s' : AppState} {key : String} (h : s.registerKey p key = .error s') :
    ∃ queue, s' = { s with pendingKeys := insert key s.pendingKeys, parkedChanges := queue } := by
  unfold registerKey drainParked at h
  cases hloop : drainLoop p key (insert key { s with pendingKeys := insert key s.pendingKeys }.knownKeys) s.sessions []
      s.parkedChanges with
  | error queue =>
    simp only [hloop] at h
    cases h
    exact ⟨queue, rfl⟩
  | ok result =>
    simp only [hloop] at h
    cases h

/-! ### Completions -/

/-- The completion of an open makes the app ready, and writes the session map besides. -/
theorem afterOpen_eq [HeaderReader] (p : Platform) (s : AppState) (key : String) (summary : Option SessionSummary) :
    ∃ model sessions, s.afterOpen p key summary = { s with phase := .ready model, sessions := sessions } := by
  cases p with
  | android => cases summary <;> exact ⟨_, _, rfl⟩
  | ios =>
    cases summary with
    | none => exact ⟨_, _, rfl⟩
    | some summary =>
      unfold afterOpen
      dsimp only
      by_cases hopen : s.isOpenOrRestoring key
      · rw [if_pos hopen]
        exact ⟨_, _, rfl⟩
      · rw [if_neg hopen]
        exact ⟨_, _, rfl⟩

/-! ### Exceptions -/

end AppState

/-- The row index of the change is no negative `Int`. -/
def TranscriptChangeDto.FitsInt (change : TranscriptChangeDto) : Prop :=
  change.kind = .rowAppended ∨ change.kind = .rowUpdated → 0 ≤ toInt change.index

private theorem assign_isSome {rows : List String} {i : Int} (hpos : 0 ≤ i) (hlt : i < rows.length) (rowJson : String) :
    (assign rows i rowJson).isSome := by
  unfold assign
  rw [if_pos ⟨hpos, hlt⟩]
  rfl

private theorem padTo_covers (rows : List String) {i : Int} (hpos : 0 ≤ i) : i < (padTo rows i).length := by
  rw [padTo_length]
  omega

/-- Only a negative index is an exception. -/
theorem Platform.applyTranscriptChange_isSome (p : Platform) (rows : List String) {change : TranscriptChangeDto}
    (h : change.FitsInt) : (p.applyTranscriptChange rows (kindOf change) change.index change.rowJson).isSome := by
  cases p with
  | ios => rfl
  | android =>
    unfold Platform.applyTranscriptChange Hermo.applyTranscriptChange kindOf
    cases hkind : change.kind with
    | rowAppended =>
      have hpos : 0 ≤ toInt change.index := h (.inl hkind)
      exact assign_isSome hpos (padTo_covers rows hpos) _
    | rowUpdated =>
      have hpos : 0 ≤ toInt change.index := h (.inr hkind)
      dsimp only
      rw [if_neg (by decide), if_pos rfl]
      by_cases hge : toInt change.index ≥ rows.length
      · rw [if_pos hge]
        exact assign_isSome hpos (padTo_covers rows hpos) _
      · rw [if_neg hge]
        exact assign_isSome hpos (by omega) _
    | reset => rfl
    | headerUpdated => rfl

namespace AppState

private theorem drainLoop_isOk {p : Platform} {key : String} {known : Finset String} {sessions : Sessions}
    {otherKeys queue : List TranscriptChangeDto} (h : ∀ change ∈ queue, change.key = key → change.FitsInt) :
    ∃ result, drainLoop p key known sessions otherKeys queue = .ok result := by
  induction queue generalizing sessions otherKeys with
  | nil => exact ⟨_, rfl⟩
  | cons parked queue ih =>
    have hqueue : ∀ change ∈ queue, change.key = key → change.FitsInt := fun c hc =>
      h c (List.mem_cons_of_mem parked hc)
    unfold drainLoop
    by_cases hkey : parked.key = key
    · rw [if_neg (not_not.2 hkey)]
      have hfits := h parked List.mem_cons_self hkey
      cases happ : applySessionChange p sessions key (kindOf parked) parked.index parked.rowJson known
          parked.title with
      | none =>
        unfold applySessionChange at happ
        split at happ
        · cases happ
        · dsimp only at happ
          split at happ
          · cases happ
          · have hsome := p.applyTranscriptChange_isSome ((sessions.lookup key).getD { key := key }).rows hfits
            rw [Option.map_eq_none_iff.1 happ] at hsome
            cases hsome
      | some sessions' => exact ih hqueue
    · rw [if_pos hkey]
      exact ih hqueue

theorem registerKey_isOk {p : Platform} {s : AppState} {key : String}
    (h : ∀ change ∈ s.parkedChanges, change.key = key → change.FitsInt) : ∃ s', s.registerKey p key = .ok s' := by
  have hloop : ∃ result, drainLoop p key (insert key { s with pendingKeys := insert key s.pendingKeys }.knownKeys)
      s.sessions [] s.parkedChanges = .ok result := drainLoop_isOk h
  obtain ⟨result, hloop⟩ := hloop
  unfold registerKey drainParked
  simp only [hloop]
  exact ⟨_, rfl⟩

private theorem assign_nonneg {rows rows' : List String} {i : Int} {rowJson : String}
    (h : assign rows i rowJson = some rows') : 0 ≤ i := by
  unfold assign at h
  split at h
  · rename_i hi
    exact hi.1
  · cases h

theorem fits_of_apply {rows rows' : List String} {change : TranscriptChangeDto}
    (h : Hermo.applyTranscriptChange rows (kindOf change) change.index change.rowJson = some rows') :
    change.FitsInt := by
  unfold Hermo.applyTranscriptChange kindOf at h
  rintro (hkind | hkind)
  · rw [hkind] at h
    exact assign_nonneg h
  · rw [hkind] at h
    dsimp only at h
    rw [if_neg (by decide), if_pos rfl] at h
    exact assign_nonneg h

private theorem drainLoop_fits {key : String} {known : Finset String} (hknown : key ∈ known) {sessions : Sessions}
    {otherKeys queue : List TranscriptChangeDto} {result : Sessions × List TranscriptChangeDto}
    (h : drainLoop .android key known sessions otherKeys queue = .ok result) :
    ∀ change ∈ queue, change.key = key → change.FitsInt := by
  induction queue generalizing sessions otherKeys with
  | nil => exact fun change hchange => absurd hchange List.not_mem_nil
  | cons parked queue ih =>
    unfold drainLoop at h
    by_cases hkey : parked.key = key
    · rw [if_neg (not_not.2 hkey)] at h
      cases happ : applySessionChange .android sessions key (kindOf parked) parked.index parked.rowJson known
          parked.title with
      | none =>
        rw [happ] at h
        cases h
      | some mid =>
        rw [happ] at h
        refine List.forall_mem_cons.2 ⟨fun _ => ?_, ih h⟩
        unfold applySessionChange at happ
        rw [if_neg (not_not.2 hknown)] at happ
        dsimp only at happ
        by_cases hheader : kindOf parked = "headerUpdated"
        · intro hrow
          rcases hrow with hrow | hrow <;> simp [kindOf, hrow] at hheader
        · rw [if_neg hheader] at happ
          obtain ⟨rows, hrows, -⟩ := Option.map_eq_some_iff.1 happ
          exact fits_of_apply hrows
    · rw [if_pos hkey] at h
      exact List.forall_mem_cons.2 ⟨fun heq => absurd heq hkey, ih h⟩

/-- On Android a registration succeeds only where nothing that was parked ends it with an exception. -/
theorem fits_of_registerKey {s s' : AppState} {key : String} (h : s.registerKey .android key = .ok s') :
    ∀ change ∈ s.parkedChanges, change.key = key → change.FitsInt := by
  unfold registerKey drainParked at h
  cases hloop : drainLoop .android key (insert key { s with pendingKeys := insert key s.pendingKeys }.knownKeys)
      s.sessions [] s.parkedChanges with
  | error queue =>
    simp only [hloop] at h
    cases h
  | ok result => exact drainLoop_fits (Finset.mem_insert_self _ _) hloop

/-! ### One change of the stream -/

/-- A change writes the session map or the queue, and only for a known key, or while an open is in flight. -/
theorem onTranscriptChange_eq {p : Platform} {s s' : AppState} {change : TranscriptChangeDto}
    (h : s.onTranscriptChange p change = some s') :
    (¬ s.isOpenOrRestoring change.key ∧ s' = if s.inFlightOpens > 0 then s.park change else s) ∨
      (s.isOpenOrRestoring change.key ∧ ∃ sessions, s' = { s with sessions := sessions } ∧
        ∀ k ∈ sessions, k ∈ s.sessions ∨ k = change.key) := by
  unfold onTranscriptChange at h
  by_cases hopen : s.isOpenOrRestoring change.key
  · rw [if_neg (not_not.2 hopen)] at h
    obtain ⟨sessions, happ, rfl⟩ := Option.map_eq_some_iff.1 h
    refine .inr ⟨hopen, sessions, rfl, ?_⟩
    exact fun k hk => (mem_applySessionChange happ hk).imp_right And.left
  · rw [if_pos hopen, Option.some_inj] at h
    exact .inl ⟨hopen, h.symm⟩

end AppState

end Hermo
