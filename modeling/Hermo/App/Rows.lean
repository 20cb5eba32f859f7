import Hermo.App.AppFeature
import Hermo.App.Mirror
import Hermo.App.Registration
import Hermo.App.Repository

/-!
# The rows of a session on both platforms

`Platform.receive` folds changes over a row list with the reducer of the platform; within the range of the indices the
core sends, the two reducers agree (`receive_of`).  The rest says what the functions of the app do to the rows under a
key: a change of a known key is one step of the fold, a registration the fold of what was parked.
-/

namespace Hermo

open OrderedMap

namespace Platform

/-- The changes of a key, folded over its rows in the order they arrive. -/
def receive (p : Platform) (rows : List String) : List TranscriptChangeDto → Option (List String)
  | [] => some rows
  | change :: changes =>
    (p.applyTranscriptChange rows (kindOf change) change.index change.rowJson).bind fun rows' => p.receive rows' changes

theorem receive_append (p : Platform) (rows : List String) (as bs : List TranscriptChangeDto) :
    p.receive rows (as ++ bs) = (p.receive rows as).bind fun rows' => p.receive rows' bs := by
  induction as generalizing rows with
  | nil => rfl
  | cons a as ih =>
    simp only [List.cons_append, receive]
    cases p.applyTranscriptChange rows (kindOf a) a.index a.rowJson with
    | none => rfl
    | some rows' => exact ih rows'

end Platform

/-! ### Indices of the core -/

/-- The index of the change is a `u32`. -/
def TranscriptChangeDto.FitsU32 (change : TranscriptChangeDto) : Prop := change.index ≤ u32Max

private theorem eq_toInt {index : Nat} (h : index ≤ u32Max) (hpos : 0 ≤ toInt index) : toInt index = index := by
  unfold toInt u32Max at *
  rw [BitVec.toInt_ofInt, Int.bmod_def] at *
  split at hpos <;> split <;> omega

private theorem assign_eq {rows rows' : List String} {i : Int} {rowJson : String}
    (h : assign rows i rowJson = some rows') : 0 ≤ i ∧ i < rows.length ∧ rows' = rows.set i.toNat rowJson := by
  unfold assign at h
  rw [Option.ite_none_right_eq_some, Option.some_inj] at h
  exact ⟨h.1.1, h.1.2, h.2.symm⟩

private theorem padTo_of_lt {rows : List String} {i : Int} (h : i < rows.length) : padTo rows i = rows := by
  have hnone : (i + 1).toNat - rows.length = 0 := by omega
  unfold padTo
  rw [hnone, List.replicate_zero, List.append_nil]

/-- The two reducers agree where the one of Kotlin throws no exception. -/
private theorem applySwift_eq {rows rows' : List String} {change : TranscriptChangeDto} (hfits : change.FitsU32)
    (h : applyTranscriptChange rows (kindOf change) change.index change.rowJson = some rows') :
    applyTranscriptChangeSwift rows (kindOf change) change.index change.rowJson = rows' := by
  have hmax : (change.index : Int) ≤ int64Max := by
    have hle : change.index ≤ u32Max := hfits
    unfold u32Max at hle
    unfold int64Max
    omega
  unfold applyTranscriptChange kindOf at h
  unfold applyTranscriptChangeSwift kindOf
  cases hkind : change.kind with
  | rowAppended =>
    rw [hkind] at h
    dsimp only at h ⊢
    rw [if_pos rfl] at h
    obtain ⟨hpos, -, rfl⟩ := assign_eq h
    have hindex := eq_toInt hfits hpos
    rw [if_pos (.inl rfl), if_pos ⟨Int.natCast_nonneg _, hmax⟩, hindex]
  | rowUpdated =>
    rw [hkind] at h
    dsimp only at h ⊢
    rw [if_neg (by decide), if_pos rfl] at h
    obtain ⟨hpos, -, rfl⟩ := assign_eq h
    have hindex := eq_toInt hfits hpos
    rw [if_pos (.inr rfl), if_pos ⟨Int.natCast_nonneg _, hmax⟩, hindex]
    by_cases hge : (change.index : Int) ≥ rows.length
    · rw [if_pos hge]
    · rw [if_neg hge, padTo_of_lt (by omega)]
  | reset =>
    rw [hkind] at h
    cases h
    rfl
  | headerUpdated =>
    rw [hkind] at h
    cases h
    rfl

/-- What the app of Android shows, the app of iOS shows as well. -/
theorem Platform.receive_of (p : Platform) {rows rows' : List String} {changes : List TranscriptChangeDto}
    (hfits : ∀ change ∈ changes, change.FitsU32) (h : Hermo.receive rows changes = some rows') :
    p.receive rows changes = some rows' := by
  induction changes generalizing rows with
  | nil => exact h
  | cons change changes ih =>
    obtain ⟨mid, hmid, hrest⟩ := Option.bind_eq_some_iff.1 h
    have htail := ih (fun c hc => hfits c (List.mem_cons_of_mem change hc)) hrest
    have hhead : p.applyTranscriptChange rows (kindOf change) change.index change.rowJson = some mid := by
      cases p with
      | android => exact hmid
      | ios => exact congrArg some (applySwift_eq (hfits change List.mem_cons_self) hmid)
    unfold receive
    rw [hhead]
    exact htail

/-! ### How much a fold can fill -/

/-- The rows with a text. -/
def filled (rows : List String) : Nat := rows.countP (· ≠ "")

private theorem filled_set (rows : List String) (j : Nat) (rowJson : String) :
    filled (rows.set j rowJson) ≤ filled rows + 1 := by
  unfold filled
  by_cases hlt : j < rows.length
  · rw [List.countP_set hlt]
    split <;> split <;> omega
  · rw [List.set_eq_of_length_le (Nat.le_of_not_lt hlt)]
    exact Nat.le_succ _

private theorem filled_set_padTo (rows : List String) (i : Int) (j : Nat) (rowJson : String) :
    filled ((padTo rows i).set j rowJson) ≤ filled rows + 1 := by
  have hpad : filled (padTo rows i) = filled rows := by
    unfold filled padTo
    rw [List.countP_append, List.countP_replicate]
    simp
  rw [← hpad]
  exact filled_set _ j rowJson

/-- A change fills at most one row. -/
theorem Platform.filled_apply {p : Platform} {rows rows' : List String} {kind rowJson : String} {index : Int}
    (h : p.applyTranscriptChange rows kind index rowJson = some rows') : filled rows' ≤ filled rows + 1 := by
  cases p with
  | android =>
    change Hermo.applyTranscriptChange rows kind index rowJson = some rows' at h
    unfold Hermo.applyTranscriptChange at h
    split at h
    · obtain ⟨-, -, rfl⟩ := assign_eq h
      exact filled_set_padTo rows _ _ rowJson
    · split at h
      · obtain ⟨-, -, rfl⟩ := assign_eq h
        split
        · exact filled_set_padTo rows _ _ rowJson
        · exact filled_set rows _ rowJson
      · split at h
        · cases h
          exact Nat.zero_le _
        · cases h
          exact Nat.le_succ _
  | ios =>
    cases h
    unfold applyTranscriptChangeSwift
    split
    · split
      · exact filled_set_padTo rows _ _ rowJson
      · exact Nat.le_succ _
    · split
      · exact Nat.zero_le _
      · exact Nat.le_succ _

theorem Platform.filled_receive {p : Platform} {rows rows' : List String} {changes : List TranscriptChangeDto}
    (h : p.receive rows changes = some rows') : filled rows' ≤ filled rows + changes.length := by
  induction changes generalizing rows with
  | nil =>
    cases h
    exact Nat.le_refl _
  | cons change changes ih =>
    obtain ⟨mid, hmid, hrest⟩ := Option.bind_eq_some_iff.1 h
    have hhead := Platform.filled_apply hmid
    have htail := ih hrest
    rw [List.length_cons]
    omega

/-- Without a negative index there is no exception. -/
theorem Platform.receive_isSome {p : Platform} {changes : List TranscriptChangeDto}
    (h : ∀ change ∈ changes, change.FitsInt) (rows : List String) : ∃ rows', p.receive rows changes = some rows' := by
  induction changes generalizing rows with
  | nil => exact ⟨rows, rfl⟩
  | cons change changes ih =>
    obtain ⟨hfits, hrest⟩ := List.forall_mem_cons.1 h
    obtain ⟨mid, hmid⟩ := Option.isSome_iff_exists.1 (p.applyTranscriptChange_isSome rows hfits)
    unfold receive
    rw [hmid]
    exact ih hrest mid

/-- On Android a fold that goes through has met no negative index. -/
theorem fits_of_receive {rows rows' : List String} {changes : List TranscriptChangeDto}
    (h : Platform.android.receive rows changes = some rows') : ∀ change ∈ changes, change.FitsInt := by
  induction changes generalizing rows with
  | nil => exact fun _ hc => absurd hc List.not_mem_nil
  | cons change changes ih =>
    obtain ⟨mid, hmid, hrest⟩ := Option.bind_eq_some_iff.1 h
    exact List.forall_mem_cons.2 ⟨AppState.fits_of_apply hmid, ih hrest⟩

/-! ### One lock section -/

section

variable [Serializer]

private theorem changesToDtos_fits (key : String) (changes : List SessionChange) (rows : List Row) (title : String) :
    ∀ change ∈ changesToDtos key changes rows title, change.FitsU32 := by
  intro change hchange
  obtain ⟨c, -, rfl⟩ := List.mem_map.1 hchange
  unfold TranscriptChangeDto.FitsU32
  cases c.change with
  | rowAppended index => exact Nat.min_le_right _ _
  | rowUpdated index => exact Nat.min_le_right _ _
  | reset => exact Nat.le_refl _
  | headerUpdated => exact Nat.le_refl _

private theorem actOption_fits (t : Tab) (key : String) (b : Option TabAction) :
    ∀ change ∈ (t.actOption key b).2, change.FitsU32 := by
  have hnone : ∀ change ∈ ([] : List TranscriptChangeDto), change.FitsU32 := fun _ hc => absurd hc List.not_mem_nil
  cases b with
  | none => exact hnone
  | some b =>
    by_cases hkeeps : b.keeps
    · change ∀ change ∈ (t.act key b).2, change.FitsU32
      cases hlive : t.live with
      | none =>
        rw [(Tab.act_none hlive key hkeeps).2]
        exact hnone
      | some live =>
        obtain ⟨title, hdtos⟩ := Tab.dtos_act hlive key hkeeps
        rw [hdtos]
        exact changesToDtos_fits key _ _ title
    · cases b with
      | openSession reply profile cols historyEpoch => exact changesToDtos_fits key _ _ ""
      | close => exact hnone
      | _ => exact absurd rfl hkeeps

/-- The changes of a lock section take the rows of the app to those of the core. -/
theorem CoreState.receive_act {s : CoreState} (h : s.WellFormed) (p : Platform) (key : String) {a : Action}
    (hopen : a.closes key = false) (hlen : ((s.act a).1.rowsOf key).length ≤ intLimit)
    (hclear : ∀ reply profile cols, a = .openSession reply profile cols → reply.key = key → reply.messages = [] →
      s.rowsOf key = []) :
    p.receive ((s.rowsOf key).map rowText) ((s.act a).2.filter (·.key == key)) =
      some (((s.act a).1.rowsOf key).map rowText) := by
  have hstep := (appStep_iff h key a hlen).2 hclear
  unfold appStep at hstep
  rw [hopen] at hstep
  refine p.receive_of ?_ hstep
  rw [dtos_act]
  exact actOption_fits (s.tab key) key _

omit [Serializer] in
private theorem keeps_of_onTab {s : CoreState} {key : String} {a : Action} {b : TabAction}
    (hopens : a.opens key = false) (hcloses : a.closes key = false) (hon : s.onTab key a = some b) : b.keeps = true := by
  cases a <;> simp only [CoreState.onTab, Option.ite_none_right_eq_some, Option.some.injEq] at hon
  case clearSessions => cases hcloses
  case forgetGateway => cases hcloses
  all_goals obtain ⟨hk, rfl⟩ := hon
  case openSession => simp [Action.opens, hk] at hopens
  case closeSession => simp [Action.closes, hk] at hcloses
  all_goals rfl

/-- Only an open brings a session to life. -/
theorem CoreState.dead_after {s : CoreState} {key : String} (h : (s.tab key).live = none) {a : Action}
    (hopens : a.opens key = false) (hcloses : a.closes key = false) : ((s.act a).1.tab key).live = none := by
  rw [tab_act]
  cases hon : s.onTab key a with
  | none => exact h
  | some b => exact (Tab.act_none h key (keeps_of_onTab hopens hcloses hon)).1

/-- A session that is not live after an action that does not close it was not live before, and nothing was sent. -/
theorem CoreState.dead_before {s : CoreState} {key : String} {a : Action} (hcloses : a.closes key = false)
    (h : ((s.act a).1.tab key).live = none) : (s.tab key).live = none ∧ (s.act a).2.filter (·.key == key) = [] := by
  rw [tab_act] at h
  rw [dtos_act]
  cases hon : s.onTab key a with
  | none =>
    rw [hon] at h
    exact ⟨h, rfl⟩
  | some b =>
    rw [hon] at h
    cases hopens : a.opens key with
    | true =>
      cases a with
      | openSession reply profile cols =>
        have hkey : reply.key = key := by simpa [Action.opens] using hopens
        rw [onTab, if_pos hkey] at hon
        cases hon
        cases h
      | _ => cases hopens
    | false =>
      have hkeeps := keeps_of_onTab hopens hcloses hon
      cases hlive : (s.tab key).live with
      | none => exact ⟨rfl, (Tab.act_none hlive key hkeeps).2⟩
      | some live =>
        have hafter : ((s.tab key).act key b).1.live = none := h
        rw [Tab.live_act hlive key hkeeps] at hafter
        cases hafter

end

/-! ### The session map -/

/-- The rows under a key, none where there is no entry. -/
def rowsUnder (sessions : Sessions) (key : String) : List String :=
  ((sessions.lookup key).map SessionUiState.rows).getD []

theorem rowsUnder_put (sessions : Sessions) (key k : String) (entry : SessionUiState) :
    rowsUnder (put key entry sessions) k = if k = key then entry.rows else rowsUnder sessions k := by
  unfold rowsUnder
  rw [lookup_put]
  split <;> rfl

/-- A write that keeps the rows of the entry, or starts one without rows. -/
theorem rowsUnder_put_same {sessions : Sessions} {key : String} {entry : SessionUiState}
    (h : entry.rows = rowsUnder sessions key) (k : String) :
    rowsUnder (put key entry sessions) k = rowsUnder sessions k := by
  rw [rowsUnder_put]
  split
  · rename_i hk
    rw [hk, h]
  · rfl

private theorem rows_getD (sessions : Sessions) (key : String) :
    ((sessions.lookup key).getD { key := key }).rows = rowsUnder sessions key := by
  unfold rowsUnder
  cases sessions.lookup key <;> rfl

private theorem rows_of_lookup {sessions : Sessions} {key : String} {entry : SessionUiState}
    (h : sessions.lookup key = some entry) : entry.rows = rowsUnder sessions key := by
  unfold rowsUnder
  rw [h]
  rfl

theorem rowsUnder_ensureSession (sessions : Sessions) (key k : String) :
    rowsUnder (ensureSession sessions key) k = rowsUnder sessions k := by
  unfold ensureSession
  by_cases hmem : key ∈ sessions
  · rw [if_pos hmem]
  · rw [if_neg hmem]
    refine rowsUnder_put_same ?_ k
    unfold rowsUnder
    rw [AList.lookup_eq_none.2 hmem]
    rfl

theorem rowsUnder_withProfile (sessions : Sessions) (key profile k : String) :
    rowsUnder (withProfile sessions key profile) k = rowsUnder sessions k := by
  unfold withProfile
  split
  · rfl
  · cases hcur : sessions.lookup key with
    | none => rfl
    | some current =>
      dsimp only
      split
      · rfl
      · have hrows : current.rows = rowsUnder sessions key := rows_of_lookup hcur
        refine rowsUnder_put_same ?_ k
        exact hrows

/-- A change of a known key is one step of the fold. -/
theorem applySessionChange_rows {p : Platform} {sessions : Sessions} {change : TranscriptChangeDto}
    {known : Finset String} (hknown : change.key ∈ known) {rows : List String}
    (h : p.applyTranscriptChange (rowsUnder sessions change.key) (kindOf change) change.index change.rowJson =
      some rows) :
    ∃ sessions', applySessionChange p sessions change.key (kindOf change) change.index change.rowJson known
        change.title = some sessions' ∧
      rowsUnder sessions' change.key = rows ∧ ∀ k, k ≠ change.key → rowsUnder sessions' k = rowsUnder sessions k := by
  unfold applySessionChange
  rw [if_neg (not_not.2 hknown)]
  dsimp only
  by_cases hheader : kindOf change = "headerUpdated"
  · have hsame : rows = rowsUnder sessions change.key := by
      rw [hheader] at h
      cases p <;> exact (Option.some_inj.1 h).symm
    have hput : ∀ k, rowsUnder (put change.key
        (if change.title ≠ "" then
          { (sessions.lookup change.key).getD { key := change.key } with title := change.title }
        else (sessions.lookup change.key).getD { key := change.key }) sessions) k = rowsUnder sessions k := by
      refine rowsUnder_put_same ?_
      rw [← rows_getD]
      split <;> rfl
    rw [if_pos hheader]
    exact ⟨_, rfl, (hput change.key).trans hsame.symm, fun k _ => hput k⟩
  · rw [if_neg hheader, rows_getD, h]
    refine ⟨_, rfl, ?_, ?_⟩
    · rw [rowsUnder_put, if_pos rfl]
    · intro k hk
      rw [rowsUnder_put, if_neg hk]

namespace AppState

/-- The rows the app keeps for a key. -/
def rowsOf (s : AppState) (key : String) : List String := rowsUnder s.sessions key

/-- What was parked for a key. -/
def early (s : AppState) (key : String) : List TranscriptChangeDto := s.parkedChanges.filter (·.key == key)

/-- Without the oldest change that is parked, the rows of its key come out the same. -/
def OldestSpared (p : Platform) (s : AppState) : Prop :=
  ∀ oldest rest, s.parkedChanges = oldest :: rest →
    p.receive (s.rowsOf oldest.key) ((oldest :: rest).filter (·.key == oldest.key)) =
      p.receive (s.rowsOf oldest.key) (rest.filter (·.key == oldest.key))

/-! ### The queue -/

theorem early_park (s : AppState) (change : TranscriptChangeDto) (key : String) :
    (s.park change).early key =
      (s.parkedChanges.drop (s.parkedChanges.length + 1 - parkedChangesMax)).filter (·.key == key) ++
        [change].filter (·.key == key) := List.filter_append ..

/-- Parking writes the queue only. -/
theorem park_frame (s : AppState) (change : TranscriptChangeDto) :
    (∀ key, (s.park change).rowsOf key = s.rowsOf key) ∧ (s.park change).tabs = s.tabs ∧
      (s.park change).pendingKeys = s.pendingKeys ∧ (s.park change).inFlightOpens = s.inFlightOpens := by
  obtain ⟨parked, hpark⟩ := s.park_eq change
  rw [hpark]
  exact ⟨fun _ => rfl, rfl, rfl, rfl⟩

theorem mem_park (s : AppState) {change d : TranscriptChangeDto} (h : d ∈ (s.park change).parkedChanges) :
    d ∈ s.parkedChanges ∨ d = change := by
  unfold park at h
  rcases List.mem_append.1 h with hold | hown
  · exact .inl (List.mem_of_mem_drop hold)
  · exact .inr (List.mem_singleton.1 hown)

theorem park_length (s : AppState) (hbounded : s.parkedChanges.length ≤ parkedChangesMax)
    (change : TranscriptChangeDto) : (s.park change).parkedChanges.length ≤ parkedChangesMax := by
  unfold parkedChangesMax at hbounded
  unfold park parkedChangesMax
  rw [List.length_append, List.length_drop, List.length_singleton]
  omega

/-- What a full queue keeps says the same about every key, where its oldest change is spared. -/
theorem receive_left {p : Platform} (s : AppState)
    (hspared : parkedChangesMax ≤ s.parkedChanges.length → s.OldestSpared p)
    (hbounded : s.parkedChanges.length ≤ parkedChangesMax) (key : String) :
    p.receive (s.rowsOf key) ((s.parkedChanges.drop
        (s.parkedChanges.length + 1 - parkedChangesMax)).filter (·.key == key)) =
      p.receive (s.rowsOf key) (s.early key) := by
  unfold early
  by_cases hfull : parkedChangesMax ≤ s.parkedChanges.length
  · have hone : s.parkedChanges.length + 1 - parkedChangesMax = 1 := by omega
    rw [hone]
    cases hqueue : s.parkedChanges with
    | nil => rfl
    | cons oldest rest =>
      rw [List.drop_one, List.tail_cons]
      by_cases hkey : oldest.key = key
      · have hsame := hspared hfull oldest rest hqueue
        rw [hkey] at hsame
        exact hsame.symm
      · rw [List.filter_cons_of_neg (by simpa using hkey)]
  · have hnone : s.parkedChanges.length + 1 - parkedChangesMax = 0 := by omega
    rw [hnone, List.drop_zero]

theorem early_finish (s : AppState) (p : Platform) (key : String) :
    (s.finishInFlightOpen p).early key = if p.countDown s.inFlightOpens = 0 then [] else s.early key := by
  unfold finishInFlightOpen early
  dsimp only
  split <;> rfl

theorem finish_length (s : AppState) (p : Platform) :
    (s.finishInFlightOpen p).parkedChanges.length ≤ s.parkedChanges.length := by
  unfold finishInFlightOpen
  dsimp only
  split
  · exact Nat.zero_le _
  · exact Nat.le_refl _

/-! ### Draining -/

private theorem drainLoop_rows {p : Platform} {key : String} {known : Finset String} (hknown : key ∈ known)
    {sessions : Sessions} (otherKeys : List TranscriptChangeDto) {queue : List TranscriptChangeDto} {rows : List String}
    (h : p.receive (rowsUnder sessions key) (queue.filter (·.key == key)) = some rows) :
    ∃ sessions' remaining, drainLoop p key known sessions otherKeys queue = .ok (sessions', remaining) ∧
      rowsUnder sessions' key = rows ∧ ∀ k, k ≠ key → rowsUnder sessions' k = rowsUnder sessions k := by
  induction queue generalizing sessions otherKeys with
  | nil => exact ⟨sessions, otherKeys, rfl, Option.some_inj.1 h, fun _ _ => rfl⟩
  | cons parked queue ih =>
    unfold drainLoop
    by_cases hkey : parked.key = key
    · rw [List.filter_cons_of_pos (by simpa using hkey)] at h
      obtain ⟨mid, hmid, hrest⟩ := Option.bind_eq_some_iff.1 h
      subst hkey
      obtain ⟨sessions', happ, hrows, hothers⟩ := applySessionChange_rows hknown hmid
      rw [← hrows] at hrest
      obtain ⟨sessions'', remaining, hloop, hrows', hothers'⟩ := ih otherKeys hrest
      rw [if_neg (not_not.2 rfl), happ]
      exact ⟨sessions'', remaining, hloop, hrows', fun k hk => (hothers' k hk).trans (hothers k hk)⟩
    · rw [List.filter_cons_of_neg (by simpa using hkey)] at h
      rw [if_pos hkey]
      exact ih _ h

/-- The rows of a registered session are those it had, with what was parked for it. -/
theorem rowsOf_register {p : Platform} {s : AppState} {key : String} {rows : List String}
    (h : p.receive (s.rowsOf key) (s.early key) = some rows) :
    ∃ s', s.registerKey p key = .ok s' ∧ Registered s key s' ∧ s'.rowsOf key = rows ∧
      ∀ k, k ≠ key → s'.rowsOf k = s.rowsOf k := by
  obtain ⟨sessions, remaining, hloop, hrows, hothers⟩ := drainLoop_rows
    (Finset.mem_insert_self key { s with pendingKeys := insert key s.pendingKeys }.knownKeys) [] h
  have hok : s.registerKey p key = .ok { s with
      pendingKeys := (insert key s.pendingKeys).erase key
      sessions := ensureSession sessions key
      tabs := s.tabs.add key
      parkedChanges := remaining } := by
    unfold registerKey drainParked
    simp only [hloop]
    rfl
  refine ⟨_, hok, registered_of_ok hok, ?_, ?_⟩
  · exact (rowsUnder_ensureSession sessions key key).trans hrows
  · exact fun k hk => (rowsUnder_ensureSession sessions key k).trans (hothers k hk)

/-! ### Headers -/

theorem rowsOf_writeSummary [HeaderReader] (s : AppState) (key : String) (summary : SessionSummary) (k : String) :
    (s.writeSummary key summary).rowsOf k = s.rowsOf k := by
  refine rowsUnder_put_same ?_ k
  exact rows_getD s.sessions key

/-- A completion changes no rows. -/
theorem rowsOf_afterOpen [HeaderReader] (p : Platform) (s : AppState) (key : String)
    (summary : Option SessionSummary) (k : String) : (s.afterOpen p key summary).rowsOf k = s.rowsOf k := by
  cases p with
  | android =>
    cases summary with
    | none => rfl
    | some summary => exact s.rowsOf_writeSummary key summary k
  | ios =>
    cases summary with
    | none => rfl
    | some summary =>
      unfold afterOpen
      dsimp only
      split
      · exact s.rowsOf_writeSummary key summary k
      · rfl

end AppState

end Hermo
