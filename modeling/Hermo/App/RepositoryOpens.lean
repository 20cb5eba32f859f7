import Hermo.App.Registration
import Hermo.App.Repository

/-!
# The opens of the repository

`inFlightOpens` counts the coroutines inside `openAndRegister`, the pending keys are those their plans announced, and
what is parked is dropped with the last open.  `Keeps` says what a piece of a coroutine does to the three, `Counted` is
the invariant; only `forgetGateway` breaks it, where it resets the count under an open that is still running.
-/

namespace Hermo

open Tasks Run

/-- The bookkeeping of `n` opens in progress; early changes are parked exactly while there is one. -/
structure AppState.Exact (p : Platform) (n : Nat) (s : AppState) : Prop where
  count : s.inFlightOpens = n
  quiet : s.inFlightOpens = 0 → s.pendingKeys = ∅ ∧ s.parkedChanges = []
  parks : 0 < n → ∀ change, ¬ s.isOpenOrRestoring change.key → s.onTranscriptChange p change = some (s.park change)
  drops : n = 0 → ∀ change, change.key ∉ s.tabs.keys → s.onTranscriptChange p change = some s

theorem AppState.exact_of_quiet {p : Platform} {n : Nat} {s : AppState} (hcount : s.inFlightOpens = n)
    (hquiet : s.inFlightOpens = 0 → s.pendingKeys = ∅ ∧ s.parkedChanges = []) : s.Exact p n := by
  refine ⟨hcount, hquiet, ?_, ?_⟩
  · intro hpos change hclosed
    unfold onTranscriptChange
    rw [if_pos hclosed, if_pos (by omega)]
  · intro hzero change hmem
    have hnone : s.pendingKeys = ∅ := (hquiet (by omega)).1
    have hclosed : ¬ s.isOpenOrRestoring change.key := by
      unfold isOpenOrRestoring
      rw [hnone, not_or]
      exact ⟨hmem, Finset.notMem_empty _⟩
    unfold onTranscriptChange
    rw [if_pos hclosed, if_neg (by omega)]

namespace Repository

/-- The coroutine is inside `openAndRegister`. -/
def Task.opens : Task → Bool
  | .restoring _ _ _ _ | .minting | .opening _ => true
  | _ => false

/-- The keys the coroutine announced before its opens. -/
def Task.planned : Task → List String
  | .restoring plan _ _ _ => plan.resumeKeys
  | _ => []

/-- From `s` on, a coroutine that had announced `planned` and whose open has ended. -/
structure Keeps (planned : List String) (s : AppState) (r : AppState × Task) : Prop where
  count : r.1.inFlightOpens = s.inFlightOpens + r.2.opens.toNat
  pending : ∀ key ∈ r.1.pendingKeys, key ∈ r.2.planned ∨ (key ∈ s.pendingKeys ∧ key ∉ planned)
  parked : r.1.parkedChanges = s.parkedChanges

/-- The open of a coroutine has ended. -/
structure Ended (s s' : AppState) : Prop where
  count : s'.inFlightOpens = s.inFlightOpens - 1
  pending : s'.pendingKeys ⊆ s.pendingKeys
  parked : s'.inFlightOpens = 0 → s'.parkedChanges = []

theorem ended_finish (s : AppState) : Ended s (s.finishInFlightOpen .android) :=
  ⟨rfl, Finset.Subset.refl _, fun h => if_pos h⟩

theorem ended_register {s : AppState} {key : String} (hfits : ∀ change ∈ s.parkedChanges, change.key = key → change.FitsInt) :
    Ended s (register s key).1 ∧ (register s key).2 = true := by
  obtain ⟨s', hok⟩ := AppState.registerKey_isOk (p := .android) hfits
  have hreg := AppState.registered_of_ok hok
  unfold register
  rw [hok]
  refine ⟨⟨?_, ?_, fun h => if_pos h⟩, rfl⟩
  · exact congrArg (· - 1) hreg.inFlightOpens
  · exact hreg.pendingKeys ▸ Finset.erase_subset _ _

/-- A piece that starts no open. -/
private theorem Keeps.of_same {planned : List String} {s : AppState} {r : AppState × Task}
    (hcount : r.1.inFlightOpens = s.inFlightOpens) (hopens : r.2.opens = false)
    (hpending : ∀ key ∈ r.1.pendingKeys, key ∈ s.pendingKeys ∧ key ∉ planned)
    (hparked : r.1.parkedChanges = s.parkedChanges) : Keeps planned s r := by
  refine ⟨?_, fun key hkey => .inr (hpending key hkey), hparked⟩
  rw [hcount, hopens]
  exact (Int.add_zero _).symm

/-- The tabs and the key on the screen are no part of the bookkeeping. -/
private theorem Keeps.congr {planned : List String} {s s' : AppState} {r : AppState × Task} (h : Keeps planned s' r)
    (hcount : s'.inFlightOpens = s.inFlightOpens) (hpending : s'.pendingKeys = s.pendingKeys)
    (hparked : s'.parkedChanges = s.parkedChanges) : Keeps planned s r :=
  ⟨hcount ▸ h.count, hpending ▸ h.pending, hparked ▸ h.parked⟩

private theorem keeps_beginOpen (s : AppState) (t : Task) (h : t.opens = true) : Keeps [] s (s.beginOpen, t) :=
  ⟨by rw [h]; rfl, fun _ hk => .inr ⟨hk, List.not_mem_nil⟩, rfl⟩

section

variable [HeaderReader]

/-! ### Pieces of the coroutines -/

theorem keeps_finish (s : AppState) (key : String) (summary : Option SessionSummary) (tail : Tail) :
    Keeps [] s (finish s key summary tail) := by
  obtain ⟨model, sessions, hafter⟩ := s.afterOpen_eq .android key summary
  have hpending : ∀ k ∈ s.pendingKeys, k ∈ s.pendingKeys ∧ k ∉ ([] : List String) := fun k hk => ⟨hk, List.not_mem_nil⟩
  unfold finish
  cases tail with
  | header => cases summary <;> exact .of_same rfl rfl hpending rfl
  | opened =>
    dsimp only
    rw [hafter]
    exact .of_same rfl rfl hpending rfl
  | connected =>
    dsimp only
    rw [hafter]
    exact .of_same rfl rfl hpending rfl
  | closed isEmpty =>
    dsimp only
    rw [hafter]
    cases isEmpty with
    | false => exact .of_same rfl rfl hpending rfl
    | true => exact ⟨rfl, fun k hk => .inr (hpending k hk), rfl⟩

theorem keeps_refreshThen (s : AppState) (key : String) (tail : Tail) : Keeps [] s (refreshThen s key tail) := by
  unfold refreshThen
  by_cases hopen : s.isOpenOrRestoring key
  · rw [if_pos hopen]
    exact .of_same rfl rfl (fun k hk => ⟨hk, List.not_mem_nil⟩) rfl
  · rw [if_neg hopen]
    exact keeps_finish s key none tail

theorem keeps_switchTab (s : AppState) (key : String) : Keeps [] s (switchTab s key) := by
  have hsame : ∀ k ∈ s.pendingKeys, k ∈ s.pendingKeys ∧ k ∉ ([] : List String) := fun k hk => ⟨hk, List.not_mem_nil⟩
  unfold switchTab
  cases htap : tabTap s.tabs s.currentKey key with
  | none => exact .of_same rfl rfl hsame rfl
  | some next =>
    dsimp only
    cases hcur : next.current with
    | none => exact .of_same rfl rfl hsame rfl
    | some current => exact (keeps_refreshThen _ current .opened).congr rfl rfl rfl

theorem keeps_showMain (s : AppState) (key : String) : Keeps [] s (showMain s key) :=
  (keeps_refreshThen _ key .connected).congr rfl rfl rfl

theorem keeps_closed (s : AppState) (key : String) : Keeps [] s (closed s key) := by
  unfold closed
  dsimp only
  cases hmoved : (s.tabs.close key).current.filter (some · ≠ s.currentKey) with
  | some current => exact (keeps_refreshThen _ current _).congr rfl rfl rfl
  | none =>
    dsimp only
    split
    · exact (keeps_beginOpen _ _ rfl).congr rfl rfl rfl
    · exact .of_same rfl rfl (fun k hk => ⟨hk, List.not_mem_nil⟩) rfl

/-- The keys of the plan are taken out. -/
theorem keeps_concludeRestore (s : AppState) (plan : RestorePlan) (summaries : List SessionSummary)
    (resumed : List String) : Keeps plan.resumeKeys s (concludeRestore s plan summaries resumed) := by
  have hout : ∀ k ∈ s.pendingKeys \ plan.resumeKeys.toFinset, k ∈ s.pendingKeys ∧ k ∉ plan.resumeKeys := by
    intro k hk
    rwa [Finset.mem_sdiff, List.mem_toFinset] at hk
  unfold concludeRestore
  dsimp only
  cases hcur : restoredCurrent plan resumed with
  | some key =>
    have h := keeps_showMain { s with
      pendingKeys := s.pendingKeys \ plan.resumeKeys.toFinset
      sessions := applySummaries s.sessions summaries } key
    refine ⟨h.count, ?_, h.parked⟩
    intro k hk
    exact (h.pending k hk).imp_right fun hs => hout k hs.1
  | none =>
    dsimp only
    split
    · exact .of_same rfl rfl hout rfl
    · exact ⟨rfl, fun k hk => .inr (hout k hk), rfl⟩

theorem keeps_restoreNext (s : AppState) (plan : RestorePlan) (summaries : List SessionSummary)
    (rest resumed : List String) : Keeps plan.resumeKeys s (restoreNext s plan summaries rest resumed) := by
  cases rest with
  | nil => exact keeps_concludeRestore s plan summaries resumed
  | cons key rest =>
    refine ⟨rfl, ?_, rfl⟩
    intro k hk
    by_cases hplan : k ∈ plan.resumeKeys
    · exact .inl hplan
    · exact .inr ⟨hk, hplan⟩

theorem keeps_run (s : AppState) (call : Call) : Keeps [] s (run s call) := by
  have hsame : ∀ k ∈ s.pendingKeys, k ∈ s.pendingKeys ∧ k ∉ ([] : List String) := fun k hk => ⟨hk, List.not_mem_nil⟩
  unfold run
  cases call with
  | openExistingSession storedId =>
    dsimp only
    split
    · exact keeps_switchTab s storedId
    · exact keeps_beginOpen s _ rfl
  | openNewSession => exact keeps_beginOpen s _ rfl
  | openBotChat profile =>
    dsimp only
    cases openTabForProfile .android s.sessions s.tabs.keys profile with
    | some openKey => exact keeps_switchTab s openKey
    | none => exact keeps_beginOpen s _ rfl
  | switchTab key => exact keeps_switchTab s key
  | setSessionTitle title =>
    dsimp only
    cases s.currentKey <;> exact .of_same rfl rfl hsame rfl
  | _ => exact .of_same rfl rfl hsame rfl

/-! ### One answer -/

/-- The opening coroutines end their open first. -/
theorem keeps_opened (s : AppState) (key profile : String)
    (hfits : ∀ change ∈ s.parkedChanges, change.key = key → change.FitsInt) :
    ∃ mid, Ended s mid ∧ Keeps [] mid (opened s key profile) := by
  obtain ⟨hended, hopen⟩ := ended_register hfits
  unfold opened
  cases hreg : register s key with
  | mk mid isOpen =>
    rw [hreg] at hended hopen
    cases hopen
    exact ⟨mid, hended, (keeps_refreshThen _ key .opened).congr rfl rfl rfl⟩

theorem keeps_minted (s : AppState) (key : String)
    (hfits : ∀ change ∈ s.parkedChanges, change.key = key → change.FitsInt) :
    ∃ mid, Ended s mid ∧ Keeps [] mid (minted s key) := by
  obtain ⟨hended, hopen⟩ := ended_register hfits
  unfold minted
  cases hreg : register s key with
  | mk mid isOpen =>
    rw [hreg] at hended hopen
    cases hopen
    exact ⟨mid, hended, keeps_showMain mid key⟩

theorem keeps_restored (s : AppState) (plan : RestorePlan) (summaries : List SessionSummary)
    (rest resumed : List String) (key : String)
    (hfits : ∀ change ∈ s.parkedChanges, change.key = key → change.FitsInt) :
    ∃ mid, Ended s mid ∧ Keeps plan.resumeKeys mid (restored s plan summaries rest resumed key) := by
  obtain ⟨hended, hopen⟩ := ended_register hfits
  unfold restored
  cases hreg : register s key with
  | mk mid isOpen =>
    rw [hreg] at hended hopen
    cases hopen
    exact ⟨mid, hended, keeps_restoreNext mid plan summaries rest _⟩

omit [HeaderReader] in
private theorem keeps_same {s s' : AppState} {t : Task} (ht : t.opens = false)
    (hcount : s'.inFlightOpens = s.inFlightOpens) (hpending : s'.pendingKeys = s.pendingKeys)
    (hparked : s'.parkedChanges = s.parkedChanges) : Keeps [] s (s', t) :=
  .of_same hcount ht (fun _ hk => ⟨hpending ▸ hk, List.not_mem_nil⟩) hparked

omit [HeaderReader] in
private theorem keeps_onConnectFailure (s : AppState) (failure : CoreFailure) :
    Keeps [] s (onConnectFailure s failure, .returned) := by
  unfold onConnectFailure
  split <;> exact keeps_same rfl rfl rfl rfl

/-- The plan is announced, and its first open begins. -/
private theorem keeps_choosing (s : AppState) (plan : RestorePlan) (summaries : List SessionSummary) :
    Keeps [] s (restoreNext { s with pendingKeys := s.pendingKeys ∪ plan.resumeKeys.toFinset } plan summaries
      plan.resumeKeys []) := by
  have h := keeps_restoreNext { s with pendingKeys := s.pendingKeys ∪ plan.resumeKeys.toFinset } plan summaries
    plan.resumeKeys []
  refine ⟨h.count, ?_, h.parked⟩
  intro key hkey
  refine (h.pending key hkey).imp_right ?_
  rintro ⟨hmem, hplan⟩
  rcases Finset.mem_union.1 hmem with hold | hnew
  · exact ⟨hold, List.not_mem_nil⟩
  · exact absurd (List.mem_toFinset.1 hnew) hplan

/-- A coroutine that is in no open, unless it forgets the gateway. -/
theorem keeps_answered {s : AppState} {t : Task} {a : CoreAnswer} {r : AppState × Task} (h : Answered s t a r)
    (hquiet : t.opens = false) : (t = .forgetting ∧ a = .done ∧ r = (forgot s, .returned)) ∨ Keeps [] s r := by
  cases h with
  | restored | restoreFailed | minted | mintFailed | opened | openFailed => cases hquiet
  | forgot => exact .inl ⟨rfl, rfl, rfl⟩
  | unpaired | resumed | loggedIn | connected | listed | listFailed | paired | pairFailed | forgetFailed | resetFailed
  | closeFailed | titleFailed | refreshFailed => exact .inr (keeps_same rfl rfl rfl rfl)
  | loginFailed failure | connectFailed failure | mainFailed _ failure => exact .inr (keeps_onConnectFailure s failure)
  | chosen summaries lastActive plan => exact .inr (keeps_choosing s plan summaries)
  | reset => exact .inr ((keeps_beginOpen _ (.opening "") rfl).congr rfl rfl rfl)
  | closed key => exact .inr (keeps_closed s key)
  | titled key => exact .inr (keeps_refreshThen s key .header)
  | refreshed key tail => exact .inr (keeps_finish s key _ tail)

/-- A coroutine that is in an open. -/
theorem ended_answered {s : AppState} {t : Task} {a : CoreAnswer} {r : AppState × Task} (h : Answered s t a r)
    (hopens : t.opens = true)
    (hfits : ∀ key, a = .opened key → ∀ change ∈ s.parkedChanges, change.key = key → change.FitsInt) :
    ∃ mid, Ended s mid ∧ Keeps t.planned mid r := by
  cases h with
  | restored plan summaries asked key rest resumed =>
    exact keeps_restored s plan summaries rest resumed key (hfits key rfl)
  | restoreFailed plan summaries asked rest resumed =>
    exact ⟨_, ended_finish s, keeps_restoreNext _ plan summaries rest resumed⟩
  | minted key => exact keeps_minted s key (hfits key rfl)
  | mintFailed => exact ⟨_, ended_finish s, keeps_same rfl rfl rfl rfl⟩
  | opened profile key => exact keeps_opened s key profile (hfits key rfl)
  | openFailed => exact ⟨_, ended_finish s, keeps_same rfl rfl rfl rfl⟩
  | _ => cases hopens

end

/-! ### One step of a coroutine -/

/-- What a step of a coroutine does to the bookkeeping, which was in an open before it or not. -/
structure Books (opens : Bool) (planned : List String) (s : AppState) (r : AppState × Task) : Prop where
  count : r.1.inFlightOpens + opens.toNat = s.inFlightOpens + r.2.opens.toNat
  pending : ∀ key ∈ r.1.pendingKeys, key ∈ r.2.planned ∨ (key ∈ s.pendingKeys ∧ key ∉ planned)
  parked : opens.toNat ≤ s.inFlightOpens → (s.inFlightOpens = 0 → s.parkedChanges = []) →
    r.1.inFlightOpens = 0 → r.1.parkedChanges = []

private theorem Keeps.books {s : AppState} {r : AppState × Task} (h : Keeps [] s r) : Books false [] s r := by
  have hcount := h.count
  refine ⟨by rw [Bool.toNat_false]; omega, h.pending, ?_⟩
  intro hle hparked hzero
  rw [h.parked]
  rw [Bool.toNat_false] at hle
  exact hparked (by omega)

private theorem Ended.books {planned : List String} {s mid : AppState} {r : AppState × Task} (hended : Ended s mid)
    (h : Keeps planned mid r) : Books true planned s r := by
  have hcount := h.count
  have hless := hended.count
  refine ⟨by rw [Bool.toNat_true]; omega, ?_, ?_⟩
  · intro key hkey
    exact (h.pending key hkey).imp_right fun hmid => ⟨hended.pending hmid.1, hmid.2⟩
  · intro hle _ hzero
    rw [h.parked]
    rw [Bool.toNat_true] at hle
    exact hended.parked (by omega)

private theorem planned_of_quiet {t : Task} (h : t.opens = false) : t.planned = [] := by
  cases t with
  | restoring plan summaries rest resumed => cases h
  | _ => rfl

/-- The loop over the channel. -/
private theorem books_onEvent {s s' : AppState} {event : CoreEvent} {launched : List Task}
    (h : onEvent s event = some (s', launched)) :
    Books false [] s (s', .draining) ∧ ∀ t ∈ launched, t.opens = false := by
  cases event with
  | connection status =>
    cases h
    have hkeeps : Keeps [] s (s.onConnectionStatus status, .draining) := keeps_same rfl rfl rfl rfl
    exact ⟨hkeeps.books, by simp⟩
  | transcript change =>
    obtain ⟨next, hchange, heq⟩ := Option.map_eq_some_iff.1 h
    cases heq
    refine ⟨?_, ?_⟩
    · rcases AppState.onTranscriptChange_eq hchange with ⟨-, rfl⟩ | ⟨-, sessions, rfl, -⟩
      · by_cases hpos : s.inFlightOpens > 0
        · rw [if_pos hpos]
          obtain ⟨parked, hpark⟩ := s.park_eq change
          rw [hpark]
          refine ⟨rfl, fun k hk => .inr ⟨hk, List.not_mem_nil⟩, ?_⟩
          intro _ _ hzero
          dsimp only at hzero
          omega
        · rw [if_neg hpos]
          have hkeeps : Keeps [] s (s, .draining) := keeps_same rfl rfl rfl rfl
          exact hkeeps.books
      · have hkeeps : Keeps [] s ({ s with sessions := sessions }, .draining) := keeps_same rfl rfl rfl rfl
        exact hkeeps.books
    · intro t ht
      split at ht
      · rw [List.mem_singleton.1 ht]
        rfl
      · cases ht

/-- One step of a coroutine: the gateway is forgotten, or the bookkeeping moves with it. -/
theorem books_next [HeaderReader] {s s' : AppState} {t t' : Task} {input : Input} {launched : List Task}
    (h : next s t input = some (s', t', launched))
    (hfits : ∀ key, input = .answer (.opened key) → ∀ change ∈ s.parkedChanges, change.key = key → change.FitsInt) :
    (∀ u ∈ launched, u.opens = false) ∧
      ((t = .forgetting ∧ input = .answer .done ∧ s' = forgot s ∧ t' = .returned) ∨
        Books t.opens t.planned s (s', t')) := by
  rcases next_cases h with ⟨call, rfl, rfl, heq⟩ | ⟨event, after, spawned, rfl, rfl, hevent, heq⟩ |
    ⟨a, r, rfl, hanswer, heq⟩
  · cases heq
    exact ⟨by simp, .inr (keeps_run s call).books⟩
  · cases heq
    obtain ⟨hbooks, hlaunched⟩ := books_onEvent hevent
    exact ⟨hlaunched, .inr hbooks⟩
  · cases heq
    refine ⟨by simp, ?_⟩
    cases hopens : t.opens with
    | false =>
      rw [planned_of_quiet hopens]
      rcases keeps_answered hanswer hopens with ⟨rfl, rfl, rfl⟩ | hkeeps
      · exact .inl ⟨rfl, rfl, rfl, rfl⟩
      · exact .inr hkeeps.books
    | true =>
      obtain ⟨mid, hended, hkeeps⟩ := ended_answered hanswer hopens (fun key ha => hfits key (congrArg _ ha))
      exact .inr (hended.books hkeeps)

/-! ### Runs -/

/-- The bookkeeping of all coroutines. -/
structure Counted (w : System AppState Task) : Prop where
  count : w.shared.inFlightOpens = w.tasks.countP Task.opens
  pending : ∀ key ∈ w.shared.pendingKeys, ∃ t ∈ w.tasks, key ∈ t.planned
  parked : w.shared.inFlightOpens = 0 → w.shared.parkedChanges = []

/-- The gateway is forgotten while no open is in progress, and what is parked for a session that registers has row
indices that fit an `Int`. -/
def Undisturbed (w : System AppState Task) : Tasks.Label Task Input Empty → Prop
  | .task i (.answer .done) => w.tasks[i]? = some .forgetting → ∀ t ∈ w.tasks, t.opens = false
  | .task _ (.answer (.opened key)) => ∀ change ∈ w.shared.parkedChanges, change.key = key → change.FitsInt
  | _ => True

theorem counted_start : Counted start := by
  refine ⟨rfl, ?_, fun _ => rfl⟩
  intro key hkey
  exact absurd hkey (Finset.notMem_empty key)

private theorem entry_called {s : AppState} {t : Task} (h : entry s t = true) : t.opens = false ∧ t.planned = [] := by
  cases t with
  | called call => exact ⟨rfl, rfl⟩
  | _ => cases h

private theorem fits_of_undisturbed {w : System AppState Task} {i : Nat} {input : Input}
    (h : Undisturbed w (.task i input)) {key : String} (hinput : input = .answer (.opened key)) :
    ∀ change ∈ w.shared.parkedChanges, change.key = key → change.FitsInt := by
  subst hinput
  exact h

private theorem idle_of_undisturbed {w : System AppState Task} {i : Nat} {input : Input}
    (h : Undisturbed w (.task i input)) (hinput : input = .answer .done) (ht : w.tasks[i]? = some .forgetting) :
    ∀ t ∈ w.tasks, t.opens = false := by
  subst hinput
  exact h ht

theorem Counted.exact {w : System AppState Task} (h : Counted w) :
    w.shared.Exact .android (w.tasks.countP Task.opens) := by
  refine AppState.exact_of_quiet h.count ?_
  intro hzero
  refine ⟨?_, h.parked hzero⟩
  rw [Finset.eq_empty_iff_forall_notMem]
  intro key hkey
  obtain ⟨t, ht, hplanned⟩ := h.pending key hkey
  have hopens : t.opens = true := by
    by_contra hclosed
    rw [planned_of_quiet (Bool.eq_false_iff.2 hclosed)] at hplanned
    cases hplanned
  have hpos : 0 < w.tasks.countP Task.opens := List.countP_pos_iff.2 ⟨t, ht, hopens⟩
  have hcount := h.count
  omega

variable [HeaderReader]

theorem counted_step {w w' : System AppState Task} {l : Tasks.Label Task Input Empty} (h : Counted w)
    (hok : Undisturbed w l) (hstep : program.step w l = some w') : Counted w' := by
  have hidle : (∀ t ∈ w.tasks, t.opens = false) → w.shared.inFlightOpens = 0 := by
    intro hall
    rw [h.count, List.countP_eq_zero.2 fun t ht => by rw [hall t ht]; decide]
    rfl
  refine ⟨?_, ?_, ?_⟩
  · refine Program.balance_step (f := AppState.inFlightOpens) hstep h.count (fun t ht => (entry_called ht).1) ?_
      (fun e => e.elim)
    rintro i input t s' t' launched rfl ht hnext
    obtain ⟨hlaunched, hforget | hbooks⟩ := books_next hnext fun key hinput => fits_of_undisturbed hok hinput
    · obtain ⟨rfl, hinput, rfl, rfl⟩ := hforget
      have hnone := hidle (idle_of_undisturbed hok hinput ht)
      rw [hnone, List.countP_eq_zero.2 fun u hu => by rw [hlaunched u hu]; decide]
      rfl
    · have hcount := hbooks.count
      rw [List.countP_eq_zero.2 fun u hu => by rw [hlaunched u hu]; decide]
      dsimp only at hcount
      omega
  · refine Program.exists_step (N := fun s key => key ∈ s.pendingKeys) (G := fun key t => key ∈ t.planned) hstep
      h.pending ?_ (fun e => e.elim)
    rintro i input t s' t' launched rfl ht hnext key hkey
    obtain ⟨-, hforget | hbooks⟩ := books_next hnext fun k hinput => fits_of_undisturbed hok hinput
    · obtain ⟨-, -, rfl, -⟩ := hforget
      exact absurd hkey (Finset.notMem_empty key)
    · exact (hbooks.pending key hkey).imp_right .inr
  · cases l with
    | start t =>
      obtain ⟨-, rfl⟩ := Program.step_start hstep
      exact h.parked
    | task i input =>
      obtain ⟨t, s', t', launched, ht, hnext, rfl⟩ := Program.step_task hstep
      obtain ⟨-, hforget | hbooks⟩ := books_next hnext fun key hinput => fits_of_undisturbed hok hinput
      · obtain ⟨rfl, hinput, rfl, rfl⟩ := hforget
        intro _
        exact h.parked (hidle (idle_of_undisturbed hok hinput ht))
      · refine hbooks.parked ?_ h.parked
        rw [h.count]
        cases hopens : t.opens with
        | false => exact Int.natCast_nonneg _
        | true =>
          have hpos : 0 < w.tasks.countP Task.opens :=
            List.countP_pos_iff.2 ⟨t, List.mem_of_getElem? ht, hopens⟩
          rw [Bool.toNat_true]
          omega
    | env e => exact e.elim

/-- The bookkeeping of the repository is exact after every run that is not disturbed. -/
theorem exact_run {w : System AppState Task} {labels : List (Tasks.Label Task Input Empty)}
    (hok : Meets program.step Undisturbed start labels) (hrun : exec program.step start labels = some w) :
    w.shared.Exact .android (w.tasks.countP Task.opens) :=
  (exec_invariant program.step (fun _ _ _ h ha hs => counted_step h ha hs) counted_start hok hrun).exact

end Repository

end Hermo
