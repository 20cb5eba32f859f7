import Hermo.App.AppFeature
import Hermo.App.Registration
import Hermo.App.RepositoryOpens

/-!
# The opens of the iOS feature

`inFlightOpens` counts the effects that are to report the end of an open.  `Reduces` says what an action does to the
bookkeeping and `Resumes` what an effect does to it.  Three things break it: a reset, whose own open is not counted; a
forgotten gateway while an open is in progress; and a second connect, which cancels a restore that has announced its
keys.
-/

namespace Hermo.AppFeature

open Store Run

namespace Effect

/-- The effect is to report the end of an open. -/
def opens : Effect → Bool
  | .restoring _ _ _ _ | .minting | .restarting | .opening _ => true
  | _ => false

/-- The keys that were announced for it. -/
def planned : Effect → List String
  | .restoring plan _ _ _ => plan.resumeKeys
  | _ => []

theorem opens_of_planned {e : Effect} {key : String} (h : key ∈ e.planned) : e.opens = true ∧ e.connects = true := by
  cases e with
  | restoring plan summaries rest resumed => exact ⟨rfl, rfl⟩
  | _ => cases h

end Effect

namespace Action

/-- The action reports the end of an open. -/
def ends : Action → Bool
  | .newSessionOpened _ | .existingSessionOpened _ | .botChatOpened _ _ | .sessionOpenFailed
  | .mainSessionRestored _ _ _ _ | .mainSessionRestoreFailed _ => true
  | _ => false

/-- The action counts the restore it announces. -/
def begins : Action → Bool
  | .resumePlanned _ => true
  | _ => false

def announced : Action → List String
  | .resumePlanned keys => keys
  | _ => []

/-- The keys that are no longer pending. -/
def taken : Action → List String
  | .mainSessionRestored planned _ _ _ => planned
  | .mainSessionRestoreFailed planned => planned
  | _ => []

/-- The action forgets every open. -/
def clears : Action → Bool
  | .forgotGateway | .sessionsCleared => true
  | _ => false

end Action

/-! ### Actions -/

/-- What an action does to the bookkeeping. -/
structure Reduces (s : AppState) (a : Action) (s' : AppState) (started : List Effect) : Prop where
  count : a.ends.toNat ≤ s.inFlightOpens →
    s'.inFlightOpens + a.ends.toNat = s.inFlightOpens + a.begins.toNat + started.countP Effect.opens
  pending : ∀ key ∈ s'.pendingKeys, key ∈ a.announced ∨ (key ∈ s.pendingKeys ∧ key ∉ a.taken)
  parked : a.ends.toNat ≤ s.inFlightOpens → (s.inFlightOpens = 0 → s.parkedChanges = []) → s'.inFlightOpens = 0 →
    s'.parkedChanges = []
  counted : .restarting ∉ started

/-- What an effect sends and goes on with. -/
structure Resumes (e : Effect) (action : Option Action) (rest : Option Effect) : Prop where
  count : e.opens.toNat + (action.any Action.begins).toNat = (rest.any Effect.opens).toNat +
    (action.any Action.ends).toNat
  planned : ∀ key ∈ e.planned, (∃ r, rest = some r ∧ key ∈ r.planned) ∨ ∃ a, action = some a ∧ key ∈ a.taken
  announced : ∀ a, action = some a → ∀ key ∈ a.announced, ∃ r, rest = some r ∧ key ∈ r.planned
  internal : ∀ a, action = some a → a.clears = false ∧ sent a = false
  counted : rest ≠ some .restarting

private theorem counted_of_countP {started : List Effect} (h : started.countP Effect.opens = 0) :
    .restarting ∉ started := fun hmem => List.countP_eq_zero.1 h _ hmem rfl

/-- An action that leaves the bookkeeping alone. -/
private theorem Reduces.of_same {s s' : AppState} {a : Action} {started : List Effect}
    (ha : a.ends = false ∧ a.begins = false ∧ a.taken = []) (hstarted : started.countP Effect.opens = 0)
    (hcount : s'.inFlightOpens = s.inFlightOpens) (hpending : s'.pendingKeys = s.pendingKeys)
    (hparked : s'.parkedChanges = s.parkedChanges) : Reduces s a s' started := by
  obtain ⟨hends, hbegins, htaken⟩ := ha
  refine ⟨?_, ?_, ?_, counted_of_countP hstarted⟩
  · intro _
    rw [hcount, hends, hbegins, hstarted, Bool.toNat_false]
    omega
  · intro key hkey
    rw [htaken]
    exact .inr ⟨hpending ▸ hkey, List.not_mem_nil⟩
  · intro _ hquiet hzero
    rw [hparked]
    exact hquiet (hcount ▸ hzero)

/-- An action that opens a session. -/
private theorem Reduces.of_open {s : AppState} {a : Action} {verb : Opening}
    (ha : a.ends = false ∧ a.begins = false ∧ a.taken = []) {s' : AppState}
    (hcount : s'.inFlightOpens = s.inFlightOpens + 1) (hpending : s'.pendingKeys = s.pendingKeys)
    (hparked : s'.parkedChanges = s.parkedChanges) : Reduces s a s' [.opening verb] := by
  obtain ⟨hends, hbegins, htaken⟩ := ha
  refine ⟨?_, ?_, ?_, by simp⟩
  · intro _
    have hone : [Effect.opening verb].countP Effect.opens = 1 := rfl
    rw [hcount, hends, hbegins, hone, Bool.toNat_false]
    omega
  · intro key hkey
    rw [htaken]
    exact .inr ⟨hpending ▸ hkey, List.not_mem_nil⟩
  · intro hle hquiet hzero
    rw [hends, Bool.toNat_false] at hle
    rw [hparked]
    omega

/-- An action that ends with `finishInFlightOpen`. -/
private theorem Reduces.of_finish {s mid : AppState} {a : Action} {started : List Effect}
    (ha : a.ends = true ∧ a.begins = false) (hstarted : started.countP Effect.opens = 0) {s' : AppState}
    (hcount : s'.inFlightOpens = (mid.finishInFlightOpen .ios).inFlightOpens)
    (hparked : s'.parkedChanges = (mid.finishInFlightOpen .ios).parkedChanges)
    (hmid : mid.inFlightOpens = s.inFlightOpens)
    (hpending : ∀ key ∈ s'.pendingKeys, key ∈ s.pendingKeys ∧ key ∉ a.taken) : Reduces s a s' started := by
  obtain ⟨hends, hbegins⟩ := ha
  refine ⟨?_, fun key hkey => .inr (hpending key hkey), ?_, counted_of_countP hstarted⟩
  · intro hle
    rw [hends, Bool.toNat_true] at hle
    have hpos : mid.inFlightOpens > 0 := by omega
    have hless : (mid.finishInFlightOpen .ios).inFlightOpens = mid.inFlightOpens - 1 := if_pos hpos
    rw [hcount, hless, hends, hbegins, hstarted, hmid, Bool.toNat_true, Bool.toNat_false]
    omega
  · intro _ _ hzero
    rw [hparked]
    rw [hcount] at hzero
    exact if_pos hzero

private theorem performSwitchTab_books {s s' : AppState} {key : String} {started : List Effect} {a : Action}
    (ha : a.ends = false ∧ a.begins = false ∧ a.taken = []) (h : performSwitchTab s key = (s', started)) :
    Reduces s a s' started := by
  unfold performSwitchTab at h
  cases htap : tabTap s.tabs s.currentKey key with
  | none =>
    rw [htap] at h
    cases h
    exact .of_same ha rfl rfl rfl rfl
  | some next =>
    simp only [htap] at h
    cases hcur : next.current with
    | none =>
      rw [hcur] at h
      cases h
      exact .of_same ha rfl rfl rfl rfl
    | some current =>
      rw [hcur] at h
      cases h
      exact .of_same ha rfl rfl rfl rfl

theorem registered_of_completed {s s' : AppState} {key : String}
    (h : completed (s.registerKey .ios key) = some s') : AppState.Registered s key s' := by
  unfold completed at h
  cases hreg : s.registerKey .ios key with
  | error left =>
    rw [hreg] at h
    cases h
  | ok registered =>
    rw [hreg] at h
    cases h
    exact AppState.registered_of_ok hreg

private theorem sessionOpened_books {s s' : AppState} {key : String} {stamp : Sessions → Sessions}
    {started : List Effect} {a : Action} (ha : a.ends = true ∧ a.begins = false ∧ a.taken = [])
    (h : sessionOpened s key stamp = some (s', started)) : Reduces s a s' started := by
  obtain ⟨registered, hreg, heq⟩ := Option.map_eq_some_iff.1 h
  obtain ⟨mid, hmid, rfl⟩ := Option.map_eq_some_iff.1 hreg
  cases heq
  have hregistered := registered_of_completed hmid
  refine .of_finish ⟨ha.1, ha.2.1⟩ rfl rfl rfl hregistered.inFlightOpens ?_
  intro k hk
  rw [ha.2.2]
  have hmem : k ∈ mid.pendingKeys := hk
  rw [hregistered.pendingKeys] at hmem
  exact ⟨Finset.mem_of_mem_erase hmem, List.not_mem_nil⟩

private theorem tabClosed_books {s s' : AppState} {key : String} {started : List Effect}
    (h : tabClosed s key = (s', started)) : Reduces s (.tabClosed key) s' started := by
  unfold tabClosed at h
  dsimp only at h
  split at h
  · cases h
    exact .of_same ⟨rfl, rfl, rfl⟩ rfl rfl rfl rfl
  · split at h
    · cases h
      exact .of_open ⟨rfl, rfl, rfl⟩ rfl rfl rfl
    · cases h
      exact .of_same ⟨rfl, rfl, rfl⟩ rfl rfl rfl rfl

/-- What the loop over the resumed keys does. -/
structure RestoredKeys (s : AppState) (resumed : List String) (s' : AppState) : Prop where
  phase : s'.phase = s.phase
  endpointText : s'.endpointText = s.endpointText
  currentKey : s'.currentKey = s.currentKey
  inFlightOpens : s'.inFlightOpens = s.inFlightOpens
  pendingKeys : s'.pendingKeys = s.pendingKeys
  tabs : ∀ k, k ∈ s'.tabs.keys ↔ k ∈ s.tabs.keys ∨ k ∈ resumed
  distinct : s.tabs.keys.Nodup → s'.tabs.keys.Nodup
  sessions : ∀ k ∈ s'.sessions, k ∈ s.sessions ∨ k ∈ resumed

theorem restoredKeys_of_foldlM {s s' : AppState} {resumed : List String} (h : resumed.foldlM restoreKey s = some s') :
    RestoredKeys s resumed s' := by
  induction resumed generalizing s with
  | nil =>
    cases h
    exact ⟨rfl, rfl, rfl, rfl, rfl, by simp, id, fun k hk => .inl hk⟩
  | cons key resumed ih =>
    rw [List.foldlM_cons] at h
    obtain ⟨mid, hmid, hrest⟩ := Option.bind_eq_some_iff.1 h
    have hrestored := ih hrest
    unfold restoreKey completed at hmid
    cases hdrain : s.drainParked .ios key with
    | error left =>
      rw [hdrain] at hmid
      cases hmid
    | ok drained =>
      obtain ⟨sessions, rfl, hmem⟩ := AppState.drainParked_ok hdrain
      rw [hdrain] at hmid
      cases hmid
      refine ⟨hrestored.phase, hrestored.endpointText, hrestored.currentKey, hrestored.inFlightOpens,
        hrestored.pendingKeys, ?_, fun hd => hrestored.distinct (TabSet.nodup_add hd key), ?_⟩
      · intro k
        rw [hrestored.tabs, TabSet.mem_add, List.mem_cons, or_assoc]
      · intro k hk
        rw [List.mem_cons]
        rcases hrestored.sessions k hk with hk | hk
        · rcases mem_ensureSession.1 hk with hk | rfl
          · exact (hmem k hk).imp_right .inl
          · exact .inr (.inl rfl)
        · exact .inr (.inr hk)

private theorem mainSessionRestored_books {s s' : AppState} {planned resumed : List String}
    {summaries : List SessionSummary} {current : Option String}
    (h : mainSessionRestored s planned resumed summaries current = some s') :
    Reduces s (.mainSessionRestored planned resumed summaries current) s' [] := by
  obtain ⟨mid, hmid, rfl⟩ := Option.map_eq_some_iff.1 h
  have hrestored := restoredKeys_of_foldlM hmid
  have hout : ∀ k ∈ mid.pendingKeys \ planned.toFinset, k ∈ s.pendingKeys ∧ k ∉ planned := by
    intro k hk
    rwa [hrestored.pendingKeys, Finset.mem_sdiff, List.mem_toFinset] at hk
  cases restoredCurrent resumed current <;>
    exact .of_finish ⟨rfl, rfl⟩ rfl rfl rfl hrestored.inFlightOpens hout

private theorem mainSessionRestoreFailed_books (s : AppState) (planned : List String) :
    Reduces s (.mainSessionRestoreFailed planned) (mainSessionRestoreFailed s planned) [] := by
  refine .of_finish ⟨rfl, rfl⟩ rfl rfl rfl rfl ?_
  intro k hk
  have hmem : k ∈ s.pendingKeys \ planned.toFinset := hk
  rwa [Finset.mem_sdiff, List.mem_toFinset] at hmem

/-- One action of the reducer, unless it forgets every open. -/
theorem reduces_of_reduce [HeaderReader] {s s' : AppState} {a : Action} {started : List Effect}
    (h : reduce s a = some (s', started)) (hclears : a.clears = false) : Reduces s a s' started := by
  cases a with
  | forgotGateway => cases hclears
  | sessionsCleared => cases hclears
  | networkAvailable =>
    cases h
    refine .of_same ⟨rfl, rfl, rfl⟩ ?_ rfl rfl rfl
    split <;> rfl
  | core event =>
    cases event with
    | connection status =>
      cases h
      exact .of_same ⟨rfl, rfl, rfl⟩ rfl rfl rfl rfl
    | transcript change =>
      obtain ⟨next, hchange, heq⟩ := Option.map_eq_some_iff.1 h
      cases heq
      have hstarted : (if s.refreshesHeader change then [Effect.refreshing change.key] else []).countP
          Effect.opens = 0 := by
        split <;> rfl
      rcases AppState.onTranscriptChange_eq hchange with ⟨-, rfl⟩ | ⟨-, sessions, rfl, -⟩
      · by_cases hpos : s.inFlightOpens > 0
        · rw [if_pos hpos]
          obtain ⟨parked, hpark⟩ := s.park_eq change
          rw [hpark]
          refine ⟨?_, fun k hk => .inr ⟨hk, List.not_mem_nil⟩, ?_, counted_of_countP hstarted⟩
          · intro _
            rw [hstarted]
            exact (Int.add_zero _).symm
          · intro _ _ hzero
            dsimp only at hzero
            omega
        · rw [if_neg hpos]
          exact .of_same ⟨rfl, rfl, rfl⟩ hstarted rfl rfl rfl
      · exact .of_same ⟨rfl, rfl, rfl⟩ hstarted rfl rfl rfl
  | connectFailed isAuthShape closedReason =>
    cases h
    unfold connectFailed
    split <;> exact .of_same ⟨rfl, rfl, rfl⟩ rfl rfl rfl rfl
  | resumePlanned keys =>
    cases h
    refine ⟨fun _ => rfl, ?_, ?_, List.not_mem_nil⟩
    · intro k hk
      rcases Finset.mem_union.1 hk with hold | hnew
      · exact .inr ⟨hold, List.not_mem_nil⟩
      · exact .inl (List.mem_toFinset.1 hnew)
    · intro hle _ hzero
      have hsum : s.inFlightOpens + 1 = 0 := hzero
      have hpos : (0 : Int) ≤ s.inFlightOpens := hle
      omega
  | mainSessionRestored planned resumed summaries current =>
    obtain ⟨next, hrestored, heq⟩ := Option.map_eq_some_iff.1 h
    cases heq
    exact mainSessionRestored_books hrestored
  | mainSessionRestoreFailed planned =>
    cases h
    exact mainSessionRestoreFailed_books s planned
  | headerRefreshed key summary =>
    cases h
    unfold AppState.applyHeaderRefresh
    split <;> exact .of_same ⟨rfl, rfl, rfl⟩ rfl rfl rfl rfl
  | openNewSession =>
    cases h
    exact .of_open ⟨rfl, rfl, rfl⟩ rfl rfl rfl
  | openExistingSession storedId =>
    simp only [reduce, Option.some_inj] at h
    split at h
    · exact performSwitchTab_books ⟨rfl, rfl, rfl⟩ h
    · cases h
      exact .of_open ⟨rfl, rfl, rfl⟩ rfl rfl rfl
  | openBotChat profile =>
    simp only [reduce, Option.some_inj] at h
    split at h
    · exact performSwitchTab_books ⟨rfl, rfl, rfl⟩ h
    · cases h
      exact .of_open ⟨rfl, rfl, rfl⟩ rfl rfl rfl
  | switchTab key => exact performSwitchTab_books ⟨rfl, rfl, rfl⟩ (Option.some_inj.1 h)
  | closeTab key =>
    cases h
    refine .of_same ⟨rfl, rfl, rfl⟩ ?_ rfl rfl rfl
    split <;> rfl
  | setSessionTitle title =>
    cases h
    refine .of_same ⟨rfl, rfl, rfl⟩ ?_ rfl rfl rfl
    cases s.currentKey <;> rfl
  | newSessionOpened key => exact sessionOpened_books ⟨rfl, rfl, rfl⟩ h
  | existingSessionOpened key => exact sessionOpened_books ⟨rfl, rfl, rfl⟩ h
  | botChatOpened key profile =>
    have hopened : sessionOpened s key (withProfile · key profile) = some (s', started) := h
    exact sessionOpened_books ⟨rfl, rfl, rfl⟩ hopened
  | sessionOpenFailed =>
    cases h
    exact .of_finish ⟨rfl, rfl⟩ rfl rfl rfl rfl fun k hk => ⟨hk, List.not_mem_nil⟩
  | sessionReady key summary =>
    cases h
    obtain ⟨model, sessions, hafter⟩ := s.afterOpen_eq .ios key summary
    rw [hafter]
    exact .of_same ⟨rfl, rfl, rfl⟩ rfl rfl rfl rfl
  | tabClosed key => exact tabClosed_books (Option.some_inj.1 h)
  | _ =>
    cases h
    exact .of_same ⟨rfl, rfl, rfl⟩ rfl rfl rfl rfl

/-! ### Effects -/

/-- An effect that is in no open, and what it sends touches none. -/
private theorem resumes_quiet {e : Effect} {action : Option Action} {rest : Option Effect} (he : e.opens = false)
    (hrest : rest.any Effect.opens = false)
    (haction : ∀ a, action = some a → a.ends = false ∧ a.begins = false ∧ a.announced = [] ∧ a.clears = false ∧
      sent a = false) :
    Resumes e action rest := by
  refine ⟨?_, ?_, ?_, ?_, ?_⟩
  · cases action with
    | none => rw [he, hrest]; rfl
    | some a =>
      obtain ⟨hends, hbegins, -⟩ := haction a rfl
      rw [he, hrest, Option.any_some, Option.any_some, hends, hbegins]
  · intro key hkey
    rw [(Effect.opens_of_planned hkey).1] at he
    cases he
  · intro a ha
    rw [(haction a ha).2.2.1]
    exact fun key hkey => absurd hkey List.not_mem_nil
  · exact fun a ha => (haction a ha).2.2.2
  · rintro rfl
    cases hrest

private theorem resumes_silent {e : Effect} {rest : Option Effect} (he : e.opens = false)
    (hrest : rest.any Effect.opens = false) : Resumes e none rest :=
  resumes_quiet he hrest fun _ ha => nomatch ha

private theorem resumes_sends {e : Effect} {a : Action} {rest : Option Effect} (he : e.opens = false)
    (hrest : rest.any Effect.opens = false)
    (ha : a.ends = false ∧ a.begins = false ∧ a.announced = [] ∧ a.clears = false ∧
      sent a = false) : Resumes e (some a) rest :=
  resumes_quiet he hrest fun _ hb => Option.some_inj.1 hb ▸ ha

/-- An effect that reports the end of its open. -/
private theorem resumes_end {e : Effect} {a : Action} (he : e.opens = true)
    (ha : a.ends = true ∧ a.begins = false ∧ a.announced = [] ∧ a.clears = false ∧
      sent a = false)
    (htaken : ∀ key ∈ e.planned, key ∈ a.taken) : Resumes e (some a) none := by
  obtain ⟨hends, hbegins, hannounced, hinternal⟩ := ha
  refine ⟨?_, fun key hkey => .inr ⟨a, rfl, htaken key hkey⟩, ?_, ?_, by simp⟩
  · rw [he, Option.any_some, Option.any_some, hends, hbegins]
    rfl
  · intro b hb
    cases hb
    rw [hannounced]
    exact fun key hkey => absurd hkey List.not_mem_nil
  · exact fun b hb => Option.some_inj.1 hb ▸ hinternal

private theorem resumes_restoreNext (plan : RestorePlan) (summaries : List SessionSummary)
    (rest resumed more resumed' : List String) :
    Resumes (.restoring plan summaries rest resumed) (restoreNext plan summaries more resumed').1
      (restoreNext plan summaries more resumed').2 := by
  cases more with
  | nil =>
    unfold restoreNext restored
    by_cases hnone : resumed' = []
    · rw [if_pos hnone]
      exact resumes_end rfl ⟨rfl, rfl, rfl, rfl, rfl⟩ fun key hkey => hkey
    · rw [if_neg hnone]
      exact resumes_end rfl ⟨rfl, rfl, rfl, rfl, rfl⟩ fun key hkey => hkey
  | cons key more =>
    refine ⟨rfl, fun k hk => .inl ⟨_, rfl, hk⟩, fun a ha => (nomatch ha), fun a ha => (nomatch ha), ?_⟩
    intro heq
    cases heq

/-- One answer to an effect: it was to clear what the core forgot, or its opens move with it. -/
theorem resumes_of_resume {e : Effect} {answer : CoreAnswer} {r : Option Action × Option Effect}
    (h : Resumed e answer r) (hcounted : e ≠ .restarting) :
    (answer = .done ∧ (e = .forgetting ∧ r = (some .forgotGateway, none) ∨
      e = .clearing ∧ r = (some .sessionsCleared, some .restarting))) ∨ Resumes e r.1 r.2 := by
  cases h with
  | forgot => exact .inl ⟨rfl, .inl ⟨rfl, rfl⟩⟩
  | cleared => exact .inl ⟨rfl, .inr ⟨rfl, rfl⟩⟩
  | restarted | restartFailed => exact absurd rfl hcounted
  | unpaired | loggedIn | connected | listed | pairFailed | forgetFailed | clearFailed | closeFailed | titleFailed =>
    exact .inr (resumes_silent rfl rfl)
  | resumed | loginFailed | connectFailed | paired | closed | titled | readied =>
    exact .inr (resumes_sends rfl rfl ⟨rfl, rfl, rfl, rfl, rfl⟩)
  | chosen summaries lastActive plan =>
    right
    refine ⟨?_, fun key hkey => (nomatch hkey), ?_, fun a ha => Option.some_inj.1 ha ▸ ⟨rfl, rfl⟩, ?_⟩
    · by_cases hnone : plan.resumeKeys = []
      · rw [if_pos hnone]
        rfl
      · rw [if_neg hnone]
        rfl
    · intro a ha
      cases ha
      intro key hkey
      have hsome : plan.resumeKeys ≠ [] := List.ne_nil_of_mem hkey
      exact ⟨_, rfl, by rw [if_neg hsome]; exact hkey⟩
    · dsimp only
      split <;> simp
  | restored plan summaries => exact .inr (resumes_restoreNext plan summaries _ _ _ _)
  | restoreFailed plan summaries => exact .inr (resumes_restoreNext plan summaries _ _ _ _)
  | minted | mintFailed | openFailed =>
    exact .inr (resumes_end rfl ⟨rfl, rfl, rfl, rfl, rfl⟩ fun _ hk => (nomatch hk))
  | opened verb =>
    cases verb <;> exact .inr (resumes_end rfl ⟨rfl, rfl, rfl, rfl, rfl⟩ fun _ hk => (nomatch hk))
  | refreshed key summaries =>
    right
    dsimp only
    cases summaries.find? (·.key = key) with
    | none => exact resumes_silent rfl rfl
    | some summary => exact resumes_sends rfl rfl ⟨rfl, rfl, rfl, rfl, rfl⟩

/-! ### Runs -/

/-- The bookkeeping of all effects; no open of a reset is in flight. -/
structure Counted (w : System AppState Effect) : Prop where
  count : w.state.inFlightOpens = w.effects.countP Effect.opens
  pending : ∀ key ∈ w.state.pendingKeys, ∃ e ∈ w.effects, key ∈ e.planned
  parked : w.state.inFlightOpens = 0 → w.state.parkedChanges = []
  counted : .restarting ∉ w.effects

/-- No restore in flight is cancelled, no reset succeeds, and the gateway is forgotten while no open is in progress. -/
def Undisturbed (w : System AppState Effect) : Store.Label Action CoreAnswer → Prop
  | .send .tryResume | .send (.loginAndConnect _) => ∀ e ∈ w.effects, e.opens = true → e.connects = false
  | .send .networkAvailable => w.state.phase.isOffline → ∀ e ∈ w.effects, e.opens = true → e.connects = false
  | .resume i .done =>
    w.effects[i]? ≠ some .clearing ∧ (w.effects[i]? = some .forgetting → ∀ e ∈ w.effects, e.opens = false)
  | _ => True

/-- The app as it is launched. -/
def start : System AppState Effect := ⟨{}, []⟩

theorem counted_start : Counted start := by
  refine ⟨rfl, ?_, fun _ => rfl, List.not_mem_nil⟩
  intro key hkey
  exact absurd hkey (Finset.notMem_empty key)

private theorem begins_of_ends {a : Action} (h : a.ends = true) : a.begins = false := by
  cases a with
  | resumePlanned keys => cases h
  | _ => rfl

private theorem countP_toList (rest : Option Effect) :
    rest.toList.countP Effect.opens = (rest.any Effect.opens).toNat := by
  cases rest with
  | none => rfl
  | some e =>
    rw [Option.toList_some, List.countP_singleton, Option.any_some]
    cases e.opens <;> rfl

/-- The actions from outside end no open. -/
private theorem sent_quiet {a : Action} (h : sent a = true) :
    a.ends = false ∧ a.begins = false ∧ a.announced = [] ∧ a.clears = false := by
  cases a <;> first | exact ⟨rfl, rfl, rfl, rfl⟩ | cases h

/-- Only the actions that connect cancel anything. -/
private theorem cancels_undisturbed {w : System AppState Effect} {a : Action} (hok : Undisturbed w (.send a)) :
    ∀ e ∈ w.effects, e.opens = true → cancels w.state a e = false := by
  intro e he hopens
  cases a with
  | tryResume => exact hok e he hopens
  | loginAndConnect password => exact hok e he hopens
  | networkAvailable =>
    unfold cancels
    cases hoff : w.state.phase.isOffline with
    | false => rfl
    | true => exact hok hoff e he hopens
  | _ => rfl

/-- What comes from an effect connects nothing. -/
theorem cancels_internal {a : Action} (h : sent a = false) (s : AppState) (e : Effect) :
    cancels s a e = false := by
  cases a <;> first | rfl | cases h

theorem Counted.exact {w : System AppState Effect} (h : Counted w) :
    w.state.Exact .ios (w.effects.countP Effect.opens) := by
  refine AppState.exact_of_quiet h.count ?_
  intro hzero
  refine ⟨?_, h.parked hzero⟩
  rw [Finset.eq_empty_iff_forall_notMem]
  intro key hkey
  obtain ⟨e, he, hplanned⟩ := h.pending key hkey
  have hpos : 0 < w.effects.countP Effect.opens := List.countP_pos_iff.2 ⟨e, he, (Effect.opens_of_planned hplanned).1⟩
  have hcount := h.count
  omega

variable [HeaderReader]

/-- An action, sent from where the effect that sent it is accounted for. -/
private theorem counted_send {m w' : System AppState Effect} {a : Action} (hsend : feature.send m a = some w')
    (hclears : a.clears = false) (hle : a.ends.toNat ≤ m.state.inFlightOpens)
    (hcount : m.state.inFlightOpens + a.begins.toNat = m.effects.countP Effect.opens + a.ends.toNat)
    (hpending : ∀ key ∈ m.state.pendingKeys, key ∈ a.taken ∨ ∃ e ∈ m.effects, key ∈ e.planned)
    (hannounced : ∀ key ∈ a.announced, ∃ e ∈ m.effects, key ∈ e.planned)
    (hparked : m.state.inFlightOpens = 0 → m.state.parkedChanges = []) (hcounted : .restarting ∉ m.effects)
    (hkeep : ∀ e ∈ m.effects, e.opens = true → cancels m.state a e = false) : Counted w' := by
  obtain ⟨s', started, hreduce, rfl⟩ := Feature.send_eq hsend
  have hreduces := reduces_of_reduce hreduce hclears
  have hkept : ∀ {key}, (∃ e ∈ m.effects, key ∈ e.planned) →
      ∃ e ∈ m.effects.filter (fun e => !feature.cancels m.state a e) ++ started, key ∈ e.planned := by
    rintro key ⟨e, he, hplanned⟩
    have hopens := (Effect.opens_of_planned hplanned).1
    refine ⟨e, List.mem_append_left _ (List.mem_filter.2 ⟨he, ?_⟩), hplanned⟩
    change (!cancels m.state a e) = true
    rw [hkeep e he hopens]
    rfl
  refine ⟨?_, ?_, hreduces.parked hle hparked, ?_⟩
  · have hmoves := hreduces.count hle
    have hsum := Feature.count_send (f := feature) Effect.opens started hkeep
    dsimp only
    rw [hsum]
    omega
  · intro key hkey
    rcases hreduces.pending key hkey with hnew | ⟨hold, htaken⟩
    · exact hkept (hannounced key hnew)
    · exact hkept ((hpending key hold).resolve_left htaken)
  · intro hmem
    rcases Feature.mem_send hmem with hold | hnew
    · exact hcounted hold
    · exact hreduces.counted hnew

theorem counted_step {w w' : System AppState Effect} {l : Store.Label Action CoreAnswer} (h : Counted w)
    (hok : Undisturbed w l) (hstep : feature.step w l = some w') : Counted w' := by
  cases l with
  | send a =>
    obtain ⟨hsent, hsend⟩ := Feature.step_send hstep
    obtain ⟨hends, hbegins, hannounced, hclears⟩ := sent_quiet hsent
    have hcount := h.count
    refine counted_send hsend hclears ?_ ?_ (fun key hkey => .inr (h.pending key hkey)) ?_ h.parked h.counted
      (cancels_undisturbed hok)
    · rw [hends, hcount]
      exact Int.natCast_nonneg _
    · rw [hends, hbegins, hcount]
    · rw [hannounced]
      exact fun key hkey => absurd hkey List.not_mem_nil
  | resume i answer =>
    obtain ⟨e, action, rest, he, hresume, hafter⟩ := Feature.step_resume hstep
    have hmem : e ∈ w.effects := List.mem_of_getElem? he
    have hne : e ≠ .restarting := fun heq => h.counted (heq ▸ hmem)
    have hmoved := Feature.count_after Effect.opens he rest
    rw [countP_toList] at hmoved
    have hcount := h.count
    rcases resumes_of_resume (resumed_cases hresume) hne with ⟨rfl, hclear⟩ | hresumes
    · obtain ⟨hclearing, hidle⟩ := hok
      rcases hclear with ⟨rfl, ⟨⟩⟩ | ⟨rfl, -⟩
      · -- the gateway is forgotten, with no open in progress
        have hnone := hidle he
        obtain ⟨hnothing, -⟩ | ⟨a, ha, hsend⟩ := hafter
        · cases hnothing
        · cases ha
          obtain ⟨s', started, hreduce, rfl⟩ := Feature.send_eq hsend
          cases hreduce
          have hgone : ∀ e' ∈ (Feature.after w i none).effects, e'.opens = false := by
            intro e' he'
            exact hnone e' ((Feature.mem_after he').resolve_right (by simp))
          refine ⟨?_, fun key hkey => absurd hkey (Finset.notMem_empty key), fun _ => rfl, ?_⟩
          · rw [List.countP_eq_zero.2]
            · rfl
            · intro e' he'
              rw [hgone e' ((Feature.mem_send he').resolve_right List.not_mem_nil)]
              decide
          · intro hrestart
            rcases Feature.mem_send hrestart with hold | hnew
            · cases hgone _ hold
            · cases hnew
      · exact absurd he hclearing
    · have hbooks := hresumes.count
      dsimp only at hbooks
      -- a restore keeps the keys it announced, or hands them over in what it sends
      have hpending : ∀ key ∈ w.state.pendingKeys, (∃ a, action = some a ∧ key ∈ a.taken) ∨
          ∃ e' ∈ (Feature.after w i rest).effects, key ∈ e'.planned := by
        intro key hkey
        obtain ⟨e', he', hplanned⟩ := h.pending key hkey
        rcases Feature.mem_before he he' rest with rfl | hstays
        · rcases hresumes.planned key hplanned with ⟨r, hr, hmore⟩ | htaken
          · exact .inr ⟨r, Feature.mem_rest hr, hmore⟩
          · exact .inl htaken
        · exact .inr ⟨e', hstays, hplanned⟩
      have hcounted : .restarting ∉ (Feature.after w i rest).effects := by
        intro hrestart
        rcases Feature.mem_after hrestart with hold | hnew
        · exact h.counted hold
        · exact hresumes.counted hnew
      rcases hafter with ⟨rfl, rfl⟩ | ⟨a, rfl, hsend⟩
      · rw [Option.any_none, Option.any_none, Bool.toNat_false] at hbooks
        refine ⟨?_, ?_, h.parked, hcounted⟩
        · change w.state.inFlightOpens = _
          omega
        · intro key hkey
          refine (hpending key hkey).resolve_left ?_
          rintro ⟨a, ha, -⟩
          cases ha
      · rw [Option.any_some, Option.any_some] at hbooks
        obtain ⟨hclears, hinternal⟩ := hresumes.internal a rfl
        refine counted_send hsend hclears ?_ ?_ ?_ ?_ h.parked hcounted
          (fun e' _ _ => cancels_internal hinternal _ e')
        · change (a.ends.toNat : Int) ≤ w.state.inFlightOpens
          rw [hcount]
          cases hends : a.ends with
          | false => exact Int.natCast_nonneg _
          | true =>
            rw [hends, begins_of_ends hends] at hbooks
            have hopens : e.opens = true := by
              cases ho : e.opens with
              | true => rfl
              | false =>
                rw [ho] at hbooks
                simp at hbooks
            have hpos : 0 < w.effects.countP Effect.opens := List.countP_pos_iff.2 ⟨e, hmem, hopens⟩
            rw [Bool.toNat_true]
            omega
        · change w.state.inFlightOpens + _ = _
          omega
        · intro key hkey
          refine (hpending key hkey).imp_left ?_
          rintro ⟨b, hb, htaken⟩
          cases hb
          exact htaken
        · intro key hkey
          obtain ⟨r, hr, hplanned⟩ := hresumes.announced a rfl key hkey
          exact ⟨r, Feature.mem_rest hr, hplanned⟩

/-- The bookkeeping of the feature is exact after every run that is not disturbed. -/
theorem exact_run {w : System AppState Effect} {labels : List (Store.Label Action CoreAnswer)}
    (hok : Meets feature.step Undisturbed start labels) (hrun : exec feature.step start labels = some w) :
    w.state.Exact .ios (w.effects.countP Effect.opens) :=
  (exec_invariant feature.step (fun _ _ _ h ha hs => counted_step h ha hs) counted_start hok hrun).exact

end Hermo.AppFeature
