import Hermo.App.Claims
import Hermo.App.FeatureOpens

/-!
# The chats the feature opens

The effects of `AppFeature` with the chat they have asked the core for, as in `RepositoryClaims`.  An action that
connects cancels the restore in flight; the store drops what it sends from then on, but its loop goes on to open the
chats of its plan.  `Device` is the store with those loops.
-/

namespace Hermo.AppFeature

open Store Run

/-- The chats a restore has still to open, the one it waits for in front. -/
def Effect.toOpen : Effect → List String
  | .restoring _ _ rest _ => rest
  | _ => []

/-- The chats a restore has opened, and not made tabs yet. -/
def Effect.opened : Effect → List String
  | .restoring _ _ _ resumed => resumed
  | _ => []

/-- The chats an action makes tabs. -/
def Action.shows : Action → List String
  | .newSessionOpened key | .existingSessionOpened key | .botChatOpened key _ => [key]
  | .mainSessionRestored _ resumed _ _ => resumed
  | _ => []

/-! ### Actions -/

theorem takes_sessionOpened {s s' : AppState} {key : String} {stamp : Sessions → Sessions} {started : List Effect}
    (h : sessionOpened s key stamp = some (s', started)) : s.Takes [key] s' [] ∧ started = [.readying key] := by
  obtain ⟨registered, hreg, heq⟩ := Option.map_eq_some_iff.1 h
  obtain ⟨mid, hmid, rfl⟩ := Option.map_eq_some_iff.1 hreg
  cases heq
  exact ⟨AppState.takes_add (registered_of_completed hmid).tabs, rfl⟩

theorem takes_mainSessionRestored {s s' : AppState} {planned resumed : List String} {summaries : List SessionSummary}
    {current : Option String} (h : mainSessionRestored s planned resumed summaries current = some s') :
    s.Takes resumed s' [] := by
  obtain ⟨mid, hmid, rfl⟩ := Option.map_eq_some_iff.1 h
  have hrestored := restoredKeys_of_foldlM hmid
  have htakes : s.Takes resumed mid [] := by
    intro key
    unfold AppState.tabCount
    rw [List.count_nil, Nat.add_zero]
    by_cases hkey : key ∈ mid.tabs.keys
    · rw [if_pos hkey]
      rcases (hrestored.tabs key).1 hkey with htab | hmem
      · rw [if_pos htab]
        exact Nat.le_add_right _ _
      · exact (List.count_pos_iff.2 hmem).trans_le (Nat.le_add_left _ _)
    · rw [if_neg hkey]
      exact Nat.zero_le _
  refine htakes.trans (AppState.takes_of_subset ?_ [])
  cases restoredCurrent resumed current <;> exact fun _ hk => hk

theorem performSwitchTab_spec (s : AppState) (key : String) :
    (performSwitchTab s key).1.tabs.keys = s.tabs.keys ∧ ∀ e ∈ (performSwitchTab s key).2, ∃ k, e = .readying k := by
  unfold performSwitchTab
  cases htap : tabTap s.tabs s.currentKey key with
  | none => exact ⟨rfl, by simp⟩
  | some next =>
    obtain ⟨-, rfl⟩ := TabSet.tabTap_eq htap
    exact ⟨rfl, by simp⟩

theorem tabClosed_spec (s : AppState) (key : String) :
    (∀ k ∈ (tabClosed s key).1.tabs.keys, k ∈ s.tabs.keys) ∧
      ∀ e ∈ (tabClosed s key).2, (∃ k, e = .readying k) ∨ e = .opening .fresh := by
  have hless : ∀ k ∈ (s.tabs.close key).keys, k ∈ s.tabs.keys := by
    intro k hk
    rw [TabSet.keys_close] at hk
    exact List.mem_of_mem_erase hk
  unfold tabClosed
  dsimp only
  split
  · exact ⟨hless, by simp⟩
  · split
    · exact ⟨hless, by simp [open']⟩
    · exact ⟨hless, by simp⟩

/-- What an action makes tabs, and what its effects have to open. -/
theorem takes_reduce [HeaderReader] {s s' : AppState} {a : Action} {started : List Effect} (h : reduce s a = some (s', started)) :
    s.Takes a.shows s' [] ∧ ∀ e ∈ started, e.toOpen = [] ∧ e.opened = [] := by
  have hsame {s' : AppState} (htabs : ∀ key ∈ s'.tabs.keys, key ∈ s.tabs.keys) : s.Takes [] s' [] :=
    AppState.takes_of_subset htabs []
  have switched {key : String} {s' : AppState} {started : List Effect}
      (heq : performSwitchTab s key = (s', started)) :
      s.Takes [] s' [] ∧ ∀ e ∈ started, e.toOpen = [] ∧ e.opened = [] := by
    obtain ⟨htabs, hstarted⟩ := performSwitchTab_spec s key
    rw [heq] at htabs hstarted
    refine ⟨hsame fun _ hk => htabs ▸ hk, ?_⟩
    intro e he
    obtain ⟨k, rfl⟩ := hstarted e he
    exact ⟨rfl, rfl⟩
  cases a with
  | core event =>
    cases event with
    | connection status =>
      cases h
      exact ⟨hsame fun _ hk => hk, by simp⟩
    | transcript change =>
      obtain ⟨next, hchange, heq⟩ := Option.map_eq_some_iff.1 h
      cases heq
      constructor
      · rcases AppState.onTranscriptChange_eq hchange with ⟨-, rfl⟩ | ⟨-, sessions, rfl, -⟩
        · split
          · obtain ⟨parked, hpark⟩ := s.park_eq change
            rw [hpark]
            exact hsame fun _ hk => hk
          · exact hsame fun _ hk => hk
        · exact hsame fun _ hk => hk
      · intro e he
        split at he
        · rw [List.mem_singleton.1 he]
          exact ⟨rfl, rfl⟩
        · cases he
  | newSessionOpened key | existingSessionOpened key =>
    obtain ⟨htakes, rfl⟩ := takes_sessionOpened h
    exact ⟨htakes, by simp [Effect.toOpen, Effect.opened]⟩
  | botChatOpened key profile =>
    have hopened : sessionOpened s key (withProfile · key profile) = some (s', started) := h
    obtain ⟨htakes, rfl⟩ := takes_sessionOpened hopened
    exact ⟨htakes, by simp [Effect.toOpen, Effect.opened]⟩
  | mainSessionRestored planned resumed summaries current =>
    obtain ⟨next, hrestored, heq⟩ := Option.map_eq_some_iff.1 h
    cases heq
    exact ⟨takes_mainSessionRestored hrestored, by simp⟩
  | tabClosed key =>
    obtain ⟨htabs, hstarted⟩ := tabClosed_spec s key
    have heq : tabClosed s key = (s', started) := Option.some_inj.1 h
    rw [heq] at htabs hstarted
    refine ⟨hsame htabs, ?_⟩
    intro e he
    rcases hstarted e he with ⟨k, rfl⟩ | rfl <;> exact ⟨rfl, rfl⟩
  | openExistingSession storedId =>
    have heq : (if storedId ∈ s.tabs.keys then performSwitchTab s storedId else open' s .existing) = (s', started) :=
      Option.some_inj.1 h
    split at heq
    · exact switched heq
    · cases heq
      exact ⟨hsame fun _ hk => hk, by simp [Effect.toOpen, Effect.opened]⟩
  | openBotChat profile =>
    have heq := Option.some_inj.1 h
    split at heq
    · exact switched heq
    · cases heq
      exact ⟨hsame fun _ hk => hk, by simp [Effect.toOpen, Effect.opened]⟩
  | switchTab key => exact switched (Option.some_inj.1 h)
  | closeTab key =>
    cases h
    refine ⟨hsame fun _ hk => hk, ?_⟩
    split <;> simp [Effect.toOpen, Effect.opened]
  | setSessionTitle title =>
    cases h
    refine ⟨hsame fun _ hk => hk, ?_⟩
    cases s.currentKey <;> simp [Effect.toOpen, Effect.opened]
  | networkAvailable =>
    cases h
    refine ⟨hsame fun _ hk => hk, ?_⟩
    split <;> simp [Effect.toOpen, Effect.opened]
  | connectFailed isAuthShape closedReason =>
    cases h
    refine ⟨hsame ?_, by simp⟩
    unfold connectFailed
    split <;> exact fun _ hk => hk
  | headerRefreshed key summary =>
    cases h
    refine ⟨hsame ?_, by simp⟩
    unfold AppState.applyHeaderRefresh
    split <;> exact fun _ hk => hk
  | sessionReady key summary =>
    cases h
    obtain ⟨model, sessions, hafter⟩ := s.afterOpen_eq .ios key summary
    rw [hafter]
    exact ⟨hsame fun _ hk => hk, by simp⟩
  | forgotGateway | sessionsCleared =>
    cases h
    exact ⟨hsame fun _ hk => absurd hk List.not_mem_nil, by simp⟩
  | _ =>
    cases h
    exact ⟨hsame fun _ hk => hk, by simp [Effect.toOpen, Effect.opened]⟩

/-! ### Effects with the chats they ask for -/

/-- The chats an answer brings that nobody has claimed: the plan of a restore, or a session that was created. -/
def brought : Effect → Option String → CoreAnswer → List String
  | .choosing summaries, _, .lastActive _ => summaries.map SessionSummary.key
  | .opening _, none, .opened key | .minting, _, .opened key | .restarting, _, .opened key => [key]
  | _, _, _ => []

/-- The core answers the open of a chat with its key. -/
def answers : Effect → Option String → CoreAnswer → Bool
  | .opening _, some id, .opened key | .restoring _ _ (id :: _) _, _, .opened key => key = id
  | _, _, _ => true

def showsOf (action : Option Action) : List String := (action.map Action.shows).getD []

def claimsOf (rest : Option Effect) : List String := (rest.map fun e => e.opened ++ e.toOpen).getD []

private theorem sublist_restored (plan : RestorePlan) (summaries : List SessionSummary) (resumed : List String) :
    ((restored plan summaries resumed).shows).Sublist resumed := by
  unfold restored
  split
  · exact List.nil_sublist _
  · exact List.Sublist.refl _

private theorem sublist_restoreNext (plan : RestorePlan) (summaries : List SessionSummary) (rest resumed : List String) :
    (showsOf (restoreNext plan summaries rest resumed).1 ++ claimsOf (restoreNext plan summaries rest resumed).2).Sublist
      (resumed ++ rest) := by
  cases rest with
  | nil =>
    refine List.Sublist.append ?_ (List.Sublist.refl [])
    exact sublist_restored plan summaries resumed
  | cons key rest => exact List.Sublist.refl _

/-- What an effect makes tabs or goes on with, it has claimed, or the answer has brought. -/
theorem sublist_resume {e : Effect} {chat : Option String} {a : CoreAnswer} {r : Option Action × Option Effect}
    (h : Resumed e a r) (hanswers : answers e chat a = true) :
    (showsOf r.1 ++ claimsOf r.2).Sublist (e.opened ++ e.toOpen ++ chat.toList ++ brought e chat a) := by
  cases h with
  | restored plan summaries asked key rest resumed =>
    have hnext := sublist_restoreNext plan summaries rest (resumed ++ [asked])
    rw [List.append_assoc] at hnext
    exact (hnext.trans (List.sublist_append_left _ _)).trans (List.sublist_append_left _ _)
  | restoreFailed plan summaries asked rest resumed =>
    have hnext := sublist_restoreNext plan summaries rest resumed
    have hless := hnext.trans (List.Sublist.append (List.Sublist.refl _) (List.sublist_cons_self asked rest))
    exact (hless.trans (List.sublist_append_left _ _)).trans (List.sublist_append_left _ _)
  | chosen summaries lastActive plan hplan =>
    subst hplan
    refine List.Sublist.trans ?_ (List.sublist_append_right _ _)
    dsimp only
    split
    · exact List.nil_sublist _
    · exact List.Sublist.refl _
  | opened verb key =>
    have hshows : showsOf (some (verb.opened key)) ++ claimsOf none = [key] := by cases verb <;> rfl
    rw [hshows]
    cases chat with
    | none => exact List.Sublist.refl _
    | some id =>
      obtain rfl : key = id := of_decide_eq_true hanswers
      exact List.Sublist.refl _
  | minted | restarted => exact List.sublist_append_right _ _
  | refreshed key summaries =>
    dsimp only
    cases summaries.find? (·.key = key) <;> exact List.nil_sublist _
  | _ => exact List.nil_sublist _

/-- The chats an effect has still to open when it goes on. -/
theorem sublist_toOpen {e rest : Effect} {chat : Option String} {a : CoreAnswer} {r : Option Action × Option Effect}
    (h : Resumed e a r) (hrest : r.2 = some rest) : rest.toOpen.Sublist (e.toOpen ++ brought e chat a) := by
  have hless : ∀ {plan summaries asked more resumed}, (restoreNext plan summaries more resumed).2 = some rest →
      rest.toOpen.Sublist (asked :: more) := by
    intro plan summaries asked more resumed hnext
    cases more with
    | nil => cases hnext
    | cons next more =>
      cases hnext
      exact List.sublist_cons_self asked _
  cases h with
  | restored => exact (hless hrest).trans (List.sublist_append_left _ _)
  | restoreFailed => exact (hless hrest).trans (List.sublist_append_left _ _)
  | chosen summaries lastActive plan hplan =>
    subst hplan
    cases hrest
    split
    · exact List.nil_sublist _
    · exact List.Sublist.refl _
  | _ => cases hrest <;> exact List.nil_sublist _

/-- No action of an effect comes from outside. -/
theorem resume_internal {e : Effect} {a : CoreAnswer} {r : Option Action × Option Effect} (h : Resumed e a r) :
    ∀ act, r.1 = some act → sent act = false := by
  have hinternal : ∀ plan summaries rest resumed act, (restoreNext plan summaries rest resumed).1 = some act →
      sent act = false := by
    intro plan summaries rest resumed act hnext
    cases rest with
    | nil =>
      cases hnext
      unfold restored
      split <;> rfl
    | cons key rest => cases hnext
  cases h with
  | restored plan summaries => exact hinternal plan summaries _ _
  | restoreFailed plan summaries => exact hinternal plan summaries _ _
  | opened verb =>
    rintro act ⟨⟩
    cases verb <;> rfl
  | refreshed key summaries =>
    intro act hact
    obtain ⟨summary, -, rfl⟩ := Option.map_eq_some_iff.1 hact
    rfl
  | _ => rintro act ⟨⟩ <;> rfl

/-- An effect with the chat that its picker or bot open has asked the core for. -/
structure Flight where
  effect : Effect
  chat : Option String := none

namespace Flight

def claims (f : Flight) : List String := f.effect.opened ++ f.effect.toOpen ++ f.chat.toList

/-- The open in progress, and what a restore has opened and not shown yet. -/
def opening (f : Flight) : List String := f.effect.opened ++ f.effect.toOpen.take 1 ++ f.chat.toList

end Flight

/-- The chat an open asks for; `resolved` is what the core finds for a bot, `none` where it creates the chat. -/
def asks (resolved : Option String) : Action → Effect → Option String
  | .openExistingSession storedId, .opening .existing => some storedId
  | .openBotChat _, .opening (.bot _) => resolved
  | _, _ => none

section

variable [HeaderReader]

def flights : Feature AppState (Action × Option String) Flight CoreAnswer where
  reduce s a := (reduce s a.1).map fun (s, started) => (s, started.map fun e => ⟨e, asks a.2 a.1 e⟩)
  cancels s a f := cancels s a.1 f.effect
  resume f a :=
    if answers f.effect f.chat a then
      (resume f.effect a).map fun (action, rest) => (action.map (·, none), rest.map (Flight.mk · none))
    else none
  sent a := sent a.1

/-- The store, and the effects that were cancelled and go on. -/
structure Device where
  app : Store.System AppState Flight
  orphans : List Effect

inductive DeviceLabel where
  | app (l : Store.Label (Action × Option String) CoreAnswer)
  | orphan (i : Nat) (answer : CoreAnswer)

namespace Device

/-- What an action cancels. -/
def cancelled (d : Device) : Store.Label (Action × Option String) CoreAnswer → List Effect
  | .send a => (d.app.effects.filter fun f => cancels d.app.state a.1 f.effect).map Flight.effect
  | .resume _ _ => []

def step (d : Device) : DeviceLabel → Option Device
  | .app l => (flights.step d.app l).map fun app => ⟨app, d.orphans ++ d.cancelled l⟩
  | .orphan i a =>
    match d.orphans[i]? with
    | none => none
    | some e =>
      if answers e none a then
        (resume e a).map fun (_, rest) => ⟨d.app, d.orphans.eraseIdx i ++ rest.toList⟩
      else none

/-- The chats that are being opened. -/
def openings (d : Device) : List String :=
  d.app.effects.flatMap Flight.opening ++ d.orphans.flatMap (·.toOpen.take 1)

/-- Those, and the chats the restores still have to open. -/
def claimed (d : Device) : List String := d.app.effects.flatMap Flight.claims ++ d.orphans.flatMap Effect.toOpen

/-- The chats a step goes for that it has not claimed before. -/
def goesFor (d : Device) : DeviceLabel → List String
  | .app (.send a) =>
    match reduce d.app.state a.1 with
    | none => []
    | some (_, started) => started.flatMap fun e => (asks a.2 a.1 e).toList
  | .app (.resume i a) =>
    match d.app.effects[i]? with
    | none => []
    | some f => brought f.effect f.chat a
  | .orphan i a =>
    match d.orphans[i]? with
    | none => []
    | some e => brought e none a

/-- The chats a step goes for are distinct, and each is neither a tab nor claimed. -/
def GoesForFree (d : Device) (l : DeviceLabel) : Prop :=
  (d.goesFor l).Nodup ∧ ∀ key ∈ d.goesFor l, key ∉ d.app.state.tabs.keys ∧ key ∉ d.claimed

/-- The app as it is launched. -/
def launch : Device := ⟨⟨{}, []⟩, []⟩

/-- What a label is for the store. -/
def DeviceLabel.toStore : DeviceLabel → Option (Store.Label Action CoreAnswer)
  | .app l => some (l.map Prod.fst)
  | .orphan _ _ => none

theorem flights_resume {f : Flight} {a : CoreAnswer} {action : Option (Action × Option String)} {rest : Option Flight}
    (h : flights.resume f a = some (action, rest)) :
    answers f.effect f.chat a = true ∧ ∃ plainAction plainRest, resume f.effect a = some (plainAction, plainRest) ∧
      action = plainAction.map (·, none) ∧ rest = plainRest.map (Flight.mk · none) := by
  have hif : (if answers f.effect f.chat a then (resume f.effect a).map fun (action, rest) =>
      (action.map (·, (none : Option String)), rest.map (Flight.mk · none)) else none) = some (action, rest) := h
  split at hif
  · rename_i hears
    obtain ⟨⟨plainAction, plainRest⟩, hplain, heq⟩ := Option.map_eq_some_iff.1 hif
    cases heq
    exact ⟨hears, plainAction, plainRest, hplain, rfl, rfl⟩
  · cases hif

/-- The part of a run that the store sees is a run of the app. -/
theorem exec_device {labels : List DeviceLabel} {d : Device} (hrun : exec step launch labels = some d) :
    exec feature.step AppFeature.start (labels.filterMap DeviceLabel.toStore) = some (d.app.map Flight.effect) := by
  induction labels using List.reverseRecOn generalizing d with
  | nil =>
    cases hrun
    rfl
  | append_singleton labels l ih =>
    obtain ⟨before, hbefore, hstep⟩ := (exec_snoc step).1 hrun
    have happ := ih hbefore
    rw [List.filterMap_append]
    cases l with
    | orphan i a =>
      have hsame : d.app = before.app := by
        unfold step at hstep
        dsimp only at hstep
        split at hstep
        · cases hstep
        · split at hstep
          · obtain ⟨_, -, rfl⟩ := Option.map_eq_some_iff.1 hstep
            rfl
          · cases hstep
      have hnone : [DeviceLabel.orphan i a].filterMap DeviceLabel.toStore = [] := rfl
      rw [hsame, hnone, List.append_nil]
      exact happ
    | app l =>
      obtain ⟨app, hstore, rfl⟩ := Option.map_eq_some_iff.1 hstep
      have hone : [DeviceLabel.app l].filterMap DeviceLabel.toStore = [l.map Prod.fst] := rfl
      rw [hone]
      refine (exec_snoc feature.step).2 ⟨_, happ, ?_⟩
      refine Store.Feature.step_map (f := flights) (g := feature) ?_ (fun _ _ _ => rfl) ?_ (fun _ h => h) hstore
      · intro s a
        change reduce s a.1 = Option.map _ (Option.map _ (reduce s a.1))
        cases hreduce : reduce s a.1 with
        | none => rfl
        | some result =>
          obtain ⟨s', started⟩ := result
          have hforget : (started.map fun e => Flight.mk e (asks a.2 a.1 e)).map Flight.effect = started := by
            rw [List.map_map]
            exact List.map_id started
          exact congrArg (fun l => some (s', l)) hforget.symm
      · intro f a action rest hresume
        obtain ⟨-, action, rest, hplain, rfl, rfl⟩ := flights_resume hresume
        rw [Option.map_map, Option.map_map]
        cases action <;> cases rest <;> exact hplain

/-! ### One step -/

/-- The claims on a chat, of the effects of the store. -/
def count (effects : List Flight) (key : String) : Nat := (effects.flatMap Flight.claims).count key

omit [HeaderReader] in
theorem count_eq (effects : List Flight) (key : String) :
    count effects key = (effects.map (List.count key ∘ Flight.claims)).sum := List.count_flatMap

/-- What an action turns into tabs and starts, with the claims of what it cancels. -/
private theorem count_send {s s' : Store.System AppState Flight} {a : Action × Option String}
    (h : flights.send s a = some s') (key : String) :
    ∃ started, reduce s.state a.1 = some (s'.state, started) ∧
      s'.state.tabCount key + count s'.effects key + count (s.effects.filter fun f => cancels s.state a.1 f.effect) key ≤
        s.state.tabCount key + count s.effects key + a.1.shows.count key +
          (started.flatMap fun e => (asks a.2 a.1 e).toList).count key := by
  obtain ⟨state, flightsStarted, hreduce, rfl⟩ := Store.Feature.send_eq h
  obtain ⟨⟨state, started⟩, hplain, heq⟩ := Option.map_eq_some_iff.1 hreduce
  cases heq
  refine ⟨started, hplain, ?_⟩
  obtain ⟨htakes, hstarted⟩ := takes_reduce hplain
  have htabs := htakes key
  rw [List.count_nil, Nat.add_zero] at htabs
  have hsplit := Store.Feature.sum_filter s.effects (fun f => cancels s.state a.1 f.effect)
    (List.count key ∘ Flight.claims)
  rw [← count_eq, ← count_eq, ← count_eq] at hsplit
  have hasks : (started.map fun e => Flight.mk e (asks a.2 a.1 e)).flatMap Flight.claims =
      started.flatMap fun e => (asks a.2 a.1 e).toList := by
    rw [List.flatMap_map]
    refine List.flatMap_congr fun e he => ?_
    obtain ⟨htoOpen, hopened⟩ := hstarted e he
    unfold Flight.claims
    dsimp only
    rw [htoOpen, hopened]
    rfl
  have hafter : count ((s.effects.filter fun f => !flights.cancels s.state a f) ++
      started.map fun e => Flight.mk e (asks a.2 a.1 e)) key =
        count (s.effects.filter fun f => !cancels s.state a.1 f.effect) key +
          (started.flatMap fun e => (asks a.2 a.1 e).toList).count key := by
    unfold count
    rw [List.flatMap_append, List.count_append, hasks]
    rfl
  dsimp only
  rw [hafter]
  omega

omit [HeaderReader] in
/-- The claims of effects that were cancelled. -/
private theorem count_cancelled (effects : List Flight) (key : String) :
    ((effects.map Flight.effect).flatMap Effect.toOpen).count key ≤ count effects key := by
  rw [List.flatMap_map]
  refine List.Sublist.count_le key (List.Sublist.flatMap_right _ fun f _ => ?_)
  exact (List.sublist_append_right _ _).trans (List.sublist_append_left _ _)

private theorem takes_step {d d' : Device} {l : DeviceLabel} (hstep : d.step l = some d') :
    d.app.state.Takes (d.claimed ++ d.goesFor l) d'.app.state d'.claimed := by
  intro key
  cases l with
  | app l =>
    obtain ⟨app, hstore, rfl⟩ := Option.map_eq_some_iff.1 hstep
    cases l with
    | send a =>
      obtain ⟨hsent, hsend⟩ := Store.Feature.step_send hstore
      obtain ⟨started, hreduce, hcount⟩ := count_send hsend key
      have hshows : a.1.shows = [] := by
        obtain ⟨a, resolved⟩ := a
        cases a <;> first | rfl | cases hsent
      have hcancelled := count_cancelled (d.app.effects.filter fun f => cancels d.app.state a.1 f.effect) key
      have hgoes : d.goesFor (.app (.send a)) = started.flatMap fun e => (asks a.2 a.1 e).toList := by
        unfold goesFor
        dsimp only
        rw [hreduce]
      rw [hgoes]
      rw [hshows, List.count_nil] at hcount
      unfold count at hcount hcancelled
      unfold claimed cancelled
      dsimp only
      rw [List.flatMap_append]
      simp only [List.count_append]
      omega
    | resume i a =>
      obtain ⟨f, flightAction, flightRest, hf, hresume, hafter⟩ := Store.Feature.step_resume hstore
      obtain ⟨hears, action, rest, hplain, rfl, rfl⟩ := flights_resume hresume
      have hless := (sublist_resume (resumed_cases hplain) hears).count_le key
      have hsum := Store.Feature.sum_eraseIdx hf (List.count key ∘ Flight.claims)
      rw [← count_eq, ← count_eq] at hsum
      have hgone : count (Store.Feature.after d.app i (rest.map (Flight.mk · none))).effects key + f.claims.count key =
          count d.app.effects key + (claimsOf rest).count key := by
        have hrest : ((rest.map (Flight.mk · none)).toList.flatMap Flight.claims).count key =
            (claimsOf rest).count key := by
          cases rest with
          | none => rfl
          | some e => simp [claimsOf, Flight.claims]
        unfold Store.Feature.after
        unfold count at hsum ⊢
        dsimp only [Function.comp_apply] at hsum ⊢
        rw [List.flatMap_append, List.count_append, hrest]
        omega
      have hgoes : d.goesFor (.app (.resume i a)) = brought f.effect f.chat a := by
        unfold goesFor
        dsimp only
        rw [hf]
      have hbound : app.state.tabCount key + count app.effects key ≤
          d.app.state.tabCount key + (count (Store.Feature.after d.app i (rest.map (Flight.mk · none))).effects key) +
            (showsOf action).count key := by
        cases action with
        | none =>
          rcases hafter with ⟨-, rfl⟩ | ⟨_, hnone, -⟩
          · exact Nat.le_add_right _ _
          · cases hnone
        | some act =>
          rcases hafter with ⟨hnone, -⟩ | ⟨_, hsome, hsend⟩
          · cases hnone
          · cases hsome
            obtain ⟨started, -, hcount⟩ := count_send hsend key
            have hasks : (started.flatMap fun e => (asks none act e).toList) = [] := by
              refine List.flatMap_eq_nil_iff.2 fun e _ => ?_
              have hinternal := resume_internal (resumed_cases hplain) act rfl
              cases act <;> first | rfl | cases hinternal
            dsimp only at hcount
            rw [hasks, List.count_nil] at hcount
            have hshows : showsOf (some act) = act.shows := rfl
            rw [hshows]
            exact (Nat.le_add_right _ _).trans hcount
      rw [hgoes]
      unfold Flight.claims at hgone
      unfold count at hbound hgone
      unfold claimed cancelled
      dsimp only
      simp only [List.count_append, List.append_nil] at hless hgone ⊢
      omega
  | orphan i a =>
    unfold step at hstep
    dsimp only at hstep
    split at hstep
    · cases hstep
    · rename_i e he
      split at hstep
      · obtain ⟨⟨action, rest⟩, hresume, rfl⟩ := Option.map_eq_some_iff.1 hstep
        have hless : (rest.toList.flatMap Effect.toOpen).count key ≤ (e.toOpen ++ brought e none a).count key := by
          cases rest with
          | none => exact Nat.zero_le _
          | some rest =>
            rw [Option.toList_some, List.flatMap_singleton]
            exact (sublist_toOpen (resumed_cases hresume) rfl).count_le key
        have hsum := Store.Feature.sum_eraseIdx he (List.count key ∘ Effect.toOpen)
        rw [← List.count_flatMap, ← List.count_flatMap] at hsum
        have hgoes : d.goesFor (.orphan i a) = brought e none a := by
          unfold goesFor
          dsimp only
          rw [he]
        rw [hgoes]
        unfold claimed
        dsimp only [Function.comp_apply] at hsum ⊢
        rw [List.flatMap_append]
        simp only [List.count_append] at hless ⊢
        omega
      · cases hstep

/-- Where every chat that is gone for is free, the chats being opened are distinct and none is a tab. -/
theorem single_run {labels : List DeviceLabel} {d : Device} (hfree : Meets step GoesForFree launch labels)
    (hrun : exec step launch labels = some d) : d.app.state.Single d.openings := by
  have hstart : launch.app.state.Single launch.claimed :=
    ⟨List.nodup_nil, fun _ hkey => absurd hkey List.not_mem_nil⟩
  have hclaimed : d.app.state.Single d.claimed :=
    exec_invariant step (P := fun d : Device => d.app.state.Single d.claimed)
      (fun _ _ _ h hok hstep => h.step hok.1 hok.2 (takes_step hstep)) hstart hfree hrun
  refine hclaimed.sublist (List.Sublist.append ?_ ?_)
  · refine List.Sublist.flatMap_right _ fun f _ => ?_
    exact ((List.Sublist.refl _).append (List.take_sublist 1 _)).append (List.Sublist.refl _)
  · exact List.Sublist.flatMap_right _ fun e _ => List.take_sublist 1 _

end Device

end

end Hermo.AppFeature
