import Hermo.App.Claims
import Hermo.App.Registration
import Hermo.App.Repository

/-!
# The chats the repository opens

A coroutine of `Repository` with the chat it has asked the core for (`Flight`); the chat a bot is resolved to is an
input.  The coroutines claim the chats they open or are going to; no chat is opened twice where those that a tap or a
restore goes for are free.
-/

namespace Hermo.Repository

open Tasks Run

/-- The chats a restore has still to open, the one it waits for in front. -/
def Task.toOpen : Task → List String
  | .restoring _ _ rest _ => rest
  | _ => []

/-- From `s` on, a piece of a coroutine that had the claims. -/
def Claims (claims : List String) (s : AppState) (r : AppState × Task) : Prop := s.Takes claims r.1 r.2.toOpen

private theorem Claims.of_same {s : AppState} {r : AppState × Task} (htabs : ∀ key ∈ r.1.tabs.keys, key ∈ s.tabs.keys)
    (htask : r.2.toOpen = []) : Claims [] s r := by
  unfold Claims
  rw [htask]
  exact AppState.takes_of_subset htabs []

private theorem Claims.congr {claims : List String} {s s' : AppState} {r : AppState × Task} (h : Claims claims s' r)
    (htabs : s'.tabs.keys = s.tabs.keys) : Claims claims s r :=
  (AppState.takes_of_subset (fun _ hkey => htabs ▸ hkey) claims).trans h

theorem takes_register (s : AppState) (key : String) : s.Takes [key] (register s key).1 [] := by
  unfold register
  cases hreg : s.registerKey .android key with
  | ok s' => exact AppState.takes_add (AppState.registered_of_ok hreg).tabs
  | error s' =>
    obtain ⟨queue, rfl⟩ := AppState.eq_of_error hreg
    exact (AppState.takes_of_subset (fun _ hkey => hkey) []).sublist (List.nil_sublist _) (List.Sublist.refl _)

variable [HeaderReader]

/-! ### Pieces of the coroutines -/

theorem claims_finish (s : AppState) (key : String) (summary : Option SessionSummary) (tail : Tail) :
    Claims [] s (finish s key summary tail) := by
  obtain ⟨model, sessions, hafter⟩ := s.afterOpen_eq .android key summary
  unfold finish
  cases tail with
  | header => cases summary <;> exact .of_same (fun _ hk => hk) rfl
  | opened | connected =>
    dsimp only
    rw [hafter]
    exact .of_same (fun _ hk => hk) rfl
  | closed isEmpty =>
    dsimp only
    rw [hafter]
    cases isEmpty <;> exact .of_same (fun _ hk => hk) rfl

theorem claims_refreshThen (s : AppState) (key : String) (tail : Tail) : Claims [] s (refreshThen s key tail) := by
  unfold refreshThen
  split
  · exact .of_same (fun _ hk => hk) rfl
  · exact claims_finish s key none tail

theorem claims_switchTab (s : AppState) (key : String) : Claims [] s (switchTab s key) := by
  unfold switchTab
  cases htap : tabTap s.tabs s.currentKey key with
  | none => exact .of_same (fun _ hk => hk) rfl
  | some next =>
    obtain ⟨-, rfl⟩ := TabSet.tabTap_eq htap
    exact (claims_refreshThen _ key .opened).congr rfl

theorem claims_closed (s : AppState) (key : String) : Claims [] s (closed s key) := by
  have hless : ∀ k ∈ (s.tabs.close key).keys, k ∈ s.tabs.keys := by
    intro k hk
    rw [TabSet.keys_close] at hk
    exact List.mem_of_mem_erase hk
  unfold closed
  dsimp only
  split
  · exact (AppState.takes_of_subset hless []).trans (claims_refreshThen _ _ _)
  · split <;> exact .of_same hless rfl

theorem claims_showMain (s : AppState) (key : String) : Claims [] s (showMain s key) :=
  (claims_refreshThen _ key .connected).congr rfl

theorem claims_concludeRestore (s : AppState) (plan : RestorePlan) (summaries : List SessionSummary)
    (resumed : List String) : Claims [] s (concludeRestore s plan summaries resumed) := by
  unfold concludeRestore
  dsimp only
  split
  · exact (claims_showMain _ _).congr rfl
  · split <;> exact .of_same (fun _ hk => hk) rfl

theorem claims_restoreNext (s : AppState) (plan : RestorePlan) (summaries : List SessionSummary)
    (rest resumed : List String) : Claims rest s (restoreNext s plan summaries rest resumed) := by
  cases rest with
  | nil => exact claims_concludeRestore s plan summaries resumed
  | cons key rest => exact AppState.takes_of_subset (fun _ hk => hk) (key :: rest)

theorem claims_restored (s : AppState) (plan : RestorePlan) (summaries : List SessionSummary) (rest resumed : List String)
    (key : String) : Claims (key :: rest) s (restored s plan summaries rest resumed key) := by
  have hregister := (takes_register s key).append rest
  unfold restored
  exact hregister.trans (claims_restoreNext _ plan summaries rest _)

theorem claims_minted (s : AppState) (key : String) : Claims [key] s (minted s key) := by
  have hregister := takes_register s key
  unfold minted
  generalize register s key = r at hregister
  obtain ⟨s', isOpen⟩ := r
  cases isOpen with
  | false => exact hregister.trans (AppState.takes_of_subset (fun _ hk => hk) [])
  | true => exact hregister.trans (claims_showMain s' key)

theorem claims_opened (s : AppState) (key profile : String) : Claims [key] s (opened s key profile) := by
  have hregister := takes_register s key
  unfold opened
  generalize register s key = r at hregister
  obtain ⟨s', isOpen⟩ := r
  cases isOpen with
  | false => exact hregister.trans (AppState.takes_of_subset (fun _ hk => hk) [])
  | true => exact hregister.trans ((claims_refreshThen _ key .opened).congr rfl)

theorem claims_run (s : AppState) (call : Call) : Claims [] s (run s call) := by
  unfold run
  cases call with
  | openExistingSession storedId =>
    dsimp only
    split
    · exact claims_switchTab s storedId
    · exact .of_same (fun _ hk => hk) rfl
  | openBotChat profile =>
    dsimp only
    split
    · exact claims_switchTab s _
    · exact .of_same (fun _ hk => hk) rfl
  | switchTab key => exact claims_switchTab s key
  | setSessionTitle title =>
    dsimp only
    cases s.currentKey <;> exact .of_same (fun _ hk => hk) rfl
  | _ => exact .of_same (fun _ hk => hk) rfl

/-! ### Coroutines with the chats they ask for -/

/-- The chat an answer brings that nobody has claimed: the plan of a restore, or a session that was created. -/
def brought : Task → Option String → CoreAnswer → List String
  | .choosing summaries, _, .lastActive _ => summaries.map SessionSummary.key
  | .opening _, none, .opened key | .minting, _, .opened key => [key]
  | _, _, _ => []

/-- The core answers the open of a chat with its key. -/
def answers : Task → Option String → CoreAnswer → Bool
  | .opening _, some id, .opened key | .restoring _ _ (id :: _) _, _, .opened key => key = id
  | _, _, _ => true

omit [HeaderReader] in
private theorem claims_onConnectFailure (s : AppState) (failure : CoreFailure) :
    Claims [] s (onConnectFailure s failure, .returned) := by
  unfold onConnectFailure
  split <;> exact .of_same (fun _ hk => hk) rfl

private theorem claims_choosing (s : AppState) (plan : RestorePlan) (summaries : List SessionSummary) :
    Claims plan.resumeKeys s (restoreNext { s with pendingKeys := s.pendingKeys ∪ plan.resumeKeys.toFinset } plan summaries
      plan.resumeKeys []) :=
  (claims_restoreNext _ plan summaries plan.resumeKeys []).congr rfl

omit [HeaderReader] in
private theorem Claims.more {s : AppState} {r : AppState × Task} (h : Claims [] s r) (claims : List String) :
    Claims claims s r := h.sublist (List.nil_sublist _) (List.Sublist.refl _)

/-- What a coroutine turns into tabs or goes on with, it has claimed, or the answer has brought. -/
theorem claims_answered {s : AppState} {t : Task} {chat : Option String} {a : CoreAnswer} {r : AppState × Task}
    (h : Answered s t a r) (hanswers : answers t chat a = true) :
    Claims (t.toOpen ++ chat.toList ++ brought t chat a) s r := by
  cases h with
  | unpaired | resumed | loggedIn | connected | listed | listFailed | mintFailed | paired | pairFailed | forgetFailed
  | resetFailed | openFailed | closeFailed | titleFailed | refreshFailed =>
    exact (Claims.of_same (fun _ hk => hk) rfl).more _
  | loginFailed failure | connectFailed failure | mainFailed _ failure =>
    exact (claims_onConnectFailure s failure).more _
  | chosen summaries lastActive plan hplan =>
    subst hplan
    exact (claims_choosing s _ summaries).sublist (List.sublist_append_right _ _) (List.Sublist.refl _)
  | restored plan summaries asked key rest resumed =>
    obtain rfl : key = asked := of_decide_eq_true hanswers
    refine (claims_restored s plan summaries rest resumed key).sublist ?_ (List.Sublist.refl _)
    exact (List.sublist_append_left _ _).trans (List.sublist_append_left _ _)
  | restoreFailed plan summaries asked rest resumed =>
    have hnext := (claims_restoreNext (s.finishInFlightOpen .android) plan summaries rest resumed).congr (s := s) rfl
    refine hnext.sublist ((List.sublist_cons_self asked rest).trans ?_) (List.Sublist.refl _)
    exact (List.sublist_append_left _ _).trans (List.sublist_append_left _ _)
  | minted key => exact (claims_minted s key).sublist (List.sublist_append_right _ _) (List.Sublist.refl _)
  | forgot | reset => exact (Claims.of_same (fun _ hk => absurd hk List.not_mem_nil) rfl).more _
  | opened profile key =>
    refine (claims_opened s key profile).sublist ?_ (List.Sublist.refl _)
    cases chat with
    | none => exact List.sublist_append_right _ _
    | some id =>
      obtain rfl : key = id := of_decide_eq_true hanswers
      exact List.sublist_append_left _ _
  | closed key => exact (claims_closed s key).more _
  | titled key => exact (claims_refreshThen s key .header).more _
  | refreshed key tail => exact (claims_finish s key _ tail).more _

/-- A coroutine with the chat that its picker or bot open has asked the core for. -/
structure Flight where
  task : Task
  chat : Option String := none

namespace Flight

def claims (f : Flight) : List String := f.task.toOpen ++ f.chat.toList

/-- The open in progress. -/
def opening (f : Flight) : List String := f.task.toOpen.take 1 ++ f.chat.toList

/-- The chat an open asks for when it begins; `resolved` is what the core finds for a bot, `none` where it creates the
chat. -/
def asks (resolved : Option String) : Task → Task → Option String
  | .called (.openExistingSession storedId), .opening _ => some storedId
  | .called (.openBotChat _), .opening _ => resolved
  | _, _ => none

/-- What the flight may hear. -/
def hears (f : Flight) : Input → Bool
  | .answer a => answers f.task f.chat a
  | _ => true

def next (s : AppState) (f : Flight) (input : Input × Option String) : Option (AppState × Flight × List Flight) :=
  if f.hears input.1 then
    (Repository.next s f.task input.1).map fun (s, t, launched) =>
      (s, ⟨t, asks input.2 f.task t⟩, launched.map (Flight.mk · none))
  else none

/-- The chats a step goes for that it has not claimed before. -/
def goesFor (s : AppState) (f : Flight) (input : Input × Option String) : List String :=
  match f.task, input with
  | .called call, (.run, resolved) => (asks resolved f.task (run s call).2).toList
  | t, (.answer a, _) => brought t f.chat a
  | _, _ => []

end Flight

def flights : Program AppState Flight (Input × Option String) Empty :=
  ⟨Flight.next, fun _ e => e.elim, fun s f => entry s f.task && f.chat.isNone⟩

abbrev Flights := System AppState Flight

abbrev FlightLabel := Tasks.Label Flight (Input × Option String) Empty

/-- The app as it is launched. -/
def launch : Flights := ⟨{}, [⟨.draining, none⟩]⟩

/-- A run with the chats is a run of the repository. -/
theorem exec_flights {labels : List FlightLabel} {w : Flights} (hrun : exec flights.step launch labels = some w) :
    exec program.step start (labels.map (Tasks.Label.map Flight.task Prod.fst)) = some (w.map Flight.task) := by
  refine Program.exec_map (f := Flight.task) (g := Prod.fst) (q := program) ?_ rfl ?_ hrun
  · intro s f input s' f' launched hnext
    unfold flights Flight.next at hnext
    dsimp only at hnext
    split at hnext
    · obtain ⟨⟨after, t, spawned⟩, ht, heq⟩ := Option.map_eq_some_iff.1 hnext
      cases heq
      refine ht.trans ?_
      rw [List.map_map]
      exact congrArg (fun l => some (after, t, l)) (List.map_id spawned).symm
    · cases hnext
  · intro s f h
    exact (Bool.and_eq_true_iff.1 h).1

/-- The chats that are being opened. -/
def openings (w : Flights) : List String := w.tasks.flatMap Flight.opening

/-- Those, and the chats the restores still have to open. -/
def claimed (w : Flights) : List String := w.tasks.flatMap Flight.claims

/-- The chats a step goes for are distinct, and each is neither a tab nor claimed. -/
def GoesForFree (w : Flights) : FlightLabel → Prop
  | .task i input => ∀ f, w.tasks[i]? = some f → (f.goesFor w.shared input).Nodup ∧
      ∀ key ∈ f.goesFor w.shared input, key ∉ w.shared.tabs.keys ∧ key ∉ claimed w
  | _ => True

/-! ### One step -/

omit [HeaderReader] in
private theorem onEvent_tabs {s s' : AppState} {event : CoreEvent} {launched : List Task}
    (h : onEvent s event = some (s', launched)) :
    s'.tabs = s.tabs ∧ ∀ t ∈ launched, t.toOpen = [] := by
  cases event with
  | connection status =>
    cases h
    exact ⟨rfl, by simp⟩
  | transcript change =>
    obtain ⟨next, hchange, heq⟩ := Option.map_eq_some_iff.1 h
    cases heq
    constructor
    · rcases AppState.onTranscriptChange_eq hchange with ⟨-, rfl⟩ | ⟨-, sessions, rfl, -⟩
      · split
        · obtain ⟨parked, hpark⟩ := s.park_eq change
          rw [hpark]
        · rfl
      · rfl
    · intro t ht
      split at ht
      · rw [List.mem_singleton.1 ht]
        rfl
      · cases ht

theorem Flight.next_takes {s s' : AppState} {f f' : Flight} {input : Input × Option String} {spawned : List Flight}
    (h : f.next s input = some (s', f', spawned)) :
    s.Takes (f.claims ++ f.goesFor s input) s' f'.claims ∧ ∀ g ∈ spawned, g.claims = [] := by
  obtain ⟨t, chat⟩ := f
  obtain ⟨input, resolved⟩ := input
  unfold Flight.next at h
  split at h
  · rename_i hears
    obtain ⟨⟨after, t', launched⟩, hnext, heq⟩ := Option.map_eq_some_iff.1 h
    cases heq
    rcases next_cases hnext with ⟨call, rfl, rfl, heq⟩ | ⟨event, after, spawned, rfl, rfl, hevent, heq⟩ |
      ⟨a, r, rfl, hanswer, heq⟩
    · cases heq
      refine ⟨?_, by simp⟩
      have hrun := (claims_run s call).append (asks resolved (.called call) (run s call).2).toList
      exact hrun.sublist (List.sublist_append_right _ _) (List.Sublist.refl _)
    · cases heq
      obtain ⟨htabs, hlaunched⟩ := onEvent_tabs hevent
      constructor
      · have hsame : s.Takes [] s' [] := AppState.takes_of_subset (fun _ hk => htabs ▸ hk) []
        exact hsame.sublist (List.nil_sublist _) (List.Sublist.refl _)
      · intro g hg
        obtain ⟨t, ht, rfl⟩ := List.mem_map.1 hg
        exact (congrArg (· ++ []) (hlaunched t ht))
    · cases heq
      have hclaims := claims_answered hanswer hears
      have hasks : asks resolved t r.2 = none := by
        cases hanswer <;> rfl
      have hgoes : Flight.goesFor s ⟨t, chat⟩ (.answer a, resolved) = brought t chat a := by
        cases t <;> rfl
      refine ⟨?_, by simp⟩
      unfold Flight.claims
      rw [hasks, hgoes]
      exact hclaims.sublist (List.Sublist.refl _) (by simp)
  · cases h

private theorem single_step {w w' : Flights} {l : FlightLabel} (h : w.shared.Single (claimed w))
    (hfree : GoesForFree w l) (hstep : flights.step w l = some w') : w'.shared.Single (claimed w') := by
  cases l with
  | start f =>
    obtain ⟨hentry, rfl⟩ := Program.step_start hstep
    have hnone : f.claims = [] := by
      obtain ⟨t, chat⟩ := f
      obtain ⟨hcalled, hchat⟩ := Bool.and_eq_true_iff.1 hentry
      cases t with
      | called call =>
        obtain rfl : chat = none := Option.isNone_iff_eq_none.1 hchat
        rfl
      | _ => cases hcalled
    have hclaimed : claimed ⟨w.shared, w.tasks ++ [f]⟩ = claimed w := by
      unfold claimed
      rw [List.flatMap_append, List.flatMap_singleton, hnone, List.append_nil]
    rw [hclaimed]
    exact h
  | task i input =>
    obtain ⟨f, s', f', spawned, hf, hnext, rfl⟩ := Program.step_task hstep
    obtain ⟨htakes, hspawned⟩ := Flight.next_takes hnext
    obtain ⟨hdistinct, hnew⟩ := hfree f hf
    refine h.step hdistinct hnew fun key => ?_
    have htake := htakes key
    have hsum := Program.sum_after hf (List.count key ∘ Flight.claims) f' spawned
    have hzero : (spawned.map (List.count key ∘ Flight.claims)).sum = 0 := by
      refine List.sum_eq_zero_iff_forall_eq_nat.2 ?_
      intro n hn
      obtain ⟨g, hg, rfl⟩ := List.mem_map.1 hn
      rw [Function.comp_apply, hspawned g hg, List.count_nil]
    unfold claimed
    rw [List.count_append, List.count_flatMap, List.count_flatMap]
    rw [List.count_append] at htake
    dsimp only [Function.comp_apply] at hsum ⊢
    omega
  | env e => exact e.elim

/-- Where every chat that is gone for is free, the chats being opened are distinct and none is a tab. -/
theorem single_run {labels : List FlightLabel} {w : Flights} (hfree : Meets flights.step GoesForFree launch labels)
    (hrun : exec flights.step launch labels = some w) : w.shared.Single (openings w) := by
  have hstart : launch.shared.Single (claimed launch) := ⟨List.nodup_nil, fun _ hkey => absurd hkey List.not_mem_nil⟩
  have hclaimed : w.shared.Single (claimed w) :=
    exec_invariant flights.step (P := fun w : Flights => w.shared.Single (claimed w))
      (fun _ _ _ h hok hstep => single_step h hok hstep) hstart hfree hrun
  refine hclaimed.sublist (List.Sublist.flatMap_right _ fun f _ => ?_)
  exact (List.take_sublist 1 f.task.toOpen).append (List.Sublist.refl _)

end Hermo.Repository
