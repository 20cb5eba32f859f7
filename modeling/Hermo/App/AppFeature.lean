import Hermo.App.AppState
import Hermo.Library.Store

/-!
# The feature of the iOS app

`AppFeature.swift` as a store: the reducer with the actions that touch the state of the sessions, and the effects it
runs.  Every effect below waits for a call of the core.  Actions that only write the error line, and the states of the
chat, the picker, the drawer and the appearance, are left out; an action that an effect sends with `.send` is reduced
at once.  `resumed_cases` lists what an effect can do.
-/

namespace Hermo.AppFeature

open Store

/-- The verb behind an open. -/
inductive Opening where
  | fresh | existing
  | bot (profile : String)
  deriving DecidableEq, Repr

inductive Action where
  | tryResume
  | pair (payload : String)
  | loginAndConnect (password : String)
  | forgetGateway
  | resetSessionsAndRestart
  | networkAvailable
  | core (event : CoreEvent)
  | resumeStarted (endpointText : String)
  | paired (endpointText : String)
  | connectFailed (isAuthShape : Bool) (closedReason : String)
  | mainSessionReady
  | mainSessionClosed (reason : String)
  | resumePlanned (keys : List String)
  | mainSessionRestored (planned resumed : List String) (summaries : List SessionSummary) (current : Option String)
  | mainSessionRestoreFailed (planned : List String)
  | forgotGateway
  | sessionsCleared
  | headerRefreshed (key : String) (summary : SessionSummary)
  | openNewSession
  | openExistingSession (storedId : String)
  | openBotChat (profile : String)
  | switchTab (key : String)
  | closeTab (key : String)
  | setSessionTitle (title : String)
  | newSessionOpened (key : String)
  | existingSessionOpened (key : String)
  | botChatOpened (key profile : String)
  | sessionOpenFailed
  | sessionReady (key : String) (summary : Option SessionSummary)
  | tabClosed (key : String)
  | sessionTitleSet (key : String)

/-- An effect in flight, by the call it waits for. -/
inductive Effect where
  /-- `tryResume`, at `savedEndpoint`. -/
  | resuming
  | loggingIn | connecting
  /-- `openMainSession`, at `openSessions`, at `lastActiveSession`, at the open of the head of `rest`, and at the open
  of a new session. -/
  | listing
  | choosing (summaries : List SessionSummary)
  | restoring (plan : RestorePlan) (summaries : List SessionSummary) (rest resumed : List String)
  | minting
  | pairing (payload : String)
  | forgetting
  /-- `resetSessionsAndRestart`, at `clearSessions` and at the open of a new session. -/
  | clearing | restarting
  | opening (verb : Opening)
  | closing (key : String)
  | titling (key title : String)
  /-- At the `openSessions` of `sessionReadyEffect` and of `refreshHeaderEffect`. -/
  | readying (key : String)
  | refreshing (key : String)

/-- `.cancellable(id: CancelID.connect)`. -/
def Effect.connects : Effect → Bool
  | .resuming | .loggingIn | .connecting | .listing | .choosing _ | .restoring _ _ _ _ | .minting => true
  | _ => false

/-! ### The reducer -/

/-- The value where no exception ends a function; on this platform none does. -/
def completed (result : Except AppState AppState) : Option AppState := result.toOption

def registerOpenedSession (s : AppState) (key : String) : Option AppState :=
  (completed (s.registerKey .ios key)).map (AppState.finishInFlightOpen .ios)

def clearSessionState (s : AppState) : AppState :=
  { s with
    sessions := ∅
    tabs := {}
    currentKey := none
    pendingKeys := ∅
    parkedChanges := []
    inFlightOpens := 0 }

/-- The state is ready with the model of the session on the screen. -/
def afterOpen (s : AppState) : AppState :=
  { s with phase := .ready ((s.currentKey.map s.headerModel).getD "") }

def performSwitchTab (s : AppState) (key : String) : AppState × List Effect :=
  match tabTap s.tabs s.currentKey key with
  | none => (s, [])
  | some next =>
    match next.current with
    | none => ({ s with tabs := next }, [])
    | some current => ({ s with tabs := next, currentKey := some current }, [.readying current])

/-- The open of a session, in flight from now on. -/
def open' (s : AppState) (verb : Opening) : AppState × List Effect := (s.beginOpen, [.opening verb])

/-- One round of the loop over the resumed keys of `mainSessionRestored`. -/
def restoreKey (s : AppState) (key : String) : Option AppState :=
  (completed (s.drainParked .ios key)).map fun s =>
    { s with sessions := ensureSession s.sessions key, tabs := s.tabs.add key }

/-- The tab that `mainSessionRestored` shows. -/
def restoredCurrent (resumed : List String) (planCurrent : Option String) : Option String :=
  (planCurrent.filter (· ∈ resumed)).or resumed.getLast?

def mainSessionRestored (s : AppState) (planned resumed : List String) (summaries : List SessionSummary)
    (planCurrent : Option String) : Option AppState :=
  (resumed.foldlM restoreKey s).map fun s =>
    let s := { s with
      pendingKeys := s.pendingKeys \ planned.toFinset
      sessions := applySummaries s.sessions summaries }
    let s :=
      match restoredCurrent resumed planCurrent with
      | none => s
      | some current => { s with tabs := ⟨s.tabs.keys, some current⟩, currentKey := some current }
    (afterOpen s).finishInFlightOpen .ios

def mainSessionRestoreFailed (s : AppState) (planned : List String) : AppState :=
  let s := { s with pendingKeys := s.pendingKeys \ planned.toFinset }
  (s.closed "error: no session could be resumed").finishInFlightOpen .ios

/-- `newSessionOpened` and its siblings. -/
def sessionOpened (s : AppState) (key : String) (stamp : Sessions → Sessions) : Option (AppState × List Effect) :=
  (registerOpenedSession s key).map fun s =>
    ({ s with sessions := stamp s.sessions, currentKey := some key }, [.readying key])

def tabClosed (s : AppState) (key : String) : AppState × List Effect :=
  let tabs := s.tabs.close key
  let currentKey := if s.currentKey = some key then tabs.current else s.currentKey
  let s := { s with tabs := tabs, sessions := s.sessions.erase key, currentKey := currentKey }
  match tabs.current.filter (some · ≠ currentKey) with
  | some current => ({ s with currentKey := some current }, [.readying current])
  -- `.send(.openNewSession)`
  | none => if tabs.keys = [] then open' s .fresh else (s, [])

def connectFailed (s : AppState) (isAuthShape : Bool) (closedReason : String) : AppState :=
  if isAuthShape then
    { s with phase := PhaseMachine.reduce s.phase .authFailed s.endpointText s.currentKey.isSome }
  else s.closed closedReason

variable [HeaderReader]

def reduce (s : AppState) : Action → Option (AppState × List Effect)
  | .tryResume => some (s, [.resuming])
  | .pair payload => some (s, [.pairing payload])
  | .loginAndConnect _ => some ({ s with phase := .connecting }, [.loggingIn])
  | .forgetGateway => some (s, [.forgetting])
  | .resetSessionsAndRestart => some (s, [.clearing])
  | .networkAvailable => some (s, if s.phase.isOffline then [.resuming] else [])
  | .core (.connection status) => some (s.onConnectionStatus status, [])
  | .core (.transcript change) =>
    (s.onTranscriptChange .ios change).map fun s' =>
      (s', if s.refreshesHeader change then [.refreshing change.key] else [])
  | .resumeStarted endpointText => some ({ s with endpointText := endpointText, phase := .connecting }, [])
  | .paired endpointText =>
    some ({ s with endpointText := endpointText, phase := .needsPassword endpointText false }, [])
  | .connectFailed isAuthShape closedReason => some (connectFailed s isAuthShape closedReason, [])
  | .mainSessionReady => some (afterOpen s, [])
  | .mainSessionClosed reason => some (s.closed reason, [])
  | .resumePlanned keys => some ({ s.beginOpen with pendingKeys := s.pendingKeys ∪ keys.toFinset }, [])
  | .mainSessionRestored planned resumed summaries current =>
    (mainSessionRestored s planned resumed summaries current).map (·, [])
  | .mainSessionRestoreFailed planned => some (mainSessionRestoreFailed s planned, [])
  | .forgotGateway => some ({ clearSessionState s with endpointText := "", phase := .unpaired }, [])
  | .sessionsCleared => some (clearSessionState s, [])
  | .headerRefreshed key summary => some (s.applyHeaderRefresh key summary, [])
  | .openNewSession => some (open' s .fresh)
  | .openExistingSession storedId =>
    some (if storedId ∈ s.tabs.keys then performSwitchTab s storedId else open' s .existing)
  | .openBotChat profile =>
    some (match openTabForProfile .ios s.sessions s.tabs.keys profile with
      | some openKey => performSwitchTab s openKey
      | none => open' s (.bot profile))
  | .switchTab key => some (performSwitchTab s key)
  | .closeTab key => some (s, if key ∈ s.tabs.keys then [.closing key] else [])
  | .setSessionTitle title => some (s, (s.currentKey.map (Effect.titling · title)).toList)
  | .newSessionOpened key => sessionOpened s key id
  | .existingSessionOpened key => sessionOpened s key id
  | .botChatOpened key profile => sessionOpened s key (withProfile · key profile)
  | .sessionOpenFailed => some (s.finishInFlightOpen .ios, [])
  | .sessionReady key summary => some (s.afterOpen .ios key summary, [])
  | .tabClosed key => some (tabClosed s key)
  | .sessionTitleSet key => some (s, [.refreshing key])

/-- `cancelInFlight: true` of the two actions that connect. -/
def cancels (s : AppState) (a : Action) (e : Effect) : Bool :=
  match a with
  | .tryResume | .loginAndConnect _ => e.connects
  | .networkAvailable => s.phase.isOffline && e.connects
  | _ => false

/-! ### The effects -/

def Opening.opened : Opening → String → Action
  | .fresh, key => .newSessionOpened key
  | .existing, key => .existingSessionOpened key
  | .bot profile, key => .botChatOpened key profile

/-- What follows the last open of a plan. -/
def restored (plan : RestorePlan) (summaries : List SessionSummary) (resumed : List String) : Action :=
  if resumed = [] then .mainSessionRestoreFailed plan.resumeKeys
  else .mainSessionRestored plan.resumeKeys resumed summaries plan.current

/-- The loop over the planned keys, before the open of the next one. -/
def restoreNext (plan : RestorePlan) (summaries : List SessionSummary) (rest resumed : List String) :
    Option Action × Option Effect :=
  match rest with
  | [] => (some (restored plan summaries resumed), none)
  | key :: rest => (none, some (.restoring plan summaries (key :: rest) resumed))

def connectFailure (failure : CoreFailure) : Action :=
  .connectFailed failure.isAuthShape ("error: " ++ failure.message)

/-- The action an effect sends with an answer, and the call it waits for next. -/
def resume : Effect → CoreAnswer → Option (Option Action × Option Effect)
  | .resuming, .savedEndpoint none => some (none, none)
  | .resuming, .savedEndpoint (some endpoint) => some (some (.resumeStarted endpoint.displayText), some .connecting)
  | .loggingIn, .done => some (none, some .connecting)
  | .loggingIn, .failed failure => some (some (connectFailure failure), none)
  | .connecting, .done => some (none, some .listing)
  | .connecting, .failed failure => some (some (connectFailure failure), none)
  | .listing, .sessions summaries => some (none, some (.choosing summaries))
  | .choosing summaries, .lastActive lastActive =>
    let plan := restorePlan (summaries.map SessionSummary.key) lastActive
    some (some (.resumePlanned plan.resumeKeys),
      some (if plan.resumeKeys = [] then .minting else .restoring plan summaries plan.resumeKeys []))
  | .restoring plan summaries (key :: rest) resumed, .opened _ =>
    some (restoreNext plan summaries rest (resumed ++ [key]))
  | .restoring plan summaries (_ :: rest) resumed, .failed _ => some (restoreNext plan summaries rest resumed)
  | .minting, .opened key => some (some (.newSessionOpened key), none)
  | .minting, .failed _ => some (some (.mainSessionRestoreFailed []), none)
  | .pairing _, .paired endpoint => some (some (.paired endpoint.displayText), none)
  | .pairing _, .failed _ => some (none, none)
  | .forgetting, .done => some (some .forgotGateway, none)
  | .forgetting, .failed _ => some (none, none)
  | .clearing, .done => some (some .sessionsCleared, some .restarting)
  | .clearing, .failed _ => some (none, none)
  | .restarting, .opened key => some (some (.newSessionOpened key), none)
  | .restarting, .failed _ => some (none, none)
  | .opening verb, .opened key => some (some (verb.opened key), none)
  | .opening _, .failed _ => some (some .sessionOpenFailed, none)
  | .closing key, .done => some (some (.tabClosed key), none)
  | .closing _, .failed _ => some (none, none)
  | .titling key _, .done => some (some (.sessionTitleSet key), none)
  | .titling _ _, .failed _ => some (none, none)
  | .readying key, .sessions summaries => some (some (.sessionReady key (summaries.find? (·.key = key))), none)
  | .refreshing key, .sessions summaries =>
    some ((summaries.find? (·.key = key)).map (Action.headerRefreshed key), none)
  | _, _ => none

/-- The actions of the user, the core and the network monitor. -/
def sent : Action → Bool
  | .tryResume | .pair _ | .loginAndConnect _ | .forgetGateway | .resetSessionsAndRestart | .networkAvailable
  | .core _ | .openNewSession | .openExistingSession _ | .openBotChat _ | .switchTab _ | .closeTab _
  | .setSessionTitle _ => true
  | _ => false

def feature : Feature AppState Action Effect CoreAnswer := ⟨reduce, cancels, resume, sent⟩

/-! ### What an effect can do -/

/-- What an answer makes of an effect, row by row. -/
inductive Resumed : Effect → CoreAnswer → Option Action × Option Effect → Prop
  | unpaired : Resumed .resuming (.savedEndpoint none) (none, none)
  | resumed (endpoint : EndpointDto) : Resumed .resuming (.savedEndpoint (some endpoint))
      (some (.resumeStarted endpoint.displayText), some .connecting)
  | loggedIn : Resumed .loggingIn .done (none, some .connecting)
  | loginFailed (failure : CoreFailure) : Resumed .loggingIn (.failed failure) (some (connectFailure failure), none)
  | connected : Resumed .connecting .done (none, some .listing)
  | connectFailed (failure : CoreFailure) : Resumed .connecting (.failed failure) (some (connectFailure failure), none)
  | listed (summaries : List SessionSummary) : Resumed .listing (.sessions summaries) (none, some (.choosing summaries))
  | chosen (summaries : List SessionSummary) (lastActive : Option String) (plan : RestorePlan)
      (hplan : plan = restorePlan (summaries.map SessionSummary.key) lastActive) :
      Resumed (.choosing summaries) (.lastActive lastActive) (some (.resumePlanned plan.resumeKeys),
        some (if plan.resumeKeys = [] then .minting else .restoring plan summaries plan.resumeKeys []))
  | restored (plan : RestorePlan) (summaries : List SessionSummary) (asked key : String) (rest resumed : List String) :
      Resumed (.restoring plan summaries (asked :: rest) resumed) (.opened key)
        (restoreNext plan summaries rest (resumed ++ [asked]))
  | restoreFailed (plan : RestorePlan) (summaries : List SessionSummary) (asked : String) (rest resumed : List String)
      (failure : CoreFailure) : Resumed (.restoring plan summaries (asked :: rest) resumed) (.failed failure)
        (restoreNext plan summaries rest resumed)
  | minted (key : String) : Resumed .minting (.opened key) (some (.newSessionOpened key), none)
  | mintFailed (failure : CoreFailure) : Resumed .minting (.failed failure) (some (.mainSessionRestoreFailed []), none)
  | paired (payload : String) (endpoint : EndpointDto) :
      Resumed (.pairing payload) (.paired endpoint) (some (.paired endpoint.displayText), none)
  | pairFailed (payload : String) (failure : CoreFailure) : Resumed (.pairing payload) (.failed failure) (none, none)
  | forgot : Resumed .forgetting .done (some .forgotGateway, none)
  | forgetFailed (failure : CoreFailure) : Resumed .forgetting (.failed failure) (none, none)
  | cleared : Resumed .clearing .done (some .sessionsCleared, some .restarting)
  | clearFailed (failure : CoreFailure) : Resumed .clearing (.failed failure) (none, none)
  | restarted (key : String) : Resumed .restarting (.opened key) (some (.newSessionOpened key), none)
  | restartFailed (failure : CoreFailure) : Resumed .restarting (.failed failure) (none, none)
  | opened (verb : Opening) (key : String) : Resumed (.opening verb) (.opened key) (some (verb.opened key), none)
  | openFailed (verb : Opening) (failure : CoreFailure) :
      Resumed (.opening verb) (.failed failure) (some .sessionOpenFailed, none)
  | closed (key : String) : Resumed (.closing key) .done (some (.tabClosed key), none)
  | closeFailed (key : String) (failure : CoreFailure) : Resumed (.closing key) (.failed failure) (none, none)
  | titled (key title : String) : Resumed (.titling key title) .done (some (.sessionTitleSet key), none)
  | titleFailed (key title : String) (failure : CoreFailure) : Resumed (.titling key title) (.failed failure) (none, none)
  | readied (key : String) (summaries : List SessionSummary) : Resumed (.readying key) (.sessions summaries)
      (some (.sessionReady key (summaries.find? (·.key = key))), none)
  | refreshed (key : String) (summaries : List SessionSummary) : Resumed (.refreshing key) (.sessions summaries)
      ((summaries.find? (·.key = key)).map (Action.headerRefreshed key), none)

omit [HeaderReader] in
theorem resumed_cases {e : Effect} {answer : CoreAnswer} {r : Option Action × Option Effect}
    (h : resume e answer = some r) : Resumed e answer r := by
  unfold resume at h
  split at h <;> cases h
  all_goals first
    | exact .chosen _ _ _ rfl
    | constructor

end Hermo.AppFeature
