import Hermo.App.AppState
import Hermo.Library.Tasks

/-!
# The repository of the Android app

`GatewayRepository.kt` as a set of coroutines on the main thread: a task is a coroutine, by the call of the core it is
suspended at, and a step takes it from one suspension to the next.  The coroutine that drains the channel is one of
them.  Verbs that only write the error line (`send`, `runSlash`, `interrupt`, the answers to cards) are left out.
`next_cases` lists what a step can do.
-/

namespace Hermo.Repository

open Tasks

/-- The verbs the view model launches. -/
inductive Call where
  | tryResume
  | pair (payload : String)
  | loginAndConnect (password : String)
  | openExistingSession (storedId : String)
  | openNewSession
  | openBotChat (profile : String)
  | resetSessionsAndRestart
  | forgetGateway
  | switchTab (key : String)
  | closeTab (key : String)
  | setSessionTitle (title : String)
  deriving DecidableEq, Repr

/-- What a coroutine does after its header refresh. -/
inductive Tail where
  /-- `refreshHeader` on its own. -/
  | header
  /-- The rest of `afterOpen`. -/
  | opened
  /-- The rest of `afterOpen` in `openMainSession`, whose callers catch. -/
  | connected
  /-- The rest of `afterOpen` in `closeTab`, and the check for an empty strip. -/
  | closed (isEmpty : Bool)
  deriving DecidableEq, Repr

inductive Task where
  /-- The loop over the channel. -/
  | draining
  /-- Launched, and not run yet. -/
  | called (call : Call)
  | resuming | loggingIn | connecting
  /-- `openMainSession`, at `openSessions`, at `lastActiveSession`, at the open of the head of `rest`, and at the open
  of a new session. -/
  | listing
  | choosing (summaries : List SessionSummary)
  | restoring (plan : RestorePlan) (summaries : List SessionSummary) (rest resumed : List String)
  | minting
  | pairing
  | forgetting | resetting
  /-- The open of a picker row, of a new chat or, with its profile, of a bot chat. -/
  | opening (profile : String)
  | closing (key : String)
  | titling (key : String)
  | refreshing (key : String) (tail : Tail)
  | returned
  deriving DecidableEq, Repr

inductive Input where
  | run
  | event (event : CoreEvent)
  | answer (answer : CoreAnswer)

/-! ### Opening -/

/-- `openAndRegister` after its call answered; the flag tells whether it returns the key. -/
def register (s : AppState) (key : String) : AppState × Bool :=
  match s.registerKey .android key with
  | .ok s => (s.finishInFlightOpen .android, true)
  | .error s => (s.finishInFlightOpen .android, false)

variable [HeaderReader]

/-- The coroutine goes on after its header refresh. -/
def finish (s : AppState) (key : String) (summary : Option SessionSummary) : Tail → AppState × Task
  | .header => (s.refreshHeader key summary, .returned)
  | .opened | .connected => (s.afterOpen .android key summary, .returned)
  | .closed isEmpty =>
    let s := s.afterOpen .android key summary
    if isEmpty then (s.beginOpen, .opening "") else (s, .returned)

/-- `refreshHeader(key)` and what follows it; a key that is neither open nor being restored spends no round trip. -/
def refreshThen (s : AppState) (key : String) (tail : Tail) : AppState × Task :=
  if s.isOpenOrRestoring key then (s, .refreshing key tail) else finish s key none tail

def switchTab (s : AppState) (key : String) : AppState × Task :=
  match tabTap s.tabs s.currentKey key with
  | none => (s, .returned)
  | some next =>
    let s := { s with tabs := next }
    match next.current with
    | none => (s, .returned)
    | some current => refreshThen { s with currentKey := some current } current .opened

/-- The end of a picker open, a new chat or a bot chat. -/
def opened (s : AppState) (key profile : String) : AppState × Task :=
  match register s key with
  | (s, false) => (s, .returned)
  | (s, true) =>
    let s := { s with sessions := withProfile s.sessions key profile, currentKey := some key }
    refreshThen s key .opened

/-- The end of `openMainSession`: its session goes on the screen. -/
def showMain (s : AppState) (key : String) : AppState × Task :=
  let s := { s with tabs := ⟨s.tabs.keys, some key⟩, currentKey := some key }
  refreshThen s key .connected

/-- The tab `openMainSession` shows, where one was resumed. -/
def restoredCurrent (plan : RestorePlan) (resumed : List String) : Option String :=
  (plan.current.filter (· ∈ resumed)).or resumed.getLast?

/-- `openMainSession` after the loop over the planned keys. -/
def concludeRestore (s : AppState) (plan : RestorePlan) (summaries : List SessionSummary) (resumed : List String) :
    AppState × Task :=
  let s := { s with
    pendingKeys := s.pendingKeys \ plan.resumeKeys.toFinset
    sessions := applySummaries s.sessions summaries }
  match restoredCurrent plan resumed with
  | some key => showMain s key
  | none =>
    if plan.resumeKeys ≠ [] then (s.closed "error: no session could be resumed", .returned)
    else (s.beginOpen, .minting)

/-- The loop over the planned keys, before the open of the next one. -/
def restoreNext (s : AppState) (plan : RestorePlan) (summaries : List SessionSummary) (rest resumed : List String) :
    AppState × Task :=
  match rest with
  | [] => concludeRestore s plan summaries resumed
  | key :: rest => (s.beginOpen, .restoring plan summaries (key :: rest) resumed)

/-- One open of the loop has answered. -/
def restored (s : AppState) (plan : RestorePlan) (summaries : List SessionSummary) (rest resumed : List String)
    (key : String) : AppState × Task :=
  let (s, isOpen) := register s key
  restoreNext s plan summaries rest (if isOpen then resumed ++ [key] else resumed)

/-- The new session of an empty registry has been opened. -/
def minted (s : AppState) (key : String) : AppState × Task :=
  match register s key with
  | (s, false) => (s.closed "error: no session could be resumed", .returned)
  | (s, true) => showMain s key

def onConnectFailure (s : AppState) (failure : CoreFailure) : AppState :=
  if failure.isAuthShape then
    { s with phase := PhaseMachine.reduce s.phase .authFailed s.endpointText s.currentKey.isSome }
  else s.closed ("error: " ++ failure.message)

/-- `forgetGateway` after its call; what is parked stays. -/
def forgot (s : AppState) : AppState :=
  { s with
    pendingKeys := ∅
    inFlightOpens := 0
    tabs := {}
    sessions := ∅
    currentKey := none
    endpointText := ""
    phase := .unpaired }

/-- `closeTab` after its call. -/
def closed (s : AppState) (key : String) : AppState × Task :=
  let next := s.tabs.close key
  let s := { s with tabs := next, sessions := s.sessions.erase key }
  match next.current.filter (some · ≠ s.currentKey) with
  | some current => refreshThen { s with currentKey := some current } current (.closed (next.keys = []))
  | none => if next.keys = [] then (s.beginOpen, .opening "") else (s, .returned)

/-! ### The coroutines -/

/-- A verb up to its first suspension. -/
def run (s : AppState) : Call → AppState × Task
  | .tryResume => (s, .resuming)
  | .pair _ => (s, .pairing)
  | .loginAndConnect _ => ({ s with phase := .connecting }, .loggingIn)
  | .openExistingSession storedId =>
    if storedId ∈ s.tabs.keys then switchTab s storedId else (s.beginOpen, .opening "")
  | .openNewSession => (s.beginOpen, .opening "")
  | .openBotChat profile =>
    match openTabForProfile .android s.sessions s.tabs.keys profile with
    | some openKey => switchTab s openKey
    | none => (s.beginOpen, .opening profile)
  | .resetSessionsAndRestart => (s, .resetting)
  | .forgetGateway => (s, .forgetting)
  | .switchTab key => switchTab s key
  | .closeTab key => (s, .closing key)
  | .setSessionTitle _ =>
    match s.currentKey with
    | none => (s, .returned)
    | some key => (s, .titling key)

/-- One event of the channel; a header change launches a refresh.  `none`: the exception ends the app. -/
def onEvent (s : AppState) : CoreEvent → Option (AppState × List Task)
  | .connection status => some (s.onConnectionStatus status, [])
  | .transcript change =>
    (s.onTranscriptChange .android change).map fun s' =>
      (s', if s.refreshesHeader change then [.refreshing change.key .header] else [])

/-- A coroutine from the answer of its call to its next suspension. -/
def answered (s : AppState) : Task → CoreAnswer → Option (AppState × Task)
  | .resuming, .savedEndpoint none => some (s, .returned)
  | .resuming, .savedEndpoint (some endpoint) =>
    some ({ s with endpointText := endpoint.displayText, phase := .connecting }, .connecting)
  | .loggingIn, .done => some (s, .connecting)
  | .loggingIn, .failed failure => some (onConnectFailure s failure, .returned)
  | .connecting, .done => some (s, .listing)
  | .connecting, .failed failure => some (onConnectFailure s failure, .returned)
  | .listing, .sessions summaries => some (s, .choosing summaries)
  | .listing, .failed _ => some (s.closed "error: session registry unreachable", .returned)
  | .choosing summaries, .lastActive lastActive =>
    let plan := restorePlan (summaries.map SessionSummary.key) lastActive
    let s := { s with pendingKeys := s.pendingKeys ∪ plan.resumeKeys.toFinset }
    some (restoreNext s plan summaries plan.resumeKeys [])
  | .restoring plan summaries (_ :: rest) resumed, .opened key => some (restored s plan summaries rest resumed key)
  | .restoring plan summaries (_ :: rest) resumed, .failed _ =>
    some (restoreNext (s.finishInFlightOpen .android) plan summaries rest resumed)
  | .minting, .opened key => some (minted s key)
  | .minting, .failed _ =>
    some ((s.finishInFlightOpen .android).closed "error: no session could be resumed", .returned)
  | .pairing, .paired endpoint =>
    some ({ s with endpointText := endpoint.displayText, phase := .needsPassword endpoint.displayText false },
      .returned)
  | .pairing, .failed _ => some (s, .returned)
  | .forgetting, .done => some (forgot s, .returned)
  | .forgetting, .failed _ => some (s, .returned)
  | .resetting, .done =>
    some ({ s with tabs := {}, sessions := ∅, currentKey := none }.beginOpen, .opening "")
  | .resetting, .failed _ => some (s, .returned)
  | .opening profile, .opened key => some (opened s key profile)
  | .opening _, .failed _ => some (s.finishInFlightOpen .android, .returned)
  | .closing key, .done => some (closed s key)
  | .closing _, .failed _ => some (s, .returned)
  | .titling key, .done => some (refreshThen s key .header)
  | .titling _, .failed _ => some (s, .returned)
  | .refreshing key tail, .sessions summaries => some (finish s key (summaries.find? (·.key = key)) tail)
  | .refreshing _ .connected, .failed failure => some (onConnectFailure s failure, .returned)
  | .refreshing _ _, .failed _ => some (s, .returned)
  | _, _ => none

/-- What a coroutine does on an input, and the coroutines it launches. -/
def next (s : AppState) : Task → Input → Option (AppState × Task × List Task)
  | .draining, .event event => (onEvent s event).map fun (s, launched) => (s, .draining, launched)
  | .called call, .run => some ((run s call).1, (run s call).2, [])
  | t, .answer answer => (answered s t answer).map fun (s, t) => (s, t, [])
  | _, _ => none

/-- The view model may launch every verb at any time; only the channel speaks by itself. -/
def entry : AppState → Task → Bool
  | _, .called _ => true
  | _, _ => false

def program : Program AppState Task Input Empty := ⟨next, fun _ e => e.elim, entry⟩

/-- The repository as it is created. -/
def start : System AppState Task := ⟨{}, [.draining]⟩

/-! ### What a step can do -/

/-- What an answer makes of a coroutine, row by row. -/
inductive Answered (s : AppState) : Task → CoreAnswer → AppState × Task → Prop
  | unpaired : Answered s .resuming (.savedEndpoint none) (s, .returned)
  | resumed (endpoint : EndpointDto) : Answered s .resuming (.savedEndpoint (some endpoint))
      ({ s with endpointText := endpoint.displayText, phase := .connecting }, .connecting)
  | loggedIn : Answered s .loggingIn .done (s, .connecting)
  | loginFailed (failure : CoreFailure) :
      Answered s .loggingIn (.failed failure) (onConnectFailure s failure, .returned)
  | connected : Answered s .connecting .done (s, .listing)
  | connectFailed (failure : CoreFailure) :
      Answered s .connecting (.failed failure) (onConnectFailure s failure, .returned)
  | listed (summaries : List SessionSummary) : Answered s .listing (.sessions summaries) (s, .choosing summaries)
  | listFailed (failure : CoreFailure) :
      Answered s .listing (.failed failure) (s.closed "error: session registry unreachable", .returned)
  | chosen (summaries : List SessionSummary) (lastActive : Option String) (plan : RestorePlan)
      (hplan : plan = restorePlan (summaries.map SessionSummary.key) lastActive) :
      Answered s (.choosing summaries) (.lastActive lastActive)
        (restoreNext { s with pendingKeys := s.pendingKeys ∪ plan.resumeKeys.toFinset } plan summaries plan.resumeKeys [])
  | restored (plan : RestorePlan) (summaries : List SessionSummary) (asked key : String) (rest resumed : List String) :
      Answered s (.restoring plan summaries (asked :: rest) resumed) (.opened key)
        (restored s plan summaries rest resumed key)
  | restoreFailed (plan : RestorePlan) (summaries : List SessionSummary) (asked : String) (rest resumed : List String)
      (failure : CoreFailure) : Answered s (.restoring plan summaries (asked :: rest) resumed) (.failed failure)
        (restoreNext (s.finishInFlightOpen .android) plan summaries rest resumed)
  | minted (key : String) : Answered s .minting (.opened key) (minted s key)
  | mintFailed (failure : CoreFailure) : Answered s .minting (.failed failure)
      ((s.finishInFlightOpen .android).closed "error: no session could be resumed", .returned)
  | paired (endpoint : EndpointDto) : Answered s .pairing (.paired endpoint)
      ({ s with endpointText := endpoint.displayText, phase := .needsPassword endpoint.displayText false }, .returned)
  | pairFailed (failure : CoreFailure) : Answered s .pairing (.failed failure) (s, .returned)
  | forgot : Answered s .forgetting .done (forgot s, .returned)
  | forgetFailed (failure : CoreFailure) : Answered s .forgetting (.failed failure) (s, .returned)
  | reset : Answered s .resetting .done
      ({ s with tabs := {}, sessions := ∅, currentKey := none }.beginOpen, .opening "")
  | resetFailed (failure : CoreFailure) : Answered s .resetting (.failed failure) (s, .returned)
  | opened (profile key : String) : Answered s (.opening profile) (.opened key) (opened s key profile)
  | openFailed (profile : String) (failure : CoreFailure) :
      Answered s (.opening profile) (.failed failure) (s.finishInFlightOpen .android, .returned)
  | closed (key : String) : Answered s (.closing key) .done (closed s key)
  | closeFailed (key : String) (failure : CoreFailure) : Answered s (.closing key) (.failed failure) (s, .returned)
  | titled (key : String) : Answered s (.titling key) .done (refreshThen s key .header)
  | titleFailed (key : String) (failure : CoreFailure) : Answered s (.titling key) (.failed failure) (s, .returned)
  | refreshed (key : String) (tail : Tail) (summaries : List SessionSummary) :
      Answered s (.refreshing key tail) (.sessions summaries) (finish s key (summaries.find? (·.key = key)) tail)
  | mainFailed (key : String) (failure : CoreFailure) :
      Answered s (.refreshing key .connected) (.failed failure) (onConnectFailure s failure, .returned)
  | refreshFailed (key : String) (tail : Tail) (failure : CoreFailure) (htail : tail ≠ .connected) :
      Answered s (.refreshing key tail) (.failed failure) (s, .returned)

theorem answered_cases {s : AppState} {t : Task} {a : CoreAnswer} {r : AppState × Task} (h : answered s t a = some r) :
    Answered s t a r := by
  unfold answered at h
  split at h <;> cases h
  all_goals first
    | exact .chosen _ _ _ rfl
    | exact .refreshFailed _ _ _ ‹_›
    | constructor

/-- A coroutine runs a verb, takes an event of the channel, or hears an answer. -/
theorem next_cases {s : AppState} {t : Task} {input : Input} {r : AppState × Task × List Task}
    (h : next s t input = some r) :
    (∃ call, t = .called call ∧ input = .run ∧ r = ((run s call).1, (run s call).2, [])) ∨
      (∃ event s' launched, t = .draining ∧ input = .event event ∧ onEvent s event = some (s', launched) ∧
        r = (s', .draining, launched)) ∨
      ∃ a r', input = .answer a ∧ Answered s t a r' ∧ r = (r'.1, r'.2, []) := by
  have hanswer : ∀ {a}, (answered s t a).map (fun r => (r.1, r.2, ([] : List Task))) = some r →
      ∃ r', Answered s t a r' ∧ r = (r'.1, r'.2, []) := by
    intro a hmap
    obtain ⟨r', hr, heq⟩ := Option.map_eq_some_iff.1 hmap
    exact ⟨r', answered_cases hr, heq.symm⟩
  unfold next at h
  split at h
  · obtain ⟨⟨s', launched⟩, hevent, heq⟩ := Option.map_eq_some_iff.1 h
    exact .inr (.inl ⟨_, s', launched, rfl, rfl, hevent, heq.symm⟩)
  · cases h
    exact .inl ⟨_, rfl, rfl, rfl⟩
  · obtain ⟨r', hr, heq⟩ := hanswer h
    exact .inr (.inr ⟨_, r', rfl, hr, heq⟩)
  · cases h

end Hermo.Repository
