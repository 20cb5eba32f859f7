import Hermo.Library.Tasks

/-!
# The life of a connection

`connect`, `app_did_foreground`, `disconnect`, `forget_gateway` and the supervisor share the client handle, the
`supervising` flag, the stop flag and the published states of the clients, without a common lock.  Every point below
is a place where another task may run: an await, or the gap between two accesses of the shared state.  What a task
does between two points is one step; `establish` and the backoff sleep end as an input says.  `resume_all` and the
events are `Hermo.Supervisor`; here they are one point each.
-/

namespace Hermo.Lifecycle

/-- `LOCAL_CLOSE_REASON`. -/
def localCloseReason : String := "user logout"

inductive ConnectionStatus where
  | connecting | open
  | closed (reason : String)
  | needsPassword
  deriving DecidableEq, Repr

inductive EstablishResult where
  | connected | sessionExpired | failed
  deriving DecidableEq, Repr

/-- What a supervisor must not do any more after a disconnect. -/
inductive Deed where
  | reportedOpen (client : Nat)
  | startedResume (client : Nat)
  | installed (client : Nat)
  deriving DecidableEq, Repr

structure Shared where
  /-- `state.client`; a client is named by its place in `published`. -/
  client : Option Nat := none
  supervising : Bool := false
  stopFlag : Bool := false
  /-- A sink is registered. -/
  sink : Bool := false
  /-- The published states: `none` is `Open`, `some reason` is `Closed(reason)`. -/
  published : List (Option String) := []
  /-- What the supervisors have done so far. -/
  deeds : List Deed := []

namespace Shared

/-- The reason a client was closed for. -/
def reason (s : Shared) (c : Nat) : Option String := s.published[c]?.join

/-- `close_terminal`: the first reason stays. -/
def close (s : Shared) (c : Nat) (reason : String) : Shared :=
  { s with published := s.published.modify c fun r => some (r.getD reason) }

/-- `GatewayClient::connect` returned: a new client, open. -/
def connected (s : Shared) : Shared := { s with published := s.published ++ [none] }

def note (s : Shared) (deed : Deed) : Shared := { s with deeds := s.deeds ++ [deed] }

@[simp] theorem reason_connected (s : Shared) (c : Nat) : s.connected.reason c = s.reason c := by
  unfold connected reason
  dsimp only
  rw [List.getElem?_append]
  split
  · rfl
  · rename_i h
    rw [List.getElem?_eq_none (Nat.le_of_not_lt h)]
    cases hlast : ([none] : List (Option String))[c - s.published.length]? with
    | none => rfl
    | some r =>
      obtain rfl : r = none := by simpa using List.mem_of_getElem? hlast
      rfl

/-- A client that is closed keeps its reason. -/
theorem reason_close_of_closed {s : Shared} {c' : Nat} {r' : String} (h : s.reason c' = some r') (c : Nat)
    (r : String) : (s.close c r).reason c' = some r' := by
  unfold reason at h
  unfold close reason
  dsimp only
  rw [List.getElem?_modify]
  cases hp : s.published[c']? with
  | none =>
    rw [hp] at h
    cases h
  | some state =>
    rw [hp] at h
    obtain rfl : state = some r' := h
    by_cases hc : c = c' <;> simp [hc]

/-- A client is closed for the reason it had, or for this one. -/
theorem closed_of_reason_close {s : Shared} {c c' : Nat} {r r' : String} (h : (s.close c r).reason c' = some r') :
    s.reason c' = some r' ∨ (c' = c ∧ r' = r) := by
  cases hold : s.reason c' with
  | some r'' =>
    rw [reason_close_of_closed hold, Option.some_inj] at h
    exact .inl (congrArg some h)
  | none =>
    unfold reason at hold
    unfold close reason at h
    dsimp only at h
    rw [List.getElem?_modify] at h
    cases hp : s.published[c']? with
    | none =>
      rw [hp] at h
      cases h
    | some state =>
      rw [hp] at h hold
      obtain rfl : state = none := hold
      by_cases hc : c = c'
      · simp only [hc, ↓reduceIte, Option.map_eq_map, Option.map_some, Option.join_some, Option.getD_none,
          Option.some.injEq] at h
        exact .inr ⟨hc.symm, h.symm⟩
      · simp [hc] at h

end Shared

/-- Why a supervisor ends. -/
inductive Ending where
  | closedLocally | stopped | sessionExpired
  deriving DecidableEq, Repr

/-- Where a supervisor is; the argument of a point is its `current` client. -/
inductive SupervisorPoint where
  /-- The head of the outer loop. -/
  | top (c : Nat)
  | sawOpen (c : Nat)
  /-- Before `resume_all`. -/
  | resume (c : Nat)
  | resuming (c : Nat)
  /-- The event loop. -/
  | events (c : Nat)
  | sawClosed (reason : String)
  /-- Behind the event loop, before the stop flag is read. -/
  | stopCheck
  /-- The head of the reconnect ladder. -/
  | backoff
  | sleeping
  | establishing
  | established (c : Nat)
  | needsPassword
  /-- `supervise_inner` returned, the flag not yet cleared. -/
  | exiting (why : Ending)
  | ended (why : Ending)
  deriving DecidableEq, Repr

inductive ConnectPoint where
  | start | establishing
  | established (c : Nat)
  | installed (c : Nat)
  | unstopped (c : Nat)
  /-- The flag is taken. -/
  | spawning (c : Nat)
  | returned
  deriving DecidableEq, Repr

inductive ForegroundPoint where
  | start | probing | swapping
  /-- The flag is taken, the sink not yet read. -/
  | holding
  | establishing
  /-- `establish` failed or there is no sink. -/
  | releasing
  | expired
  /-- The flag is released, `NeedsPassword` not yet reported. -/
  | reporting
  | established (c : Nat)
  | installed (c : Nat)
  | spawning (c : Nat)
  | returned
  deriving DecidableEq, Repr

inductive DisconnectPoint where
  | start | taking
  | closing (c : Nat)
  | returned
  deriving DecidableEq, Repr

inductive ForgetPoint where
  | start | taking | clearing | returned
  deriving DecidableEq, Repr

inductive Task where
  /-- `last` is the status it reported last. -/
  | supervisor (point : SupervisorPoint) (last : Option ConnectionStatus)
  | connect (point : ConnectPoint)
  | foreground (point : ForegroundPoint)
  | disconnect (point : DisconnectPoint)
  | forget (point : ForgetPoint)
  deriving DecidableEq, Repr

/-- `run` is the next local step, `timeout` the end of the backoff sleep. -/
inductive Input where
  | run
  | establish (result : EstablishResult)
  | timeout
  deriving DecidableEq, Repr

/-- The server, the network, the heartbeat or the writer closes a client. -/
inductive Event where
  | closed (c : Nat) (reason : String)
  deriving DecidableEq, Repr

/-- `supervise_inner`, and the store at the end of `supervise`; with the status it reports. -/
def SupervisorPoint.next (s : Shared) :
    SupervisorPoint → Input → Option (Shared × SupervisorPoint × Option ConnectionStatus)
  | .top c, .run =>
    match s.reason c with
    | none => some (s, .sawOpen c, some .connecting)
    | some reason => some (s, .sawClosed reason, some .connecting)
  | .sawOpen c, .run => some (s.note (.reportedOpen c), .resume c, some .open)
  | .resume c, .run => some (s.note (.startedResume c), .resuming c, none)
  | .resuming c, .run => some (s, .events c, none)
  -- neither channel of the event loop can close: `current` keeps their senders alive
  | .events c, .run =>
    match s.reason c with
    | none => none
    | some reason => some (s, .sawClosed reason, none)
  | .sawClosed reason, .run =>
    some (s, if reason = localCloseReason then .exiting .closedLocally else .stopCheck, some (.closed reason))
  | .stopCheck, .run => some (s, if s.stopFlag then .exiting .stopped else .backoff, none)
  | .backoff, .run => some (s, .sleeping, some .connecting)
  | .sleeping, .run => if s.stopFlag then some (s, .exiting .stopped, none) else none
  -- the sleep polls the flag before its timer, so it never times out over a raised flag
  | .sleeping, .timeout => if s.stopFlag then none else some (s, .establishing, none)
  | .establishing, .establish .connected => some (s.connected, .established s.published.length, none)
  | .establishing, .establish .sessionExpired => some (s, .needsPassword, none)
  | .establishing, .establish .failed => some (s, .backoff, none)
  | .established c, .run => some ({ s with client := some c }.note (.installed c), .top c, none)
  | .needsPassword, .run => some (s, .exiting .sessionExpired, some .needsPassword)
  | .exiting why, .run => some ({ s with supervising := false }, .ended why, none)
  | _, _ => none

/-- `connect_inner`; the last component is the client a supervisor is spawned for. -/
def ConnectPoint.next (s : Shared) : ConnectPoint → Input → Option (Shared × ConnectPoint × Option Nat)
  | .start, .run => some ({ s with sink := true }, .establishing, none)
  | .establishing, .establish .connected => some (s.connected, .established s.published.length, none)
  | .establishing, .establish _ => some (s, .returned, none)
  | .established c, .run => some ({ s with client := some c }, .installed c, none)
  | .installed c, .run => some ({ s with stopFlag := false }, .unstopped c, none)
  | .unstopped c, .run =>
    some ({ s with supervising := true }, if s.supervising then .returned else .spawning c, none)
  | .spawning c, .run => some (s, .returned, some c)
  | _, _ => none

/-- `app_did_foreground`. -/
def ForegroundPoint.next (s : Shared) : ForegroundPoint → Input → Option (Shared × ForegroundPoint × Option Nat)
  | .start, .run => some (s, if s.supervising then .probing else .swapping, none)
  | .probing, .run => some (s, .returned, none)
  | .swapping, .run => some ({ s with supervising := true }, if s.supervising then .returned else .holding, none)
  | .holding, .run => some (s, if s.sink then .establishing else .releasing, none)
  | .establishing, .establish .connected => some (s.connected, .established s.published.length, none)
  | .establishing, .establish .sessionExpired => some (s, .expired, none)
  | .establishing, .establish .failed => some (s, .releasing, none)
  | .releasing, .run => some ({ s with supervising := false }, .returned, none)
  | .expired, .run => some ({ s with supervising := false }, .reporting, none)
  | .reporting, .run => some (s, .returned, none)
  | .established c, .run => some ({ s with client := some c }, .installed c, none)
  | .installed c, .run => some ({ s with stopFlag := false }, .spawning c, none)
  | .spawning c, .run => some (s, .returned, some c)
  | _, _ => none

/-- `disconnect`; raising the flag and waking its waiters is one step. -/
def DisconnectPoint.next (s : Shared) : DisconnectPoint → Input → Option (Shared × DisconnectPoint)
  | .start, .run => some ({ s with stopFlag := true }, .taking)
  | .taking, .run =>
    some ({ s with client := none }, match s.client with
      | some c => .closing c
      | none => .returned)
  | .closing c, .run => some (s.close c localCloseReason, .returned)
  | _, _ => none

/-- `forget_gateway`; it closes the client under the lock it took it with, and clears the tabs at the end. -/
def ForgetPoint.next (s : Shared) : ForgetPoint → Input → Option (Shared × ForgetPoint)
  | .start, .run => some ({ s with stopFlag := true }, .taking)
  | .taking, .run =>
    some ({ (match s.client with
      | some c => s.close c localCloseReason
      | none => s) with client := none }, .clearing)
  | .clearing, .run => some (s, .returned)
  | _, _ => none

/-- The supervisor a call spawns. -/
def spawned (client : Option Nat) : List Task := (client.map fun c => .supervisor (.top c) none).toList

def Task.next (s : Shared) : Task → Input → Option (Shared × Task × List Task)
  | .supervisor point last, input =>
    (point.next s input).map fun (s', point', status) => (s', .supervisor point' (status.or last), [])
  | .connect point, input =>
    (point.next s input).map fun (s', point', client) => (s', .connect point', spawned client)
  | .foreground point, input =>
    (point.next s input).map fun (s', point', client) => (s', .foreground point', spawned client)
  | .disconnect point, input => (point.next s input).map fun (s', point') => (s', .disconnect point', [])
  | .forget point, input => (point.next s input).map fun (s', point') => (s', .forget point', [])

/-- A close reaches a client that is open. -/
def Event.next (s : Shared) : Event → Option Shared
  | .closed c reason => if s.published[c]? = some none then some (s.close c reason) else none

/-- A call of the app. -/
def Task.isCall : Task → Bool
  | .connect .start | .foreground .start | .disconnect .start | .forget .start => true
  | _ => false

/-- The core with its connections. -/
def program : Tasks.Program Shared Task Input Event := ⟨Task.next, Event.next, fun _ => Task.isCall⟩

@[simp] theorem program_next : program.next = Task.next := rfl

@[simp] theorem program_env : program.env = Event.next := rfl

abbrev System := Tasks.System Shared Task

abbrev Label := Tasks.Label Task Input Event

/-- The core before the first call. -/
def start : System := ⟨{}, []⟩

/-! ### What a step does -/

/-- The steps of a supervisor. -/
inductive SupervisorPoint.Step (s : Shared) :
    SupervisorPoint → Input → Shared → SupervisorPoint → Option ConnectionStatus → Prop where
  | topOpen {c : Nat} (h : s.reason c = none) : Step s (.top c) .run s (.sawOpen c) (some .connecting)
  | topClosed {c : Nat} {reason : String} (h : s.reason c = some reason) :
      Step s (.top c) .run s (.sawClosed reason) (some .connecting)
  | reportsOpen {c : Nat} : Step s (.sawOpen c) .run (s.note (.reportedOpen c)) (.resume c) (some .open)
  | startsResume {c : Nat} : Step s (.resume c) .run (s.note (.startedResume c)) (.resuming c) none
  | resumed {c : Nat} : Step s (.resuming c) .run s (.events c) none
  | loses {c : Nat} {reason : String} (h : s.reason c = some reason) :
      Step s (.events c) .run s (.sawClosed reason) none
  | closedLocally : Step s (.sawClosed localCloseReason) .run s (.exiting .closedLocally) (some (.closed localCloseReason))
  | closed {reason : String} (h : reason ≠ localCloseReason) :
      Step s (.sawClosed reason) .run s .stopCheck (some (.closed reason))
  | stopped (h : s.stopFlag = true) : Step s .stopCheck .run s (.exiting .stopped) none
  | reconnects (h : s.stopFlag = false) : Step s .stopCheck .run s .backoff none
  | sleeps : Step s .backoff .run s .sleeping (some .connecting)
  | woken (h : s.stopFlag = true) : Step s .sleeping .run s (.exiting .stopped) none
  | timedOut (h : s.stopFlag = false) : Step s .sleeping .timeout s .establishing none
  | connected : Step s .establishing (.establish .connected) s.connected (.established s.published.length) none
  | expired : Step s .establishing (.establish .sessionExpired) s .needsPassword none
  | failed : Step s .establishing (.establish .failed) s .backoff none
  | installs {c : Nat} : Step s (.established c) .run ({ s with client := some c }.note (.installed c)) (.top c) none
  | reportsExpired : Step s .needsPassword .run s (.exiting .sessionExpired) (some .needsPassword)
  | clears {why : Ending} : Step s (.exiting why) .run { s with supervising := false } (.ended why) none

theorem SupervisorPoint.step_of_next {s s' : Shared} {point point' : SupervisorPoint} {input : Input}
    {status : Option ConnectionStatus} (h : point.next s input = some (s', point', status)) :
    point.Step s input s' point' status := by
  revert h
  fun_cases SupervisorPoint.next s point input <;> rintro ⟨⟩
  case case8 reason =>
    by_cases hlocal : reason = localCloseReason
    · subst hlocal
      exact .closedLocally
    · rw [if_neg hlocal]
      exact .closed hlocal
  case case9 =>
    cases hstop : s.stopFlag
    · exact .reconnects hstop
    · exact .stopped hstop
  case case14 hdown => exact .timedOut (by simpa using hdown)
  all_goals constructor <;> assumption

/-- The steps of a `connect`. -/
inductive ConnectPoint.Step (s : Shared) : ConnectPoint → Input → Shared → ConnectPoint → Option Nat → Prop where
  | registers : Step s .start .run { s with sink := true } .establishing none
  | connected : Step s .establishing (.establish .connected) s.connected (.established s.published.length) none
  | failed {result : EstablishResult} (h : result ≠ .connected) :
      Step s .establishing (.establish result) s .returned none
  | installs {c : Nat} : Step s (.established c) .run { s with client := some c } (.installed c) none
  | unstops {c : Nat} : Step s (.installed c) .run { s with stopFlag := false } (.unstopped c) none
  | takes {c : Nat} (h : s.supervising = false) :
      Step s (.unstopped c) .run { s with supervising := true } (.spawning c) none
  | finds {c : Nat} (h : s.supervising = true) : Step s (.unstopped c) .run { s with supervising := true } .returned none
  | spawns {c : Nat} : Step s (.spawning c) .run s .returned (some c)

theorem ConnectPoint.step_of_next {s s' : Shared} {point point' : ConnectPoint} {input : Input} {client : Option Nat}
    (h : point.next s input = some (s', point', client)) : point.Step s input s' point' client := by
  revert h
  fun_cases ConnectPoint.next s point input <;> rintro ⟨⟩
  case case3 result hnot => exact .failed fun heq => hnot heq
  case case6 c =>
    cases hflag : s.supervising
    · exact .takes hflag
    · exact .finds hflag
  all_goals constructor

/-- The steps of an `app_did_foreground`. -/
inductive ForegroundPoint.Step (s : Shared) :
    ForegroundPoint → Input → Shared → ForegroundPoint → Option Nat → Prop where
  | probes (h : s.supervising = true) : Step s .start .run s .probing none
  | unsupervised (h : s.supervising = false) : Step s .start .run s .swapping none
  | probed : Step s .probing .run s .returned none
  | finds (h : s.supervising = true) : Step s .swapping .run { s with supervising := true } .returned none
  | takes (h : s.supervising = false) : Step s .swapping .run { s with supervising := true } .holding none
  | hasSink (h : s.sink = true) : Step s .holding .run s .establishing none
  | noSink (h : s.sink = false) : Step s .holding .run s .releasing none
  | connected : Step s .establishing (.establish .connected) s.connected (.established s.published.length) none
  | expired : Step s .establishing (.establish .sessionExpired) s .expired none
  | failed : Step s .establishing (.establish .failed) s .releasing none
  | releases : Step s .releasing .run { s with supervising := false } .returned none
  | releasesExpired : Step s .expired .run { s with supervising := false } .reporting none
  | reports : Step s .reporting .run s .returned none
  | installs {c : Nat} : Step s (.established c) .run { s with client := some c } (.installed c) none
  | unstops {c : Nat} : Step s (.installed c) .run { s with stopFlag := false } (.spawning c) none
  | spawns {c : Nat} : Step s (.spawning c) .run s .returned (some c)

theorem ForegroundPoint.step_of_next {s s' : Shared} {point point' : ForegroundPoint} {input : Input}
    {client : Option Nat} (h : point.next s input = some (s', point', client)) :
    point.Step s input s' point' client := by
  revert h
  fun_cases ForegroundPoint.next s point input <;> rintro ⟨⟩
  case case1 =>
    cases hflag : s.supervising
    · exact .unsupervised hflag
    · exact .probes hflag
  case case3 =>
    cases hflag : s.supervising
    · exact .takes hflag
    · exact .finds hflag
  case case4 =>
    cases hsink : s.sink
    · exact .noSink hsink
    · exact .hasSink hsink
  all_goals constructor

/-- The steps of a `disconnect`. -/
inductive DisconnectPoint.Step (s : Shared) : DisconnectPoint → Shared → DisconnectPoint → Prop where
  | raises : Step s .start { s with stopFlag := true } .taking
  | takes {c : Nat} (h : s.client = some c) : Step s .taking { s with client := none } (.closing c)
  | noClient (h : s.client = none) : Step s .taking { s with client := none } .returned
  | closes {c : Nat} : Step s (.closing c) (s.close c localCloseReason) .returned

theorem DisconnectPoint.step_of_next {s s' : Shared} {point point' : DisconnectPoint} {input : Input}
    (h : point.next s input = some (s', point')) : point.Step s s' point' := by
  revert h
  fun_cases DisconnectPoint.next s point input <;> rintro ⟨⟩
  case case2 =>
    cases hclient : s.client with
    | none => exact .noClient hclient
    | some c => exact .takes hclient
  all_goals constructor

/-- The steps of a `forget_gateway`. -/
inductive ForgetPoint.Step (s : Shared) : ForgetPoint → Shared → ForgetPoint → Prop where
  | raises : Step s .start { s with stopFlag := true } .taking
  | closes {c : Nat} (h : s.client = some c) :
      Step s .taking { s.close c localCloseReason with client := none } .clearing
  | noClient (h : s.client = none) : Step s .taking { s with client := none } .clearing
  | clears : Step s .clearing s .returned

theorem ForgetPoint.step_of_next {s s' : Shared} {point point' : ForgetPoint} {input : Input}
    (h : point.next s input = some (s', point')) : point.Step s s' point' := by
  revert h
  fun_cases ForgetPoint.next s point input <;> rintro ⟨⟩
  case case2 =>
    cases hclient : s.client with
    | none => exact .noClient hclient
    | some c => exact .closes hclient
  all_goals constructor

/-- The step of a task is the step of its point. -/
inductive Moves (s s' : Shared) (input : Input) : Task → Task → List Task → Prop where
  | supervisor {point point' : SupervisorPoint} {last status : Option ConnectionStatus}
      (h : point.Step s input s' point' status) :
      Moves s s' input (.supervisor point last) (.supervisor point' (status.or last)) []
  | connect {point point' : ConnectPoint} {client : Option Nat} (h : point.Step s input s' point' client) :
      Moves s s' input (.connect point) (.connect point') (spawned client)
  | foreground {point point' : ForegroundPoint} {client : Option Nat} (h : point.Step s input s' point' client) :
      Moves s s' input (.foreground point) (.foreground point') (spawned client)
  | disconnect {point point' : DisconnectPoint} (h : point.Step s s' point') :
      Moves s s' input (.disconnect point) (.disconnect point') []
  | forget {point point' : ForgetPoint} (h : point.Step s s' point') :
      Moves s s' input (.forget point) (.forget point') []

theorem task_moves {s s' : Shared} {t t' : Task} {input : Input} {spawns : List Task}
    (h : t.next s input = some (s', t', spawns)) : Moves s s' input t t' spawns := by
  cases t with
  | supervisor point last =>
    obtain ⟨_, hnext, heq⟩ := Option.map_eq_some_iff.1 h
    cases heq
    exact .supervisor (SupervisorPoint.step_of_next hnext)
  | connect point =>
    obtain ⟨_, hnext, heq⟩ := Option.map_eq_some_iff.1 h
    cases heq
    exact .connect (ConnectPoint.step_of_next hnext)
  | foreground point =>
    obtain ⟨_, hnext, heq⟩ := Option.map_eq_some_iff.1 h
    cases heq
    exact .foreground (ForegroundPoint.step_of_next hnext)
  | disconnect point =>
    obtain ⟨_, hnext, heq⟩ := Option.map_eq_some_iff.1 h
    cases heq
    exact .disconnect (DisconnectPoint.step_of_next hnext)
  | forget point =>
    obtain ⟨_, hnext, heq⟩ := Option.map_eq_some_iff.1 h
    cases heq
    exact .forget (ForgetPoint.step_of_next hnext)

theorem Event.next_closed {s s' : Shared} {c : Nat} {reason : String} (h : (Event.closed c reason).next s = some s') :
    s.published[c]? = some none ∧ s' = s.close c reason := by
  unfold Event.next at h
  dsimp only at h
  split at h <;> cases h
  rename_i hopen
  exact ⟨hopen, rfl⟩

/-- A supervisor is at this point. -/
def At (s : System) (i : Nat) (point : SupervisorPoint) : Prop := ∃ last, s.tasks[i]? = some (.supervisor point last)

/-- The step of the supervisor at a point. -/
theorem At.next {s : System} {i : Nat} {point point' : SupervisorPoint} {input : Input} {shared : Shared}
    {status : Option ConnectionStatus} (h : At s i point)
    (hnext : point.next s.shared input = some (shared, point', status)) :
    ∃ s₁, program.step s (.task i input) = some s₁ ∧ s₁.shared = shared ∧ At s₁ i point' := by
  obtain ⟨last, ht⟩ := h
  have htask : program.next s.shared (.supervisor point last) input =
      some (shared, .supervisor point' (status.or last), []) := by
    change (point.next s.shared input).map _ = _
    rw [hnext]
    rfl
  refine ⟨_, Tasks.Program.task_step ht htask, rfl, status.or last, ?_⟩
  rw [Tasks.Program.getElem?_after ht, if_pos rfl]

end Hermo.Lifecycle
