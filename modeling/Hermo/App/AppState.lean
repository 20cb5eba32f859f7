import Mathlib.Data.Finset.Basic
import Hermo.App.Phase
import Hermo.App.Tabs
import Hermo.App.TranscriptState
import Hermo.Core.Lifecycle
import Hermo.Library.OrderedMap

/-!
# The state of the app

What `GatewayRepository.kt` and `AppFeature.swift` keep between two steps of the main thread, and the functions both
have in the same words.  The error line, the pairing payload and the model of the last ready phase are only shown and
are no part of it.  `Registered` says what the registration of an opened session does.
-/

namespace Hermo

open OrderedMap

/-- One open session, as the screen shows it. -/
structure SessionUiState where
  key : String
  title : String := ""
  model : String := ""
  rows : List String := []
  running : Bool := false
  /-- Empty when unknown. -/
  profile : String := ""
  deriving DecidableEq, Repr

/-- The session map; a `Map` of the repository keeps the order of its keys. -/
abbrev Sessions := AList fun _ : String => SessionUiState

/-- `SessionSummary`, one entry of `open_sessions`. -/
structure SessionSummary where
  key : String
  title : String
  running : Bool
  headerJson : String
  profileName : String
  deriving DecidableEq, Repr

/-- The model in the JSON of a header, empty when there is none: `JSONObject` and `LooseJSON`. -/
class HeaderReader where
  headerModelOf : String → String

/-- The reader of headers that name no model. -/
@[reducible] def HeaderReader.blank : HeaderReader := ⟨fun _ => ""⟩

structure EndpointDto where
  displayName : String
  username : String
  baseUrl : String
  deriving DecidableEq, Repr

def EndpointDto.displayText (endpoint : EndpointDto) : String :=
  endpoint.displayName ++ " (" ++ endpoint.username ++ ") — " ++ endpoint.baseUrl

theorem EndpointDto.displayText_ne (endpoint : EndpointDto) : endpoint.displayText ≠ "" := by
  intro h
  have hlen := congrArg String.length h
  unfold displayText at hlen
  simp only [String.length_append] at hlen
  have hpart : " (".length = 2 := rfl
  have hempty : "".length = 0 := rfl
  omega

/-- A failed call of the core, as `onConnectFailure` classifies it. -/
structure CoreFailure where
  isAuthShape : Bool
  message : String
  deriving DecidableEq, Repr

/-- What the core sends through its sink. -/
inductive CoreEvent where
  | connection (status : Lifecycle.ConnectionStatus)
  | transcript (change : TranscriptChangeDto)

/-- What a call of the core answers. -/
inductive CoreAnswer where
  | done
  | savedEndpoint (endpoint : Option EndpointDto)
  | paired (endpoint : EndpointDto)
  | sessions (summaries : List SessionSummary)
  | lastActive (key : Option String)
  | opened (key : String)
  | failed (failure : CoreFailure)

/-- The platforms of the app. -/
inductive Platform where
  | android | ios
  deriving DecidableEq, Repr

/-- `Int.max`. -/
def int64Max : Int := 9223372036854775807

/-- `applyTranscriptChange` of `TranscriptState.swift`, which leaves a malformed index alone. -/
def applyTranscriptChangeSwift (rows : List String) (kind : String) (index : Int) (rowJson : String) : List String :=
  if kind = "rowAppended" ∨ kind = "rowUpdated" then
    if 0 ≤ index ∧ index ≤ int64Max then (padTo rows index).set index.toNat rowJson else rows
  else if kind = "reset" then []
  else rows

namespace Platform

/-- `none` is the exception of Kotlin. -/
def applyTranscriptChange (p : Platform) (rows : List String) (kind : String) (index : Int) (rowJson : String) :
    Option (List String) :=
  match p with
  | android => Hermo.applyTranscriptChange rows kind index rowJson
  | ios => some (applyTranscriptChangeSwift rows kind index rowJson)

/-- `decrementAndGet` on Android; iOS does not go below zero. -/
def countDown (p : Platform) (inFlightOpens : Int) : Int :=
  match p with
  | android => inFlightOpens - 1
  | ios => if inFlightOpens > 0 then inFlightOpens - 1 else inFlightOpens

end Platform

/-! ### The session map -/

/-- The map grows only for the keys that are open or being restored. -/
def applySessionChange (p : Platform) (sessions : Sessions) (key kind : String) (index : Int) (rowJson : String)
    (knownKeys : Finset String) (title : String) : Option Sessions :=
  if key ∉ knownKeys then some sessions
  else
    let current := (sessions.lookup key).getD { key := key }
    if kind = "headerUpdated" then
      some (put key (if title ≠ "" then { current with title := title } else current) sessions)
    else
      (p.applyTranscriptChange current.rows kind index rowJson).map fun rows =>
        put key { current with rows := rows } sessions

/-- Register a key without touching the rows the stream already delivered. -/
def ensureSession (sessions : Sessions) (key : String) : Sessions :=
  if key ∈ sessions then sessions else put key { key := key } sessions

/-- Stamp the profile that was just opened; a profile that is known stays. -/
def withProfile (sessions : Sessions) (key profile : String) : Sessions :=
  if profile = "" then sessions
  else
    match sessions.lookup key with
    | none => sessions
    | some current => if current.profile ≠ "" then sessions else put key { current with profile := profile } sessions

/-- Seed title, profile and running flag from a snapshot. -/
def applySummaries (sessions : Sessions) (summaries : List SessionSummary) : Sessions :=
  summaries.foldl (fun sessions summary =>
    match sessions.lookup summary.key with
    | none => sessions
    | some existing =>
      put summary.key
        { existing with title := summary.title, profile := summary.profileName, running := summary.running } sessions)
    sessions

/-- The open tab of a profile: the first entry of the map on Android, the first tab of the strip on iOS. -/
def openTabForProfile (p : Platform) (sessions : Sessions) (order : List String) (profile : String) : Option String :=
  if profile = "" then none
  else
    match p with
    | .android => (sessions.entries.find? fun entry => entry.2.profile = profile).map Sigma.fst
    | .ios => order.find? fun key => (sessions.lookup key).map SessionUiState.profile = some profile

/-! ### The state -/

structure AppState where
  phase : AppPhase := .unpaired
  /-- The paired endpoint as display text. -/
  endpointText : String := ""
  sessions : Sessions := ∅
  tabs : TabSet := {}
  /-- The session on the screen. -/
  currentKey : Option String := none
  /-- Keys that are being opened or restored. -/
  pendingKeys : Finset String := ∅
  /-- Changes that came before their key was known. -/
  parkedChanges : List TranscriptChangeDto := []
  inFlightOpens : Int := 0

/-- `PARKED_CHANGES_MAX`. -/
def parkedChangesMax : Nat := 512

namespace AppState

def isOpenOrRestoring (s : AppState) (key : String) : Prop := key ∈ s.tabs.keys ∨ key ∈ s.pendingKeys

instance (s : AppState) (key : String) : Decidable (s.isOpenOrRestoring key) :=
  inferInstanceAs (Decidable (_ ∨ _))

/-- The argument of `applySessionChange`. -/
def knownKeys (s : AppState) : Finset String := s.tabs.keys.toFinset ∪ s.pendingKeys

/-- The live statuses of the core. -/
def onConnectionStatus (s : AppState) (status : Lifecycle.ConnectionStatus) : AppState :=
  let phase :=
    match status with
    | .connecting => PhaseMachine.reduce s.phase .connecting s.endpointText
    | .open => PhaseMachine.reduce s.phase .open s.endpointText
    | .closed reason => PhaseMachine.reduce s.phase (.closed reason) s.endpointText
    | .needsPassword => PhaseMachine.reduce s.phase .needsPassword s.endpointText s.currentKey.isSome
  { s with phase := phase }

/-- `while (size >= MAX) poll()`, then the change. -/
def park (s : AppState) (change : TranscriptChangeDto) : AppState :=
  { s with
    parkedChanges := s.parkedChanges.drop (s.parkedChanges.length + 1 - parkedChangesMax) ++ [change] }

theorem park_eq (s : AppState) (change : TranscriptChangeDto) :
    ∃ parked, s.park change = { s with parkedChanges := parked } := ⟨_, rfl⟩

/-- The change of an unknown key is parked while an open is in flight, and dropped otherwise. -/
def onTranscriptChange (p : Platform) (s : AppState) (change : TranscriptChangeDto) : Option AppState :=
  if ¬ s.isOpenOrRestoring change.key then
    some (if s.inFlightOpens > 0 then s.park change else s)
  else
    (applySessionChange p s.sessions change.key (kindOf change) change.index change.rowJson s.knownKeys
      change.title).map fun sessions => { s with sessions := sessions }

/-- A header change of a known key is followed by a refresh. -/
def refreshesHeader (s : AppState) (change : TranscriptChangeDto) : Bool :=
  s.isOpenOrRestoring change.key ∧ change.kind = .headerUpdated

/-- The loop over the parked changes; where an exception ends it, what is left of the queue. -/
def drainLoop (p : Platform) (key : String) (known : Finset String) :
    Sessions → List TranscriptChangeDto → List TranscriptChangeDto →
      Except (List TranscriptChangeDto) (Sessions × List TranscriptChangeDto)
  | sessions, otherKeys, [] => .ok (sessions, otherKeys)
  | sessions, otherKeys, parked :: queue =>
    if parked.key ≠ key then drainLoop p key known sessions (otherKeys ++ [parked]) queue
    else
      match applySessionChange p sessions key (kindOf parked) parked.index parked.rowJson known parked.title with
      | none => .error queue
      | some sessions => drainLoop p key known sessions otherKeys queue

/-- Apply what was parked for `key`, and keep the rest for the other opens. -/
def drainParked (p : Platform) (s : AppState) (key : String) : Except AppState AppState :=
  match drainLoop p key (insert key s.knownKeys) s.sessions [] s.parkedChanges with
  | .error queue => .error { s with parkedChanges := queue }
  | .ok (sessions, remaining) => .ok { s with sessions := sessions, parkedChanges := remaining }

/-- The registration of an opened session. -/
def registerKey (p : Platform) (s : AppState) (key : String) : Except AppState AppState :=
  (drainParked p { s with pendingKeys := insert key s.pendingKeys } key).map fun s =>
    { s with
      sessions := ensureSession s.sessions key
      tabs := s.tabs.add key
      pendingKeys := s.pendingKeys.erase key }

/-- An open goes in flight. -/
def beginOpen (s : AppState) : AppState := { s with inFlightOpens := s.inFlightOpens + 1 }

/-- An open ends; with none in flight, what is still parked is dropped. -/
def finishInFlightOpen (p : Platform) (s : AppState) : AppState :=
  let inFlightOpens := p.countDown s.inFlightOpens
  { s with
    inFlightOpens := inFlightOpens
    parkedChanges := if inFlightOpens = 0 then [] else s.parkedChanges }

def headerModel (s : AppState) (key : String) : String :=
  ((s.sessions.lookup key).map SessionUiState.model).getD ""

/-- The fields a fresh summary writes. -/
def writeSummary [HeaderReader] (s : AppState) (key : String) (summary : SessionSummary) : AppState :=
  let current := (s.sessions.lookup key).getD { key := key }
  let refreshed : SessionUiState :=
    { current with
      title := summary.title
      model := HeaderReader.headerModelOf summary.headerJson
      running := summary.running
      profile := summary.profileName }
  { s with sessions := put key refreshed s.sessions }

/-- A header that lands while the app is ready reaches the screen. -/
def showHeader [HeaderReader] (s : AppState) (summary : SessionSummary) : AppState :=
  let model := HeaderReader.headerModelOf summary.headerJson
  { s with phase := PhaseMachine.reduce s.phase (.header model) s.endpointText }

/-- The end of `refreshHeader` of the repository, which does not look at the tabs again. -/
def refreshHeader [HeaderReader] (s : AppState) (key : String) (summary : Option SessionSummary) : AppState :=
  match summary with
  | none => s
  | some summary => (s.writeSummary key summary).showHeader summary

/-- `applyHeaderRefresh` of the feature. -/
def applyHeaderRefresh [HeaderReader] (s : AppState) (key : String) (summary : SessionSummary) : AppState :=
  if ¬ s.isOpenOrRestoring key then s else (s.writeSummary key summary).showHeader summary

/-- The end of `afterOpen` on Android and `finishAfterOpen` on iOS: ready, whatever the phase was. -/
def afterOpen [HeaderReader] (p : Platform) (s : AppState) (key : String) (summary : Option SessionSummary) :
    AppState :=
  match p with
  | .android =>
    let s := s.refreshHeader key summary
    { s with phase := .ready (s.headerModel key) }
  | .ios =>
    let s :=
      match summary with
      | none => s
      | some summary => if s.isOpenOrRestoring key then s.writeSummary key summary else s
    { s with phase := .ready ((s.currentKey.map s.headerModel).getD "") }

/-- A connection loss, as the reducer takes it. -/
def closed (s : AppState) (reason : String) : AppState :=
  { s with phase := PhaseMachine.reduce s.phase (.closed reason) s.endpointText }

end AppState

end Hermo
