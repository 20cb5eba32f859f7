import Hermo.Core.Storage

/-!
# What forgetting a gateway leaves

The pairing, the cookies and the tabs, each in memory and in a file of its own, with the calls that write them: `pair`,
every HTTP request (its response may set cookies, and the jar is saved behind it), `establish` with the client it
brings, `open_session` and `open_bot_chat`, which go on after the client they captured has answered, and the tasks of
`Storage`.  `forget_gateway` takes the client, removes two of the three files and empties the tabs; a call that is past
its last look at the state writes on.
-/

namespace Hermo.Gateway

open Run

/-- `GatewayEndpoint`. -/
structure Endpoint where
  baseUrl : String
  username : String
  displayName : String
  deriving DecidableEq, Repr

/-- An entry of the cookie store. -/
structure Cookie where
  domain : String
  name : String
  value : String
  deriving DecidableEq, Repr

/-- `cookies.json`. -/
inductive CookieFile where
  | missing
  | saved (jar : List Cookie)
  | corrupt
  deriving DecidableEq, Repr

/-- `AuthClient::new`: the jar of the file, `none` is the error of a corrupt one. -/
def CookieFile.load : CookieFile → Option (List Cookie)
  | missing => some []
  | saved jar => some jar
  | corrupt => none

/-- The data directory; an endpoint file that does not parse counts as missing. -/
structure Directory where
  endpoint : Option Endpoint := none
  sessions : Option String := none
  cookies : CookieFile := .missing

structure Shared where
  endpoint : Option Endpoint
  /-- `state.auth`, by the jar that all its clones share. -/
  auth : Option (List Cookie)
  /-- `state.client`, by the gateway it is connected to. -/
  client : Option String := none
  store : Storage.Shared
  endpointFile : Option Endpoint
  cookieFile : CookieFile

namespace Shared

/-- The files as they are. -/
def directory (s : Shared) : Directory := ⟨s.endpointFile, s.store.file, s.cookieFile⟩

/-- `HermesCore::new`. -/
def launch [JsonReader] (d : Directory) : Shared :=
  { endpoint := d.endpoint
    auth := d.cookies.load
    store := (Storage.start d.sessions).shared
    endpointFile := d.endpoint
    cookieFile := d.cookies }

end Shared

/-- Which HTTP request: that of `login`, of `list_profiles`, or the `mint_ticket` of `establish`. -/
inductive Purpose where
  | login | profiles | ticket
  deriving DecidableEq, Repr

inductive Task where
  | pair (ep : Endpoint)
  /-- The endpoint file is written, the endpoint not yet set. -/
  | pairing (ep : Endpoint)
  /-- `login`, `list_profiles` or `establish`. -/
  | request (purpose : Purpose)
  | requesting (purpose : Purpose) (base : String)
  /-- The cookies of the response are stored, the jar not yet serialised; a ticket for this gateway came with it. -/
  | saving (ticket : Option String)
  | writing (ticket : Option String) (jar : List Cookie)
  /-- The ticket is minted. -/
  | connecting (base : String)
  | installing (base : String)
  | openBotChat (profile : String) (cols : Int)
  | listing (profile : String) (cols : Int)
  /-- `open_session_inner`. -/
  | openSession (profile : Option String) (cols : Int)
  /-- The create or resume is out, on the client of this gateway. -/
  | opening (client : String) (profile : Option String) (cols : Int)
  | forget
  | removingEndpoint
  | removingSessions
  /-- The files are removed, the tabs not yet emptied. -/
  | clearing
  /-- `deliver_event` or `flush_registry`. -/
  | store (t : Storage.Task)
  | returned

/-- `run` is the next local step, `disk` an access of a file; the rest is what the gateway answers.  A response leaves
the cookie store with this jar. -/
inductive Input where
  | run
  | disk (succeeds : Bool)
  | response (jar : List Cookie) (success : Bool)
  | connected
  | listed
  | reply (reply : OpenReply) (written : Bool)
  | failed
  | store (input : Storage.Input)

inductive Event where
  /-- A lock section that opens nothing: `close_session`, `clear_sessions`, and those that save nothing. -/
  | store (e : Storage.Event)
  /-- `disconnect` takes the client. -/
  | disconnect

section

variable [Serializer]

def Task.next (s : Shared) : Task → Input → Option (Shared × Task × List Task)
  | .pair ep, .disk succeeds =>
    some ({ s with endpointFile := if succeeds then some ep else s.endpointFile }, .pairing ep, [])
  | .pairing ep, .run => some ({ s with endpoint := some ep }, .returned, [])
  | .request purpose, .run =>
    match s.endpoint with
    | none => some (s, .returned, [])
    | some ep =>
      -- only `login` reads the jar again when there is none
      let auth := if purpose = .login then s.auth.or s.cookieFile.load else s.auth
      some ({ s with auth := auth }, if auth.isSome then .requesting purpose ep.baseUrl else .returned, [])
  | .requesting purpose base, .response jar success =>
    some ({ s with auth := some jar }, .saving (if success ∧ purpose = .ticket then some base else none), [])
  | .requesting _ _, .failed => some (s, .returned, [])
  | .saving ticket, .run => some (s, .writing ticket (s.auth.getD []), [])
  | .writing ticket jar, .disk succeeds =>
    some ({ s with cookieFile := if succeeds then .saved jar else s.cookieFile },
      (ticket.map Task.connecting).getD .returned, [])
  | .connecting base, .connected => some (s, .installing base, [])
  | .connecting _, .failed => some (s, .returned, [])
  | .installing base, .run => some ({ s with client := some base }, .returned, [])
  | .openBotChat profile cols, .run => some (s, if s.client.isSome then .listing profile cols else .returned, [])
  | .listing profile cols, .listed => some (s, .openSession (some profile) cols, [])
  | .listing _ _, .failed => some (s, .returned, [])
  | .openSession profile cols, .run =>
    some (s, match s.client with
      | some client => .opening client profile cols
      | none => .returned, [])
  | .opening _ profile cols, .reply reply written =>
    some ({ s with store := (s.store.act (.openSession reply profile cols)).save written }, .returned, [])
  | .opening _ _ _, .failed => some (s, .returned, [])
  | .forget, .run => some ({ s with client := none }, .removingEndpoint, [])
  | .removingEndpoint, .disk succeeds =>
    some ({ s with endpointFile := if succeeds then none else s.endpointFile }, .removingSessions, [])
  | .removingSessions, .disk succeeds =>
    some ({ s with store.file := if succeeds then none else s.store.file }, .clearing, [])
  | .clearing, .run => some ({ s with endpoint := none, store := s.store.act .forgetGateway }, .returned, [])
  | .store t, .store input =>
    (t.next s.store input).map fun (after, t', _) => ({ s with store := after }, .store t', [])
  | _, _ => none

/-- The lock section opens no tab. -/
def opensNone : Storage.Event → Bool
  | .openSession _ _ _ _ => false
  | _ => true

def Event.next (s : Shared) : Event → Option Shared
  | .store e => if opensNone e then (e.next s.store).map fun after => { s with store := after } else none
  | .disconnect => some { s with client := none }

/-- Where a call, or an attempt to connect, begins. -/
def Task.isCall : Task → Bool
  | .pair _ | .request _ | .forget => true
  | .openBotChat _ cols | .openSession _ cols => decide (IsI64 cols)
  | .store (.deliver ev) => decide (Action.Typed (.deliver ev))
  | .store .flush => true
  | _ => false

def program : Tasks.Program Shared Task Input Event := ⟨Task.next, Event.next, fun _ => Task.isCall⟩

end

abbrev System := Tasks.System Shared Task

abbrev Label := Tasks.Label Task Input Event

/-- The core on a data directory. -/
def start [JsonReader] (d : Directory) : System := ⟨.launch d, []⟩

/-- All that a later call reads: the counter of history epochs is only compared with what was captured from it. -/
structure Visible where
  endpoint : Option Endpoint
  auth : Option (List Cookie)
  client : Option String
  core : CoreState
  /-- What the next launch reads. -/
  launched : Option Endpoint × Option SessionRegistry × Option (List Cookie)

def Shared.visible [JsonReader] (s : Shared) : Visible :=
  { endpoint := s.endpoint
    auth := s.auth
    client := s.client
    core := { s.store.core with historyEpoch := 0 }
    launched := (s.endpointFile, SessionRegistry.load s.store.file, s.cookieFile.load) }

/-- The call sets the endpoint. -/
def Task.pairs : Task → Bool
  | .pair _ | .pairing _ => true
  | _ => false

/-- Where `forget_gateway` empties the tabs: the rest is gone already, and no `pair` is on its way. -/
structure ReadyToClear [JsonReader] (s : System) : Prop where
  auth : s.shared.auth = some []
  client : s.shared.client = none
  endpointFile : s.shared.endpointFile = none
  sessionsFile : SessionRegistry.load s.shared.store.file = some {}
  cookieFile : s.shared.cookieFile.load = some []
  pairs : ∀ t ∈ s.tasks, t.pairs = false

/-- The step brings nothing of the gateway back: no open is answered, no response sets a cookie, no jar with cookies is
written, no client installed. -/
def BringsNothing (s : System) : Label → Prop
  | .task _ (.reply _ _) => False
  | .task _ (.response jar _) => jar = []
  | .task i (.disk succeeds) => ∀ ticket jar, s.tasks[i]? = some (.writing ticket jar) → succeeds = true → jar = []
  | .task i .run => ∀ base, s.tasks[i]? ≠ some (.installing base)
  | _ => True

/-- Nothing of the gateway is left, and nobody is about to pair. -/
structure Gone [JsonReader] (s : System) : Prop where
  ready : ReadyToClear s
  endpoint : s.shared.endpoint = none
  core : ∃ n, s.shared.store.core = { historyEpoch := n }

section

variable [Serializer]

/-- Without a session and a record, only an open does something. -/
theorem act_empty (n : UInt64) {a : Action} (ha : ∀ key, a.opens key = false) :
    ∃ m, (CoreState.act { historyEpoch := n } a).1 = { historyEpoch := m } := by
  cases a with
  | openSession reply profile cols =>
    have hopens := ha reply.key
    simp [Action.opens] at hopens
  | deliver ev =>
    refine ⟨n, ?_⟩
    have hresolve : CoreState.resolve { historyEpoch := n } ev.sessionId = none := by
      simp [CoreState.resolve]
    simp only [CoreState.act, CoreState.deliverEvent, CoreState.routeEvent, hresolve]
  | reemitCard key card =>
    refine ⟨n, ?_⟩
    unfold CoreState.act CoreState.reemitCard
    dsimp only
    split
    · rfl
    · split
      · rfl
      · rfl
  | _ => exact ⟨_, rfl⟩

variable [JsonReader]

/-- The tabs and their file are empty. -/
private def NoTabs (store : Storage.Shared) : Prop :=
  SessionRegistry.load store.file = some {} ∧ ∃ n, store.core = { historyEpoch := n }

private theorem noTabs_act {store : Storage.Shared} (h : NoTabs store) {a : Action} (ha : ∀ key, a.opens key = false) :
    NoTabs (store.act a) := by
  obtain ⟨hfile, n, hcore⟩ := h
  obtain ⟨m, hm⟩ := act_empty n ha
  refine ⟨hfile, m, ?_⟩
  unfold Storage.Shared.act
  rw [hcore]
  exact hm

variable [LawfulJson]

private theorem noTabs_save {store : Storage.Shared} (h : NoTabs store) (written : Bool) :
    NoTabs (store.save written) := by
  cases written with
  | false => exact h
  | true =>
    obtain ⟨-, n, hcore⟩ := h
    refine ⟨?_, n, hcore⟩
    change SessionRegistry.load (some store.core.registry.toJson) = _
    rw [hcore]
    exact SessionRegistry.load_toJson_of_named SessionRegistry.typed_empty SessionRegistry.named_empty

private theorem noTabs_task {store store' : Storage.Shared} {t t' : Storage.Task} {input : Storage.Input}
    {spawned : List Storage.Task} (h : NoTabs store) (hnext : t.next store input = some (store', t', spawned)) :
    NoTabs store' := by
  obtain ⟨-, hmove⟩ := Storage.task_moves hnext
  cases hmove with
  | routed _ | unrouted _ | cleared => exact noTabs_act h fun _ => rfl
  | marked | lowered _ | clean _ | refused | unremoved => exact h
  | flushed => exact noTabs_save h true
  | removed => exact ⟨rfl, h.2⟩

private theorem noTabs_event {store store' : Storage.Shared} {e : Storage.Event} (h : NoTabs store)
    (he : opensNone e = true) (hnext : e.next store = some store') : NoTabs store' := by
  cases e with
  | openSession => cases he
  | act a =>
    obtain ⟨⟨hunsaved, -⟩, hnext⟩ := Option.ite_none_right_eq_some.1 hnext
    cases hnext
    refine noTabs_act h fun key => ?_
    cases a <;> first | rfl | cases hunsaved
  | closeSession key written =>
    cases hnext
    exact noTabs_save (noTabs_act h fun _ => rfl) written
  | clearSessions written =>
    cases hnext
    exact noTabs_save (noTabs_act h fun _ => rfl) written

/-- One step after the tabs were emptied. -/
private theorem gone_step {s s' : System} {l : Label} (h : Gone s) (hl : BringsNothing s l)
    (hpair : ∀ ep, l ≠ .start (.pair ep)) (hstep : program.step s l = some s') : Gone s' := by
  have htabs : NoTabs s.shared.store := ⟨h.ready.sessionsFile, h.core⟩
  cases l with
  | start t =>
    obtain ⟨hcall, rfl⟩ := Tasks.Program.step_start hstep
    refine ⟨{ h.ready with pairs := ?_ }, h.endpoint, h.core⟩
    intro u hu
    rcases List.mem_append.1 hu with hold | hnew
    · exact h.ready.pairs u hold
    · rw [List.mem_singleton.1 hnew]
      cases t with
      | pair ep => exact absurd rfl (hpair ep)
      | pairing ep => cases hcall
      | _ => rfl
  | env e =>
    obtain ⟨shared, henv, rfl⟩ := Tasks.Program.step_env hstep
    cases e with
    | disconnect =>
      cases henv
      exact ⟨{ h.ready with client := rfl }, h.endpoint, h.core⟩
    | store e =>
      obtain ⟨hopens, henv⟩ := Option.ite_none_right_eq_some.1 henv
      obtain ⟨after, hafter, rfl⟩ := Option.map_eq_some_iff.1 henv
      obtain ⟨hfile, hcore⟩ := noTabs_event htabs hopens hafter
      exact ⟨{ h.ready with sessionsFile := hfile }, h.endpoint, hcore⟩
  | task i input =>
    obtain ⟨t, shared, t', spawned, ht, hnext, rfl⟩ := Tasks.Program.step_task hstep
    have hpairs : t.pairs = false := h.ready.pairs t (List.mem_of_getElem? ht)
    -- what is left to show of each step: the shared state, and that its task does not pair
    have hgone : ∀ (shared : Shared) (t' : Task), shared.auth = some [] → shared.client = none →
        shared.endpointFile = none → NoTabs shared.store → shared.cookieFile.load = some [] →
        shared.endpoint = none → t'.pairs = false → Gone ⟨shared, s.tasks.set i t' ++ []⟩ := by
      intro shared t' hauth hclient hfile hstore hcookies hendpoint ht'
      refine ⟨⟨hauth, hclient, hfile, hstore.1, hcookies, ?_⟩, hendpoint, hstore.2⟩
      intro u hu
      rcases Tasks.Program.mem_after hu with rfl | hspawned | ⟨j, -, hj⟩
      · exact ht'
      · cases hspawned
      · exact h.ready.pairs u (List.mem_of_getElem? hj)
    obtain ⟨hauth, hclient, hfile, -, hcookies, -⟩ := h.ready
    have hendpoint := h.endpoint
    have hsame : ∀ t' : Task, t'.pairs = false → Gone ⟨s.shared, s.tasks.set i t' ++ []⟩ := fun t' ht' =>
      hgone s.shared t' hauth hclient hfile htabs hcookies hendpoint ht'
    change Task.next s.shared t input = _ at hnext
    unfold Task.next at hnext
    split at hnext
    -- the two steps of `pair`
    · cases hpairs
    · cases hpairs
    -- a request finds no endpoint
    · rw [hendpoint] at hnext
      cases hnext
      exact hsame _ rfl
    -- its response, and the save of the jar
    · cases hnext
      exact hgone _ _ (congrArg some hl) hclient hfile htabs hcookies hendpoint rfl
    · cases hnext
      exact hsame _ rfl
    · cases hnext
      exact hsame _ rfl
    · rename_i ticket jar succeeds
      cases hnext
      refine hgone _ _ hauth hclient hfile htabs ?_ hendpoint ?_
      · cases succeeds with
        | false => exact hcookies
        | true => exact congrArg some (hl ticket jar ht rfl)
      · cases ticket <;> rfl
    · cases hnext
      exact hsame _ rfl
    · cases hnext
      exact hsame _ rfl
    · exact absurd ht (hl _)
    -- the opens find no client
    · rw [hclient] at hnext
      cases hnext
      exact hsame _ rfl
    · cases hnext
      exact hsame _ rfl
    · cases hnext
      exact hsame _ rfl
    · rw [hclient] at hnext
      cases hnext
      exact hsame _ rfl
    · exact hl.elim
    · cases hnext
      exact hsame _ rfl
    -- another `forget_gateway`
    · cases hnext
      exact hgone _ _ hauth rfl hfile htabs hcookies hendpoint rfl
    · rename_i succeeds
      cases hnext
      refine hgone _ _ hauth hclient ?_ htabs hcookies hendpoint rfl
      cases succeeds with
      | false => exact hfile
      | true => rfl
    · rename_i succeeds
      cases hnext
      refine hgone _ _ hauth hclient hfile ⟨?_, htabs.2⟩ hcookies hendpoint rfl
      cases succeeds with
      | false => exact htabs.1
      | true => rfl
    · cases hnext
      exact hgone _ _ hauth hclient hfile (noTabs_act htabs fun _ => rfl) hcookies rfl rfl
    · obtain ⟨⟨after, t', spawned'⟩, hafter, heq⟩ := Option.map_eq_some_iff.1 hnext
      cases heq
      exact hgone _ _ hauth hclient hfile (noTabs_task htabs hafter) hcookies hendpoint rfl
    · cases hnext

end

def homeEndpoint : Endpoint := ⟨"http://home:9123", "ada", "home"⟩

def sessionCookie : Cookie := ⟨"home", "session", "s1"⟩

def pairHome : List Label := [.start (.pair homeEndpoint), .task 0 (.disk true), .task 0 .run]

end Hermo.Gateway
