import Hermo.FakeGateway.Server

/-!
# What a step does to the sessions

Every lock section of the fake gateway reads or writes the record of one session.  `Change` lists what it can do to
that record, and `next_change` says that a step of a task does nothing else; the invariants of the sessions follow
from it.
-/

namespace Hermo.FakeGateway

open OrderedMap (put lookup_put)
open Tasks (System)

/-- The request a connection is about to handle. -/
def Connection.request [JsonReader] (c : Connection) : Option (Method × Value) :=
  match c.job, c.lines with
  | .sending [], line :: _ =>
    (fromStr line).map fun value => (Method.parse (value.strAt "method"), (value.get "params").getD .null)
  | _, _ => none

/-- The request a task is about to handle, and the session it names. -/
def Task.asks [JsonReader] : Task → Option (Method × String)
  | .connection c => c.request.map fun (method, params) => (method, params.strAt "session_id")
  | _ => none

/-- The session a task is about to insert after it created it, and its order. -/
def Task.inserts : Task → Option (String × Nat)
  | .connection c =>
    match c.job with
    | .inserting _ _ _ sessionId order => some (sessionId, order)
    | _ => none
  | _ => none

/-- The steps of a task, one after the other. -/
inductive GatewayState.Next [JsonReader] [Lowercase] (s : GatewayState) :
    Task → GatewayState → Task → List Task → Prop where
  | http (request : HttpRequest) : Next s (.http request) (s.routeHttp request).1 (s.routeHttp request).2 []
  | minting (request : HttpRequest) (number : Nat) :
    Next s (.minting request number) (s.keepTicket request number).1 (s.keepTicket request number).2 []
  | upgrade (query : Option String) : Next s (.upgrade query) (s.acceptWs query).1 (s.acceptWs query).2 []
  | greeting (ticket : String) (channel : Nat) (delivered : Bool) :
    Next s (.greeting ticket channel) (s.sendOut ⟨ticket, channel, 1, [], .sending []⟩ s.readyFrame delivered).1
      (s.sendOut ⟨ticket, channel, 1, [], .sending []⟩ s.readyFrame delivered).2 []
  | handle (c : Connection) (now : String) (keys : List String) {line : String} {lines : List String}
    (hjob : c.job = .sending []) (hlines : c.lines = line :: lines) (hkeys : keys.Perm s.sessions.keys) :
    Next s (.connection c) (s.handleRpcLine c.channel now keys line).1
      (.connection { c with lines := lines, job := (s.handleRpcLine c.channel now keys line).2 }) []
  | job (c : Connection) {now : String} {s' : GatewayState} {job : Job} {spawned : List Task}
    (hrun : s.runJob c.channel now c.job = some (s', job, spawned)) :
    Next s (.connection c) s' (.connection { c with job := job }) spawned
  | outgoing (c : Connection) {out : Value} {waiting : List Value} (delivered : Bool) (hjob : c.job = .sending [])
    (hlines : c.lines = []) (hchannel : s.channels.lookup c.channel = some (out :: waiting)) :
    Next s (.connection c)
      ({ s with channels := put c.channel waiting s.channels }.sendOut { c with sent := c.sent + 1 } out delivered).1
      ({ s with channels := put c.channel waiting s.channels }.sendOut { c with sent := c.sent + 1 } out delivered).2 []
  | text (c : Connection) (frame : String) (hjob : c.job = .sending []) (hlines : c.lines = []) :
    Next s (.connection c) s (.connection { c with lines := linesOf frame }) []
  | close (c : Connection) (hjob : c.job = .sending []) (hlines : c.lines = []) :
    Next s (.connection c) (s.hangUp c.channel) (.gone c.ticket) []
  | turn (t : Turn) : Next s (.turn t) (s.nextTurnStep t).1 (s.nextTurnStep t).2 []
  | delayed (channel : Nat) (frame : Value) : Next s (.delayed channel frame) (s.send channel frame) .ended []

theorem GatewayState.next_cases [JsonReader] [Lowercase] {s s' : GatewayState} {t t' : Task} {input : Input}
    {spawned : List Task} (h : s.next t input = some (s', t', spawned)) : s.Next t s' t' spawned := by
  have hsome {r : GatewayState × Task} (h : some (r.1, r.2, []) = some (s', t', spawned)) :
      s' = r.1 ∧ t' = r.2 ∧ spawned = [] := by
    cases h
    exact ⟨rfl, rfl, rfl⟩
  unfold next at h
  split at h
  · obtain ⟨rfl, rfl, rfl⟩ := hsome h
    exact .http _
  · obtain ⟨rfl, rfl, rfl⟩ := hsome (r := s.keepTicket _ _) h
    exact .minting _ _
  · obtain ⟨rfl, rfl, rfl⟩ := hsome h
    exact .upgrade _
  · obtain ⟨rfl, rfl, rfl⟩ := hsome h
    exact .greeting _ _ _
  · unfold nextConnection at h
    split at h
    · split at h
      · cases h
      · rename_i line lines hjob hlines
        split at h
        · rename_i hkeys
          obtain ⟨rfl, rfl, rfl⟩ := hsome (r := (_, _)) h
          exact .handle _ _ _ hjob hlines hkeys
        · cases h
      · obtain ⟨⟨s₁, job, spawned'⟩, hrun, heq⟩ := Option.map_eq_some_iff.1 h
        cases heq
        exact .job _ hrun
    · split at h
      · rename_i hjob hlines hchannel _
        obtain ⟨rfl, rfl, rfl⟩ := hsome h
        exact .outgoing _ _ hjob hlines hchannel
      · rename_i hjob hlines _
        cases h
        exact .text _ _ hjob hlines
      · rename_i hjob hlines _
        cases h
        exact .close _ hjob hlines
      · cases h
  · obtain ⟨rfl, rfl, rfl⟩ := hsome h
    exact .turn _
  · cases h
    exact .delayed _ _
  · cases h

/-- What a step of `t` does to the record of one session. -/
inductive Change [JsonReader] (s s' : GatewayState) (t : Task) (key : String) :
    Option SessionRecord → Option SessionRecord → Prop where
  | same (record : Option SessionRecord) : Change s s' t key record record
  | amended (record record' : SessionRecord) (hid : record'.id = record.id) (horder : record'.order = record.order)
    (hseq : record'.seq = record.seq) (hevents : record'.events = record.events) :
    Change s s' t key (some record) (some record')
  | pushed (record record' : SessionRecord) (eventType : String) (payload : Value) (hid : record'.id = record.id)
    (horder : record'.order = record.order) (hseq : record'.seq = record.seq + 1)
    (hevents : record'.events = record.events ++ [⟨record.seq + 1, eventType, payload⟩]) :
    Change s s' t key (some record) (some record')
  | named (record : SessionRecord) (hid : record.id = key) (horder : record.order = s.nextOrder)
    (hcounter : s'.nextOrder = s.nextOrder + 1) (hseq : record.seq = 0) (hevents : record.events = [])
    (hasks : ∃ method ∈ [Method.sessionTitle, .sessionResume, .promptSubmit], t.asks = some (method, key)) :
    Change s s' t key none (some record)
  | inserted (old : Option SessionRecord) (record : SessionRecord) (hid : record.id = key) (hseq : record.seq = 0)
    (hevents : record.events = []) (hinserts : t.inserts = some (key, record.order)) : Change s s' t key old (some record)
  | closed (record : SessionRecord) (hasks : t.asks = some (.sessionClose, key)) : Change s s' t key (some record) none

/-- The step changes one session and leaves the others. -/
def ChangesOne [JsonReader] (s s' : GatewayState) (t : Task) : Prop :=
  ∃ key, Change s s' t key (s.sessions.lookup key) (s'.sessions.lookup key) ∧
    ∀ k, k ≠ key → s'.sessions.lookup k = s.sessions.lookup k

theorem ChangesOne.of_eq [JsonReader] {s s' : GatewayState} (t : Task) (h : s'.sessions = s.sessions) :
    ChangesOne s s' t := by
  refine ⟨"", ?_, fun _ _ => by rw [h]⟩
  rw [h]
  exact .same _

namespace GatewayState

@[simp] theorem lookup_setRecord (s : GatewayState) (key k : String) (record : SessionRecord) :
    (s.setRecord key record).sessions.lookup k = if k = key then some record else s.sessions.lookup k :=
  lookup_put _ _ _ _

@[simp] theorem sessions_send (s : GatewayState) (channel : Nat) (line : Value) :
    (s.send channel line).sessions = s.sessions := by
  unfold send
  split <;> rfl

@[simp] theorem sessions_abort (s : GatewayState) (handle : Option Nat) : (s.abort handle).sessions = s.sessions := rfl

@[simp] theorem sessions_hangUp (s : GatewayState) (channel : Nat) : (s.hangUp channel).sessions = s.sessions := rfl

theorem shouldDrop_eq (s : GatewayState) (sent : Nat) :
    s.shouldDrop sent = (s, false) ∨
      (s.shouldDrop sent = ({ s with dropArmed := false }, true) ∧ s.dropArmed = true ∧
        ∃ n, s.config.dropAfter = some n ∧ n ≤ sent) := by
  unfold shouldDrop
  split
  · rename_i n hn
    split
    · rename_i h
      exact .inr ⟨rfl, h.2, n, hn, h.1⟩
    · exact .inl rfl
  · exact .inl rfl

@[simp] theorem sessions_shouldDrop (s : GatewayState) (sent : Nat) :
    (s.shouldDrop sent).1.sessions = s.sessions := by
  rcases s.shouldDrop_eq sent with heq | ⟨heq, -⟩ <;> rw [heq]

@[simp] theorem sessions_sendOut (s : GatewayState) (c : Connection) (line : Value) (delivered : Bool) :
    (s.sendOut c line delivered).1.sessions = s.sessions := by
  unfold sendOut
  split
  · dsimp only
    split <;> simp
  · rfl

/-- The record that is there, or a new one. -/
theorem entry_eq (s : GatewayState) (key now : String) :
    (∃ record, s.sessions.lookup key = some record ∧ s.entry key now = (s, record)) ∨
      (s.sessions.lookup key = none ∧ ∃ record : SessionRecord, record.id = key ∧ record.order = s.nextOrder ∧
        record.seq = 0 ∧ record.events = [] ∧ record.running = false ∧
        s.entry key now = ({ s with nextOrder := s.nextOrder + 1 }.setRecord key record, record)) := by
  unfold entry
  cases h : s.sessions.lookup key with
  | some record => exact .inl ⟨record, rfl, rfl⟩
  | none => exact .inr ⟨rfl, _, rfl, rfl, rfl, rfl, rfl, rfl⟩

theorem lookup_entry (s : GatewayState) (key now : String) :
    (s.entry key now).1.sessions.lookup key = some (s.entry key now).2 := by
  rcases s.entry_eq key now with ⟨old, hold, heq⟩ | ⟨-, new, -, -, -, -, -, heq⟩
  · rw [heq]
    exact hold
  · rw [heq, lookup_setRecord, if_pos rfl]

@[simp] theorem nextOrder_send (s : GatewayState) (channel : Nat) (line : Value) :
    (s.send channel line).nextOrder = s.nextOrder := by
  unfold send
  split <;> rfl

theorem takeTicket_eq (s : GatewayState) (ticket : String) :
    (s.tickets.lookup ticket = some true ∧
      s.takeTicket ticket = ({ s with tickets := put ticket false s.tickets }, true)) ∨
      s.takeTicket ticket = (s, false) := by
  unfold takeTicket
  split
  · rename_i hticket
    exact .inl ⟨hticket, rfl⟩
  · exact .inr rfl

/-- A handshake with a ticket that was not spent opens a channel. -/
theorem acceptWs_eq (s : GatewayState) (query : Option String) :
    s.acceptWs query = (s, .rejected) ∨
      ∃ ticket, query.bind ticketFromQuery = some ticket ∧ s.tickets.lookup ticket = some true ∧
        s.acceptWs query = ({ s with
          tickets := put ticket false s.tickets
          channels := put s.nextChannel [] s.channels
          nextChannel := s.nextChannel + 1 }, .greeting ticket s.nextChannel) := by
  unfold acceptWs
  split
  · exact .inl rfl
  · rename_i ticket hquery
    rcases s.takeTicket_eq ticket with ⟨hticket, heq⟩ | heq
    · rw [heq]
      exact .inr ⟨ticket, hquery, hticket, rfl⟩
    · rw [heq]
      exact .inl rfl

/-- `next_seq_and_record`. -/
theorem nextSeqAndRecord_eq {s s' : GatewayState} {key eventType : String} {payload : Value} {seq : Nat}
    (h : s.nextSeqAndRecord key eventType payload = some (s', seq)) :
    ∃ record, s.sessions.lookup key = some record ∧ s' = s.setRecord key (record.push eventType payload) ∧
      seq = record.seq + 1 := by
  obtain ⟨record, hrecord, heq⟩ := Option.map_eq_some_iff.1 h
  cases heq
  exact ⟨record, hrecord, rfl, rfl⟩

section

variable [JsonReader]

/-- A record that is written again under its key. -/
theorem changesOne_setRecord {s s' : GatewayState} {t : Task} {key : String} {record record' : SessionRecord}
    (h : s.sessions.lookup key = some record) (hs : s'.sessions = (s.setRecord key record').sessions)
    (hchange : Change s s' t key (some record) (some record')) : ChangesOne s s' t := by
  refine ⟨key, ?_, ?_⟩
  · rw [hs, h, lookup_setRecord, if_pos rfl]
    exact hchange
  · intro k hk
    rw [hs, lookup_setRecord, if_neg hk]

/-- The record of a session that a request names, after a lock section that keeps its events. -/
theorem changesOne_entry {s s' : GatewayState} {t : Task} {key now : String} (record : SessionRecord)
    {method : Method} (hmethod : method ∈ [Method.sessionTitle, .sessionResume, .promptSubmit])
    (hasks : t.asks = some (method, key)) (hid : record.id = (s.entry key now).2.id)
    (horder : record.order = (s.entry key now).2.order) (hseq : record.seq = (s.entry key now).2.seq)
    (hevents : record.events = (s.entry key now).2.events)
    (hs : ∀ k, s'.sessions.lookup k = if k = key then some record else (s.entry key now).1.sessions.lookup k)
    (hcounter : s'.nextOrder = (s.entry key now).1.nextOrder) : ChangesOne s s' t := by
  rcases s.entry_eq key now with ⟨old, hold, heq⟩ | ⟨hnone, new, hnid, hnorder, hnseq, hnevents, -, heq⟩
  · rw [heq] at hid horder hseq hevents hs
    refine ⟨key, ?_, fun k hk => by rw [hs, if_neg hk]⟩
    rw [hs, if_pos rfl, hold]
    exact .amended old record hid horder hseq hevents
  · rw [heq] at hid horder hseq hevents hs hcounter
    refine ⟨key, ?_, fun k hk => by rw [hs, if_neg hk, lookup_setRecord, if_neg hk]⟩
    rw [hs, if_pos rfl, hnone]
    exact .named record (hid.trans hnid) (horder.trans hnorder) hcounter (hseq.trans hnseq)
      (hevents.trans hnevents) ⟨method, hmethod, hasks⟩

theorem changesOne_title {s : GatewayState} {t : Task} {now : String} {id params : Value}
    (hasks : t.asks = some (.sessionTitle, params.strAt "session_id")) :
    ChangesOne s (s.handleSessionTitle now id params).1 t := by
  unfold handleSessionTitle
  dsimp only
  split
  · rename_i title _
    exact changesOne_entry { (s.entry (params.strAt "session_id") now).2 with title := title } (by simp) hasks
      rfl rfl rfl rfl (fun k => lookup_setRecord _ _ _ _) rfl
  · exact changesOne_entry (s.entry (params.strAt "session_id") now).2 (by simp) hasks rfl rfl rfl rfl
      (fun k => lookup_setRecord _ _ _ _) rfl

theorem changesOne_resume {s : GatewayState} {t : Task} {now : String} {channel : Nat} {id params : Value}
    (hasks : t.asks = some (.sessionResume, params.strAt "session_id")) :
    ChangesOne s (s.handleSessionResume channel now id params) t := by
  unfold handleSessionResume
  refine changesOne_entry (s.entry (params.strAt "session_id") now).2 (by simp) hasks rfl rfl rfl rfl (fun k => ?_)
    (nextOrder_send _ _ _)
  rw [sessions_send]
  split
  · rename_i hk
    rw [hk, lookup_entry]
  · rfl

theorem changesOne_submit {s : GatewayState} {t : Task} {now : String} {id params : Value}
    (hasks : t.asks = some (.promptSubmit, params.strAt "session_id")) :
    ChangesOne s (s.handlePromptSubmit now id params).1 t := by
  unfold handlePromptSubmit
  dsimp only
  split
  · refine changesOne_entry (s.entry (params.strAt "session_id") now).2 (by simp) hasks rfl rfl rfl rfl (fun k => ?_)
      rfl
    split
    · rename_i hk
      rw [hk, lookup_entry]
    · rfl
  · exact changesOne_entry { (s.entry (params.strAt "session_id") now).2 with running := true } (by simp) hasks
      rfl rfl rfl rfl (fun k => lookup_setRecord _ _ _ _) rfl

theorem changesOne_close {s : GatewayState} {t : Task} {id params : Value}
    (hasks : t.asks = some (.sessionClose, params.strAt "session_id")) :
    ChangesOne s (s.handleSessionClose id params).1 t := by
  unfold handleSessionClose
  dsimp only
  cases h : s.sessions.lookup (params.strAt "session_id") with
  | none => exact .of_eq t rfl
  | some record =>
    refine ⟨params.strAt "session_id", ?_, fun k hk => AList.lookup_erase_ne hk⟩
    rw [h, sessions_abort, AList.lookup_erase]
    exact .closed record hasks

theorem changesOne_interrupt (s : GatewayState) (t : Task) (id params : Value) :
    ChangesOne s (s.handleSessionInterrupt id params).1 t := by
  unfold handleSessionInterrupt
  dsimp only
  cases h : s.sessions.lookup (params.strAt "session_id") with
  | none => exact .of_eq t rfl
  | some record =>
    dsimp only
    split
    · exact changesOne_setRecord h rfl (.pushed record _ _ _ rfl rfl rfl rfl)
    · exact .of_eq t rfl

/-- The first step of a handler. -/
theorem changesOne_handleRpcLine (s : GatewayState) {c : Connection} (now : String) (keys : List String)
    {line : String} {lines : List String} (hjob : c.job = .sending []) (hlines : c.lines = line :: lines) :
    ChangesOne s (s.handleRpcLine c.channel now keys line).1 (.connection c) := by
  unfold handleRpcLine
  cases hvalue : fromStr line with
  | none => exact .of_eq _ rfl
  | some value =>
    have hasks : ∀ method, Method.parse (value.strAt "method") = method →
        (Task.connection c).asks = some (method, ((value.get "params").getD .null).strAt "session_id") := by
      intro method hmethod
      unfold Task.asks Connection.request
      dsimp only
      rw [hjob, hlines, ← hmethod]
      dsimp only
      rw [hvalue]
      rfl
    dsimp only
    cases hmethod : Method.parse (value.strAt "method") with
    | sessionCreate => exact .of_eq _ rfl
    | sessionList => exact .of_eq _ (sessions_send _ _ _)
    | sessionMostRecent => exact .of_eq _ (sessions_send _ _ _)
    | sessionResume => exact changesOne_resume (hasks _ hmethod)
    | sessionEventsSince => exact .of_eq _ (sessions_send _ _ _)
    | sessionTitle => exact changesOne_title (hasks _ hmethod)
    | sessionClose => exact changesOne_close (hasks _ hmethod)
    | sessionInterrupt => exact changesOne_interrupt _ _ _ _
    | promptSubmit => exact changesOne_submit (hasks _ hmethod)
    | _ => exact .of_eq _ rfl

/-- The later steps of a handler. -/
theorem changesOne_runJob [Lowercase] {s s' : GatewayState} {c : Connection} {now : String} {job : Job}
    {spawned : List Task} (h : s.runJob c.channel now c.job = some (s', job, spawned)) :
    ChangesOne s s' (.connection c) := by
  unfold runJob at h
  split at h
  · cases h
  · cases h
    exact .of_eq _ (sessions_send _ _ _)
  · cases h
    exact .of_eq _ rfl
  · rename_i id profile title sessionId order hjob
    cases h
    refine ⟨sessionId, ?_, fun k hk => by rw [lookup_setRecord, if_neg hk]⟩
    rw [lookup_setRecord, if_pos rfl]
    refine .inserted _ _ rfl rfl rfl ?_
    unfold Task.inserts
    dsimp only
    rw [hjob]
  · cases h
    exact .of_eq _ (sessions_send _ _ _)
  · dsimp only at h
    split at h
    · cases h
      exact .of_eq _ rfl
    · rename_i hpush
      cases h
      obtain ⟨record, hrecord, rfl, -⟩ := nextSeqAndRecord_eq hpush
      exact changesOne_setRecord hrecord rfl (.pushed record _ _ _ rfl rfl rfl rfl)
  · cases h
    exact .of_eq _ (sessions_send _ _ _)
  · split at h
    · rename_i record hrecord
      cases h
      exact changesOne_setRecord hrecord rfl (.amended record _ rfl rfl rfl rfl)
    · cases h
      exact .of_eq _ rfl

theorem changesOne_nextTurnStep (s : GatewayState) (t : Turn) : ChangesOne s (s.nextTurnStep t).1 (.turn t) := by
  unfold nextTurnStep
  split
  · split
    · exact .of_eq _ rfl
    · split <;> exact .of_eq _ rfl
  · split
    · exact .of_eq _ rfl
    · rename_i hpush
      obtain ⟨record, hrecord, rfl, -⟩ := nextSeqAndRecord_eq hpush
      exact changesOne_setRecord hrecord rfl (.pushed record _ _ _ rfl rfl rfl rfl)
  · exact .of_eq _ (sessions_send _ _ _)
  · split
    · rename_i record hrecord
      exact changesOne_setRecord hrecord rfl (.amended record _ rfl rfl rfl rfl)
    · exact .of_eq _ rfl

theorem sessions_routeHttp (s : GatewayState) (request : HttpRequest) :
    (s.routeHttp request).1.sessions = s.sessions := by
  unfold routeHttp
  cases Route.parse request.method request.path with
  | wsTicket =>
    dsimp only
    split <;> rfl
  | me =>
    dsimp only
    split <;> rfl
  | profiles =>
    dsimp only
    unfold takeProfileFailure
    split
    · dsimp only
      split
      · rfl
      · split <;> rfl
    · rfl
  | _ => rfl

/-- A step of a task changes one session, as `Change` lists it. -/
theorem Next.changesOne [Lowercase] {s s' : GatewayState} {t t' : Task} {spawned : List Task}
    (h : Next s t s' t' spawned) : ChangesOne s s' t := by
  cases h with
  | http request => exact .of_eq _ (sessions_routeHttp s request)
  | minting request number => exact .of_eq _ rfl
  | upgrade query =>
    rcases s.acceptWs_eq query with heq | ⟨ticket, -, -, heq⟩
    · rw [heq]
      exact .of_eq _ rfl
    · rw [heq]
      exact .of_eq _ rfl
  | greeting ticket channel delivered => exact .of_eq _ (sessions_sendOut _ _ _ _)
  | handle c now keys hjob hlines hkeys => exact changesOne_handleRpcLine s now keys hjob hlines
  | job c hrun => exact changesOne_runJob hrun
  | outgoing c delivered hjob hlines hchannel => exact .of_eq _ (sessions_sendOut _ _ _ _)
  | text c frame hjob hlines => exact .of_eq _ rfl
  | close c hjob hlines => exact .of_eq _ rfl
  | turn t => exact changesOne_nextTurnStep s t
  | delayed channel frame => exact .of_eq _ (sessions_send _ _ _)

end

end GatewayState

section

variable [JsonReader] [Lowercase]

abbrev Gateway := System GatewayState Task

abbrev Move := Tasks.Label Task Input Empty

def start (config : Config) (fixtures : Fixtures) : Gateway := ⟨.new config fixtures, []⟩

theorem entry_cases {s : GatewayState} {t : Task} (h : program.entry s t) :
    (∃ request, t = .http request) ∨ ∃ query, t = .upgrade query := by
  cases t with
  | http request => exact .inl ⟨request, rfl⟩
  | upgrade query => exact .inr ⟨query, rfl⟩
  | _ => cases h

/-- A step of the process is one of a task, or a request comes in. -/
theorem step_cases {g g' : Gateway} {l : Move} (h : program.step g l = some g') :
    (∃ t, l = .start t ∧ program.entry g.shared t ∧ g' = ⟨g.shared, g.tasks ++ [t]⟩) ∨
      ∃ i input t s t' spawned, l = .task i input ∧ g.tasks[i]? = some t ∧
        g.shared.Next t s t' spawned ∧ g' = ⟨s, g.tasks.set i t' ++ spawned⟩ := by
  cases l with
  | start t => exact .inl ⟨t, rfl, Tasks.Program.step_start h⟩
  | task i input =>
    obtain ⟨t, s, t', spawned, ht, hnext, rfl⟩ := Tasks.Program.step_task h
    exact .inr ⟨i, input, t, s, t', spawned, rfl, ht, GatewayState.next_cases hnext, rfl⟩
  | env e => exact e.elim

end

end Hermo.FakeGateway
