import Hermo.Core.Operations

/-!
# Bot chats opened at the same time

Calls of `open_bot_chat` for one profile, over `Operations`, with the gateway that serves them: it answers
`session.list` from the sessions it holds, and holds a created session from the moment it answers the create.  A call
looks for the Bot Chat and creates it in two RPCs, and nothing keeps another call out in between.
-/

namespace Hermo.BotChat

open Run Rpc Operations

/-- An answer of the gateway, on its way to the call. -/
inductive Reply where
  | list (rows : List (String × String))
  | created (session : CreatedSession)
  | resumed (session : ResumedSession)

structure Call where
  point : Point
  reply : Option Reply := none

structure Shared where
  core : Operations.Shared
  /-- The sessions the gateway holds for the profile, as `(title, durable id)`. -/
  sessions : List (String × String)
  /-- The `session.create` calls that were issued. -/
  creates : Nat := 0
  /-- Those of them that their callers gave up before the gateway served them. -/
  abandoned : Nat := 0

inductive Input where
  /-- The call goes on up to its next RPC. -/
  | go
  /-- The gateway serves the RPC the call awaits. -/
  | serve (reply : Reply)
  /-- The answer arrives; `written` says whether the save that follows succeeds. -/
  | arrive (written : Bool)
  /-- The RPC fails, before or after the gateway has served it. -/
  | fail (e : ClientError)

inductive Event where
  | client (installed : Bool)
  /-- Other operations and the supervisor leave the store like this. -/
  | store (left : Storage.Shared)
  /-- The other sessions of the profile change. -/
  | sessions (rows : List (String × String))
  /-- The gateway serves a `session.create` whose caller has given up. -/
  | late (session : CreatedSession)

def Reply.input : Reply → Bool → Operations.Input
  | .list rows, _ => .listed (.ok rows)
  | .created session, written => .created (.ok session) written
  | .resumed session, written => .resumed (.ok session) written

namespace Shared

/-- The sessions that are the Bot Chat of the profile. -/
def bots (s : Shared) : List (String × String) := s.sessions.filter isBotChat

/-- The gateway creates a session. -/
def mint (s : Shared) (session : CreatedSession) : Option Shared :=
  if session.storedSessionId ≠ "" ∧ ∀ row ∈ s.sessions, row.2 ≠ session.storedSessionId then
    some { s with sessions := s.sessions ++ [(botChatTitle, session.storedSessionId)] }
  else none

/-- What the gateway does on the RPC of a point: a list has the Bot Chats it holds, and nothing it does not hold. -/
def serve (s : Shared) : Point → Reply → Option Shared
  | .listing _ _, .list rows =>
    if (∀ row ∈ rows, row ∈ s.sessions) ∧ ∀ row ∈ s.bots, row ∈ rows then some s else none
  | .creating _ _, .created session => s.mint session
  | .resuming _ _ _, .resumed _ => some s
  | _, _ => none

end Shared

/-- The input of a point that awaits nothing. -/
def goInput : Point → Option Operations.Input
  | .call _ => some (.disk true)
  | .openInner _ _ _ => some .run
  | _ => none

/-- The input of a point whose RPC fails. -/
def failInput (e : ClientError) : Point → Option Operations.Input
  | .listing _ _ => some (.listed (.error e))
  | .creating _ _ => some (.created (.error e) false)
  | .resuming _ _ _ => some (.resumed (.error e) false)
  | _ => none

namespace Call

/-- The call awaits a `session.create` the gateway has not served. -/
def unserved : Call → Bool
  | ⟨.creating _ _, none⟩ => true
  | _ => false

/-- The call was told that there is no Bot Chat, and has not issued its `session.create`. -/
def told : Call → Bool
  | ⟨.listing _ _, some (.list rows)⟩ => resolveBotChat rows = .create
  | ⟨.openInner none _ _, _⟩ => true
  | _ => false

section

variable [Serializer]

def next (s : Shared) (c : Call) : Input → Option (Shared × Call × List Call)
  | .go =>
    (goInput c.point).bind fun input => (c.point.next s.core input).map fun (core, point) =>
      ({ s with core, creates := s.creates + (unserved ⟨point, none⟩).toNat }, ⟨point, none⟩, [])
  | .serve reply =>
    if c.reply.isNone then (s.serve c.point reply).map fun s' => (s', { c with reply := some reply }, []) else none
  | .arrive written =>
    c.reply.bind fun reply => (c.point.next s.core (reply.input written)).map fun (core, point) =>
      ({ s with core }, ⟨point, none⟩, [])
  | .fail e =>
    (failInput e c.point).bind fun input => (c.point.next s.core input).map fun (core, point) =>
      ({ s with core, abandoned := s.abandoned + c.unserved.toNat }, ⟨point, none⟩, [])

end

end Call

def Event.next (s : Shared) : Event → Option Shared
  | .client installed => some { s with core := { s.core with client := installed } }
  | .store left => some { s with core := { s.core with store := left } }
  | .sessions rows => if rows.filter isBotChat = s.bots then some { s with sessions := rows } else none
  | .late session =>
    if 0 < s.abandoned then (s.mint session).map fun s' => { s' with abandoned := s.abandoned - 1 } else none

/-- A call of `open_bot_chat` for the profile. -/
def Call.isEntry (profile : String) : Call → Bool
  | ⟨.call (.openBotChat p _), none⟩ => p = profile
  | _ => false

def program [Serializer] (profile : String) : Tasks.Program Shared Call Input Event :=
  ⟨Call.next, Event.next, fun _ => Call.isEntry profile⟩

abbrev System := Tasks.System Shared Call

abbrev Label := Tasks.Label Call Input Event

/-! ### What a call returns -/

/-- The id `open_bot_chat` resumes. -/
def resolved (rows : List (String × String)) : Option String :=
  match resolveBotChat rows with
  | .resume id => some id
  | .create => none

theorem resolved_eq (rows : List (String × String)) : resolved rows = (rows.find? isBotChat).map Prod.snd := by
  unfold resolved
  rw [resolveBotChat_eq]
  cases rows.find? isBotChat <;> rfl

theorem resolved_eq_none {rows : List (String × String)} : resolved rows = none ↔ resolveBotChat rows = .create := by
  unfold resolved
  cases h : resolveBotChat rows with
  | resume id => exact iff_of_false nofun nofun
  | create => exact iff_of_true rfl rfl

theorem resolved_mem {rows : List (String × String)} {id : String} (h : resolved rows = some id) :
    (botChatTitle, id) ∈ rows.filter isBotChat := by
  unfold resolved at h
  cases hrows : resolveBotChat rows with
  | resume id' =>
    rw [hrows] at h
    cases h
    exact resolveBotChat_resume hrows
  | create =>
    rw [hrows] at h
    cases h

/-- A call goes on alone; the rest of the core may change between its steps. -/
def callStep [Serializer] (point : Point) (i : Operations.Shared × Operations.Input) : Option Point :=
  (point.next i.1 i.2).map Prod.snd

/-- The gateway answers the list, and the create, like this. -/
def Agrees (rows : List (String × String)) (session : CreatedSession) : Operations.Input → Prop
  | .listed (.ok answered) => answered = rows
  | .created (.ok answered) _ => answered = session
  | _ => True

/-- The points of a call whose list was answered with `rows`. -/
private def Follows (rows : List (String × String)) (session : CreatedSession) : Point → Prop
  | .call (.openBotChat _ _) | .listing _ _ | .returned (.error _) => True
  | .openInner storedId _ _ => storedId = resolved rows
  | .creating _ _ => resolved rows = none
  | .resuming id _ _ => resolved rows = some id
  | .returned (.ok answer) => answer = .key ((resolved rows).getD session.storedSessionId)
  | _ => False

private theorem follows_step [Serializer] {rows : List (String × String)} {session : CreatedSession}
    {point point' : Point} {i : Operations.Shared × Operations.Input} (h : Follows rows session point)
    (hagrees : Agrees rows session i.2) (hstep : callStep point i = some point') : Follows rows session point' := by
  obtain ⟨core, input⟩ := i
  obtain ⟨⟨core', after⟩, hnext, rfl⟩ := Option.map_eq_some_iff.1 hstep
  cases point with
  | call op =>
    cases op with
    | openBotChat profile cols =>
      cases input with
      | disk written =>
        cases hnext
        cases hclient : core.client <;> simp [Follows, Point.fail]
      | _ => cases hnext
    | _ => cases h
  | listing profile cols =>
    cases input with
    | listed reply =>
      cases reply with
      | error e =>
        cases hnext
        trivial
      | ok answered =>
        cases hagrees
        unfold Point.next at hnext
        dsimp only at hnext
        unfold Follows resolved
        cases hresolve : resolveBotChat rows with
        | resume id =>
          rw [hresolve] at hnext
          cases hnext
          rfl
        | create =>
          rw [hresolve] at hnext
          cases hnext
          rfl
    | _ => cases hnext
  | openInner storedId profile cols =>
    cases input with
    | run =>
      cases hnext
      unfold Point.openWith
      cases hclient : core.client with
      | false => trivial
      | true =>
        rw [if_neg nofun]
        cases storedId with
        | none => exact Eq.symm h
        | some id => exact Eq.symm h
    | _ => cases hnext
  | creating profile cols =>
    have hnone : resolved rows = none := h
    cases input with
    | created reply written =>
      cases reply with
      | error e =>
        cases hnext
        trivial
      | ok answered =>
        cases hagrees
        cases hnext
        unfold Follows
        dsimp only
        rw [hnone]
        rfl
    | _ => cases hnext
  | resuming id profile cols =>
    have hsome : resolved rows = some id := h
    cases input with
    | resumed reply written =>
      cases reply with
      | error e =>
        cases hnext
        trivial
      | ok answered =>
        cases hnext
        unfold Follows
        dsimp only
        rw [hsome]
        rfl
    | _ => cases hnext
  | returned result => cases hnext
  | _ => cases h

/-- A call that succeeds returns the first Bot Chat on the list, and the created session where there is none. -/
theorem returned_key [Serializer] {rows : List (String × String)} {session : CreatedSession} {profile : String}
    {cols : Int} {inputs : List (Operations.Shared × Operations.Input)} {key : String}
    (hagrees : ∀ i ∈ inputs, Agrees rows session i.2)
    (hrun : exec callStep (.call (.openBotChat profile cols)) inputs = some (.returned (.ok (.key key)))) :
    key = ((rows.find? isBotChat).map Prod.snd).getD session.storedSessionId := by
  have hmeets : Meets callStep (fun _ i => Agrees rows session i.2) (.call (.openBotChat profile cols)) inputs :=
    meets_of_forall callStep (fun i hi _ => hagrees i hi) _
  have hstart : Follows rows session (.call (.openBotChat profile cols)) := trivial
  have hfollows : Follows rows session (.returned (.ok (.key key))) :=
    exec_invariant callStep (fun _ _ _ h hok hstep => follows_step h hok hstep) hstart hmeets hrun
  have hkey : key = (resolved rows).getD session.storedSessionId := by
    injection hfollows
  rw [hkey, resolved_eq]

/-! ### What a call can do -/

/-- The points of `open_bot_chat`. -/
def inFlow : Point → Bool
  | .call (.openBotChat _ _) | .listing _ _ | .openInner _ _ _ | .creating _ _ | .resuming _ _ _ | .returned _ => true
  | _ => false

/-- Every way a call goes on: the gateway's side of the step, the point before and behind it. -/
inductive Move (s : Shared) : Call → Shared → Call → Prop
  | asks (profile : String) (cols : Int) (reply : Option Reply) :
    Move s ⟨.call (.openBotChat profile cols), reply⟩ s ⟨.listing profile cols, none⟩
  | lists (profile : String) (cols : Int) (rows : List (String × String)) (hrows : ∀ row ∈ rows, row ∈ s.sessions)
    (hbots : ∀ row ∈ s.bots, row ∈ rows) :
    Move s ⟨.listing profile cols, none⟩ s ⟨.listing profile cols, some (.list rows)⟩
  | resolves (profile : String) (cols : Int) (rows : List (String × String)) :
    Move s ⟨.listing profile cols, some (.list rows)⟩ s ⟨.openInner (resolved rows) (some profile) cols, none⟩
  | issues (profile : Option String) (cols : Int) (reply : Option Reply) :
    Move s ⟨.openInner none profile cols, reply⟩ { s with creates := s.creates + 1 } ⟨.creating profile cols, none⟩
  | mints (profile : Option String) (cols : Int) (session : CreatedSession) (s' : Shared)
    (hmint : s.mint session = some s') :
    Move s ⟨.creating profile cols, none⟩ s' ⟨.creating profile cols, some (.created session)⟩
  | creates (profile : Option String) (cols : Int) (session : CreatedSession) (core : Operations.Shared) :
    Move s ⟨.creating profile cols, some (.created session)⟩ { s with core }
      ⟨.returned (.ok (.key session.storedSessionId)), none⟩
  | asksResume (id : String) (profile : Option String) (cols : Int) (reply : Option Reply) :
    Move s ⟨.openInner (some id) profile cols, reply⟩ s ⟨.resuming id profile cols, none⟩
  | servesResume (id : String) (profile : Option String) (cols : Int) (session : ResumedSession) :
    Move s ⟨.resuming id profile cols, none⟩ s ⟨.resuming id profile cols, some (.resumed session)⟩
  | resumes (id : String) (profile : Option String) (cols : Int) (session : ResumedSession)
    (core : Operations.Shared) :
    Move s ⟨.resuming id profile cols, some (.resumed session)⟩ { s with core } ⟨.returned (.ok (.key id)), none⟩
  | fails (c : Call) (e : CoreError) :
    Move s c { s with abandoned := s.abandoned + c.unserved.toNat } ⟨.fail e, none⟩

theorem Move.inFlow {s s' : Shared} {c c' : Call} (h : Move s c s' c') : inFlow c'.point = true := by
  cases h <;> rfl

section

variable [Serializer]

private theorem go_move {s s' : Shared} {c c' : Call} {spawned : List Call}
    (h : c.next s .go = some (s', c', spawned)) (hflow : BotChat.inFlow c.point = true) :
    spawned = [] ∧ Move s c s' c' := by
  obtain ⟨point, reply⟩ := c
  obtain ⟨input, hinput, hnext⟩ := Option.bind_eq_some_iff.1 h
  obtain ⟨⟨core, after⟩, hpoint, heq⟩ := Option.map_eq_some_iff.1 hnext
  cases heq
  refine ⟨rfl, ?_⟩
  cases point with
  | call op =>
    cases op with
    | openBotChat profile cols =>
      cases hinput
      cases hpoint
      cases hclient : s.core.client with
      | false =>
        rw [if_neg Bool.false_ne_true]
        exact .fails _ .notConnected
      | true =>
        rw [if_pos rfl]
        exact .asks profile cols reply
    | _ => cases hflow
  | openInner storedId profile cols =>
    cases hinput
    cases hpoint
    unfold Point.openWith
    cases hclient : s.core.client with
    | false =>
      rw [if_pos rfl]
      exact .fails _ .notConnected
    | true =>
      rw [if_neg nofun]
      cases storedId with
      | none => exact .issues profile cols reply
      | some id => exact .asksResume id profile cols reply
  | _ => cases hinput

private theorem serve_move {s s' : Shared} {c c' : Call} {reply : Reply} {spawned : List Call}
    (h : c.next s (.serve reply) = some (s', c', spawned)) : spawned = [] ∧ Move s c s' c' := by
  obtain ⟨point, waiting⟩ := c
  cases waiting with
  | some waiting => cases h
  | none =>
    obtain ⟨after, hserve, heq⟩ := Option.map_eq_some_iff.1 h
    cases heq
    refine ⟨rfl, ?_⟩
    change s.serve point reply = some s' at hserve
    unfold Shared.serve at hserve
    split at hserve
    · split at hserve <;> cases hserve
      rename_i hrows
      exact .lists _ _ _ hrows.1 hrows.2
    · exact .mints _ _ _ _ hserve
    · cases hserve
      exact .servesResume _ _ _ _
    · cases hserve

private theorem arrive_move {s s' : Shared} {c c' : Call} {written : Bool} {spawned : List Call}
    (h : c.next s (.arrive written) = some (s', c', spawned)) (hflow : BotChat.inFlow c.point = true) :
    spawned = [] ∧ Move s c s' c' := by
  obtain ⟨point, reply⟩ := c
  obtain ⟨reply, rfl, hnext⟩ := Option.bind_eq_some_iff.1 h
  obtain ⟨⟨core, after⟩, hpoint, heq⟩ := Option.map_eq_some_iff.1 hnext
  cases heq
  refine ⟨rfl, ?_⟩
  cases reply with
  | list rows =>
    cases point with
    | listing profile cols =>
      have hmove := Move.resolves (s := s) profile cols rows
      unfold Point.next Reply.input at hpoint
      unfold resolved at hmove
      dsimp only at hpoint
      cases hresolve : resolveBotChat rows with
      | resume id =>
        rw [hresolve] at hpoint hmove
        cases hpoint
        exact hmove
      | create =>
        rw [hresolve] at hpoint hmove
        cases hpoint
        exact hmove
    | call op => cases op <;> cases hpoint
    | _ => cases hpoint
  | created session =>
    cases point with
    | creating profile cols =>
      cases hpoint
      exact .creates profile cols session _
    | call op => cases op <;> cases hpoint
    | _ => cases hpoint
  | resumed session =>
    cases point with
    | resuming id profile cols =>
      cases hpoint
      exact .resumes id profile cols session _
    | call op => cases op <;> cases hpoint
    | _ => cases hpoint

private theorem fail_move {s s' : Shared} {c c' : Call} {e : ClientError} {spawned : List Call}
    (h : c.next s (.fail e) = some (s', c', spawned)) : spawned = [] ∧ Move s c s' c' := by
  obtain ⟨point, reply⟩ := c
  obtain ⟨input, hinput, hnext⟩ := Option.bind_eq_some_iff.1 h
  obtain ⟨⟨core, after⟩, hpoint, heq⟩ := Option.map_eq_some_iff.1 hnext
  cases heq
  refine ⟨rfl, ?_⟩
  cases point with
  | listing | creating | resuming =>
    cases hinput
    cases hpoint
    exact .fails _ (.ofClient e)
  | _ => cases hinput

theorem next_move {s s' : Shared} {c c' : Call} {input : Input} {spawned : List Call}
    (h : c.next s input = some (s', c', spawned)) (hflow : BotChat.inFlow c.point = true) :
    spawned = [] ∧ Move s c s' c' := by
  cases input with
  | go => exact go_move h hflow
  | serve reply => exact serve_move h
  | arrive written => exact arrive_move h hflow
  | fail e => exact fail_move h

end

/-! ### One chat for one profile -/

/-- The durable id a call has got hold of. -/
def Call.holds : Call → Option String
  | ⟨.listing _ _, some (.list rows)⟩ => resolved rows
  | ⟨.openInner storedId _ _, _⟩ => storedId
  | ⟨.creating _ _, some (.created session)⟩ => some session.storedSessionId
  | ⟨.resuming id _ _, _⟩ => some id
  | ⟨.returned (.ok (.key key)), _⟩ => some key
  | _ => none

/-- A list without the Bot Chat is served only while no call that got one has its `session.create` to come, on its way
or given up unserved. -/
def Serial (s : System) : Label → Prop
  | .task _ (.serve (.list rows)) =>
    resolveBotChat rows = .create → s.shared.abandoned = 0 ∧ ∀ c ∈ s.tasks, c.told = false ∧ c.unserved = false
  | _ => True

/-- At most one `session.create` was issued, and the calls that succeeded returned the same key. -/
def OneChat (s : System) : Prop :=
  s.shared.creates ≤ 1 ∧
    ∀ c ∈ s.tasks, ∀ d ∈ s.tasks, ∀ key key', c.point = .returned (.ok (.key key)) →
      d.point = .returned (.ok (.key key')) → key = key'

theorem Shared.mint_spec {s s' : Shared} {session : CreatedSession} (h : s.mint session = some s') :
    s'.bots = s.bots ++ [(botChatTitle, session.storedSessionId)] ∧ s'.creates = s.creates ∧
      s'.abandoned = s.abandoned := by
  unfold mint at h
  split at h <;> cases h
  rename_i hfresh
  refine ⟨?_, rfl, rfl⟩
  unfold bots
  rw [List.filter_append, List.filter_cons_of_pos (by simpa [isBotChat] using hfresh.1), List.filter_nil]

/-- Every create is on its way, given up, or has left a Bot Chat; the ids the calls hold are Bot Chats. -/
structure Books (s : System) : Prop where
  flow : ∀ c ∈ s.tasks, inFlow c.point = true
  holds : ∀ c ∈ s.tasks, ∀ id, c.holds = some id → (botChatTitle, id) ∈ s.shared.bots
  count : (s.shared.creates : Int) - s.shared.abandoned - s.shared.bots.length = s.tasks.countP Call.unserved
  room : s.shared.creates + s.tasks.countP Call.told ≤ 1

namespace Move

variable {s s' : Shared} {c c' : Call}

theorem bots_mono (h : Move s c s' c') : ∀ row ∈ s.bots, row ∈ s'.bots := by
  intro row hrow
  cases h with
  | mints profile cols session after hmint =>
    rw [(Shared.mint_spec hmint).1]
    exact List.mem_append_left _ hrow
  | _ => exact hrow

theorem holds_bots (h : Move s c s' c') (hc : ∀ id, c.holds = some id → (botChatTitle, id) ∈ s.bots) :
    ∀ id, c'.holds = some id → (botChatTitle, id) ∈ s'.bots := by
  intro id hid
  cases h with
  | lists profile cols rows hrows =>
    obtain ⟨hmem, hbot⟩ := List.mem_filter.1 (resolved_mem hid)
    exact List.mem_filter.2 ⟨hrows _ hmem, hbot⟩
  | mints profile cols session after hmint =>
    cases hid
    rw [(Shared.mint_spec hmint).1]
    exact List.mem_append_right _ (List.mem_singleton_self _)
  | resolves | creates | asksResume | servesResume | resumes => exact hc id hid
  | asks | issues | fails => cases hid

theorem count_eq (h : Move s c s' c') :
    (s'.creates : Int) - s'.abandoned - s'.bots.length + c.unserved.toNat =
      s.creates - s.abandoned - s.bots.length + c'.unserved.toNat := by
  cases h with
  | mints profile cols session after hmint =>
    obtain ⟨hbots, hcreates, habandoned⟩ := Shared.mint_spec hmint
    rw [hbots, hcreates, habandoned, List.length_append]
    simp [Call.unserved]
    omega
  | issues => 
    simp [Call.unserved, Shared.bots]
    omega
  | fails e => 
    simp [Call.unserved, Point.fail, Shared.bots]
    omega
  | _ => rfl

/-- Only a list without the Bot Chat makes room for another create. -/
theorem room_le (h : Move s c s' c') :
    s'.creates + c'.told.toNat ≤ s.creates + c.told.toNat ∨
      ∃ rows, c'.reply = some (.list rows) ∧ resolveBotChat rows = .create ∧ s' = s ∧ c.told = false ∧
        ∀ row ∈ s.bots, row ∈ rows := by
  cases h with
  | lists profile cols rows hrows hbots =>
    by_cases hcreate : resolveBotChat rows = .create
    · exact .inr ⟨rows, rfl, hcreate, rfl, rfl, hbots⟩
    · left
      simp [Call.told, hcreate]
  | resolves profile cols rows =>
    left
    by_cases hcreate : resolveBotChat rows = .create
    · simp [Call.told, hcreate, resolved_eq_none.2 hcreate]
    · obtain ⟨id, hid⟩ := Option.ne_none_iff_exists'.1 (mt resolved_eq_none.1 hcreate)
      simp [Call.told, hid]
  | mints profile cols session after hmint =>
    rw [(Shared.mint_spec hmint).2.1]
    exact .inl le_rfl
  | fails => exact .inl (Nat.le_add_right _ _)
  | _ => exact .inl le_rfl

end Move

theorem Event.next_spec {s s' : Shared} {e : Event} (h : e.next s = some s') :
    s'.creates = s.creates ∧ (∀ row ∈ s.bots, row ∈ s'.bots) ∧
      (s'.creates : Int) - s'.abandoned - s'.bots.length = s.creates - s.abandoned - s.bots.length := by
  cases e with
  | client installed =>
    cases h
    exact ⟨rfl, fun _ hrow => hrow, rfl⟩
  | store left =>
    cases h
    exact ⟨rfl, fun _ hrow => hrow, rfl⟩
  | sessions rows =>
    unfold next at h
    dsimp only at h
    split at h <;> cases h
    rename_i hbots
    have hsame : Shared.bots { s with sessions := rows } = s.bots := hbots
    rw [hsame]
    exact ⟨rfl, fun _ hrow => hrow, rfl⟩
  | late session =>
    unfold next at h
    dsimp only at h
    split at h
    · rename_i hpos
      obtain ⟨t, hmint, rfl⟩ := Option.map_eq_some_iff.1 h
      obtain ⟨hbots, hcreates, -⟩ := Shared.mint_spec hmint
      have hafter : Shared.bots { t with abandoned := s.abandoned - 1 } = t.bots := rfl
      rw [hafter, hbots, hcreates]
      refine ⟨rfl, fun _ hrow => List.mem_append_left _ hrow, ?_⟩
      rw [List.length_append, List.length_singleton]
      dsimp only
      omega
    · cases h

theorem Call.entry_flow {profile : String} {c : Call} (h : c.isEntry profile = true) :
    ∃ cols, c = ⟨.call (.openBotChat profile cols), none⟩ := by
  unfold Call.isEntry at h
  split at h
  · exact ⟨_, by rw [of_decide_eq_true h]⟩
  · cases h

theorem Books.oneChat {s : System} (h : Books s) : OneChat s := by
  have hroom := h.room
  have hcount := h.count
  refine ⟨by omega, ?_⟩
  intro c hc d hd key key' hkey hkey'
  obtain ⟨point, reply⟩ := c
  obtain ⟨point', reply'⟩ := d
  cases hkey
  cases hkey'
  -- there is at most one Bot Chat, and both keys are its id
  obtain ⟨i, hi, hget⟩ := List.mem_iff_getElem.1 (h.holds _ hc key rfl)
  obtain ⟨j, hj, hget'⟩ := List.mem_iff_getElem.1 (h.holds _ hd key' rfl)
  obtain rfl : i = j := by omega
  exact congrArg Prod.snd (hget.symm.trans hget')

section

variable [Serializer] {profile : String} {s s' : System} {l : Label}

theorem next_reply {s s' : Shared} {c c' : Call} {input : Input} {spawned : List Call} {reply : Reply}
    (h : c.next s input = some (s', c', spawned)) (hreply : c'.reply = some reply) : input = .serve reply := by
  cases input with
  | serve served =>
    unfold Call.next at h
    dsimp only at h
    split at h
    · obtain ⟨after, -, heq⟩ := Option.map_eq_some_iff.1 h
      cases heq
      rw [Option.some_inj.1 hreply]
    · cases h
  | go | fail e | arrive written =>
    obtain ⟨_, _, hnext⟩ := Option.bind_eq_some_iff.1 h
    obtain ⟨_, _, heq⟩ := Option.map_eq_some_iff.1 hnext
    cases heq
    cases hreply

theorem Books.move {i : Nat} {input : Input} {c c' : Call} {shared : Shared} {spawned : List Call} (h : Books s)
    (hc : s.tasks[i]? = some c) (hnext : (program profile).next s.shared c input = some (shared, c', spawned)) :
    spawned = [] ∧ Move s.shared c shared c' :=
  next_move hnext (h.flow c (List.mem_of_getElem? hc))

private theorem room_step (h : Books s) (hok : Serial s l) (hstep : (program profile).step s l = some s') :
    s'.shared.creates + s'.tasks.countP Call.told ≤ 1 := by
  have hroom := h.room
  cases l with
  | start c =>
    obtain ⟨hentry, rfl⟩ := Tasks.Program.step_start hstep
    obtain ⟨cols, rfl⟩ := Call.entry_flow hentry
    rw [List.countP_append]
    exact hroom
  | task i input =>
    obtain ⟨c, shared, c', spawned, hc, hnext, rfl⟩ := Tasks.Program.step_task hstep
    obtain ⟨rfl, hmove⟩ := h.move hc hnext
    have hcount := Tasks.Program.countP_after hc Call.told c' []
    rw [List.countP_nil] at hcount
    dsimp only
    rcases hmove.room_le with hle | ⟨rows, hreply, hcreate, rfl, htold, hbots⟩
    · omega
    · obtain rfl := next_reply hnext hreply
      obtain ⟨habandoned, hothers⟩ := hok hcreate
      have hunserved : s.tasks.countP Call.unserved = 0 := List.countP_eq_zero.2 fun d hd => by simp [(hothers d hd).2]
      have hnone : s.tasks.countP Call.told = 0 := List.countP_eq_zero.2 fun d hd => by simp [(hothers d hd).1]
      -- the list has no Bot Chat, so the gateway holds none
      have hempty : s.shared.bots = [] := by
        refine List.eq_nil_iff_forall_not_mem.2 fun row hrow => ?_
        have hmem := List.mem_filter.2 ⟨hbots row hrow, (List.mem_filter.1 hrow).2⟩
        rw [resolveBotChat_create.1 hcreate] at hmem
        cases hmem
      have hbooks := h.count
      rw [hempty, habandoned, hunserved] at hbooks
      have hcreates : s.shared.creates = 0 := by simpa using hbooks
      have hone := Bool.toNat_le c'.told
      omega
  | env e =>
    obtain ⟨shared, henv, rfl⟩ := Tasks.Program.step_env hstep
    rw [(Event.next_spec henv).1]
    exact hroom

theorem Books.step (h : Books s) (hok : Serial s l) (hstep : (program profile).step s l = some s') : Books s' where
  flow := by
    refine Tasks.Program.forall_step (P := fun _ c => inFlow c.point = true) hstep h.flow ?_ ?_ ?_
    · intro c _ hentry
      obtain ⟨cols, rfl⟩ := Call.entry_flow hentry
      rfl
    · intro i input c shared c' spawned _ hc hnext
      obtain ⟨rfl, hmove⟩ := h.move hc hnext
      exact ⟨hmove.inFlow, List.forall_mem_nil _, fun _ hflow => hflow⟩
    · exact fun _ _ _ _ _ hflow => hflow
  holds := by
    refine Tasks.Program.forall_step (P := fun s c => ∀ id, c.holds = some id → (botChatTitle, id) ∈ s.bots) hstep
      h.holds ?_ ?_ ?_
    · intro c _ hentry id hid
      obtain ⟨cols, rfl⟩ := Call.entry_flow hentry
      cases hid
    · intro i input c shared c' spawned _ hc hnext
      obtain ⟨rfl, hmove⟩ := h.move hc hnext
      refine ⟨hmove.holds_bots (h.holds c (List.mem_of_getElem? hc)), List.forall_mem_nil _, ?_⟩
      exact fun d hd id hid => hmove.bots_mono _ (hd id hid)
    · exact fun e shared _ henv c hc id hid => (Event.next_spec henv).2.1 _ (hc id hid)
  count := by
    refine Tasks.Program.balance_step (f := fun s : Shared => (s.creates : Int) - s.abandoned - s.bots.length) hstep
      h.count ?_ ?_ ?_
    · intro c hentry
      obtain ⟨cols, rfl⟩ := Call.entry_flow hentry
      rfl
    · intro i input c shared c' spawned _ hc hnext
      obtain ⟨rfl, hmove⟩ := h.move hc hnext
      rw [List.countP_nil]
      exact hmove.count_eq.trans (Int.add_zero _).symm
    · exact fun e shared henv => (Event.next_spec henv).2.2
  room := room_step h hok hstep

end

/-- A gateway with these sessions, before the first call. -/
def start (core : Operations.Shared) (sessions : List (String × String)) : System := ⟨{ core, sessions }, []⟩

/-- Where no list without the Bot Chat is served to a call while the create of another one is open, there is one
chat. -/
theorem one_chat [Serializer] (profile : String) (core : Operations.Shared) (sessions : List (String × String))
    (labels : List Label) (s : System) (hnone : resolveBotChat sessions = .create)
    (hserial : Meets (program profile).step Serial (start core sessions) labels)
    (hrun : exec (program profile).step (start core sessions) labels = some s) : OneChat s := by
  have hstart : Books (start core sessions) := by
    have hbots : (start core sessions).shared.bots = [] := resolveBotChat_create.1 hnone
    refine ⟨List.forall_mem_nil _, List.forall_mem_nil _, ?_, Nat.zero_le _⟩
    rw [hbots]
    rfl
  exact (exec_invariant _ (fun _ _ _ h hok hstep => h.step hok hstep) hstart hserial hrun).oneChat

section

attribute [local instance] Serializer.compact

/-- A connected core, and a gateway that holds an ordinary session. -/
private def connected : System := start { client := true, store := { core := {}, file := none } } [("Notes", "n1")]

private def tap : Label := .start ⟨.call (.openBotChat "ops" 80), none⟩

private def minted (id : String) : Reply := .created ⟨id ++ "-live", id, "ops"⟩

/-- One call from its start to its end, served an empty list, and one that finds the chat it has created. -/
private def oneByOne : List Label :=
  [tap, .task 0 .go, .task 0 (.serve (.list [])), .task 0 (.arrive true), .task 0 .go, .task 0 (.serve (minted "b1")),
    .task 0 (.arrive true), tap, .task 1 .go, .task 1 (.serve (.list [("Bot Chat", "b1")])), .task 1 (.arrive true),
    .task 1 .go, .task 1 (.serve (.resumed ⟨"b1-live", [], "ops"⟩)), .task 1 (.arrive true)]

theorem one_chat_one_by_one :
    ∃ s, exec (program "ops").step connected oneByOne = some s ∧ s.shared.creates = 1 ∧ OneChat s := by
  refine ⟨_, rfl, rfl, one_chat "ops" connected.shared.core [("Notes", "n1")] oneByOne _ (by decide) ?_ rfl⟩
  refine .cons _ rfl trivial (.cons _ rfl trivial (.cons _ rfl ?_ (.cons _ rfl trivial (.cons _ rfl trivial
    (.cons _ rfl trivial (.cons _ rfl trivial (.cons _ rfl trivial (.cons _ rfl trivial (.cons _ rfl ?_
    (.cons _ rfl trivial (.cons _ rfl trivial (.cons _ rfl trivial (.cons _ rfl trivial trivial)))))))))))))
  · intro _
    refine ⟨rfl, ?_⟩
    intro c hc
    obtain rfl := List.mem_singleton.1 hc
    exact ⟨rfl, rfl⟩
  · exact fun hcreate => absurd hcreate (by decide)

/-- Two calls, both served before either creates the chat. -/
private def sideBySide : List Label :=
  [tap, tap, .task 0 .go, .task 1 .go, .task 0 (.serve (.list [])), .task 1 (.serve (.list [])), .task 0 (.arrive true),
    .task 1 (.arrive true), .task 0 .go, .task 1 .go, .task 0 (.serve (minted "b1")), .task 1 (.serve (minted "b2")),
    .task 0 (.arrive true), .task 1 (.arrive true)]

/-- Both create one, and return different keys. -/
theorem two_chats :
    ∃ s, resolveBotChat connected.shared.sessions = .create ∧
      exec (program "ops").step connected sideBySide = some s ∧ s.shared.creates = 2 ∧
        (∃ c ∈ s.tasks, c.point = .returned (.ok (.key "b1"))) ∧
        (∃ c ∈ s.tasks, c.point = .returned (.ok (.key "b2"))) ∧ ¬ OneChat s := by
  refine ⟨_, by decide, rfl, rfl, ⟨_, .head _, rfl⟩, ⟨_, .tail _ (.head _), rfl⟩, ?_⟩
  rintro ⟨hcreates, -⟩
  exact absurd (Nat.le_of_succ_le_succ hcreates) (Nat.not_succ_le_zero 0)

end

end Hermo.BotChat
