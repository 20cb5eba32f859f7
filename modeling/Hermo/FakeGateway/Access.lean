import Hermo.JsonText
import Hermo.FakeGateway.Sessions

/-!
# Tickets and planned faults

What the fake gateway hands out once: a ticket is minted for a request with the session cookie and opens one
connection, the planned drop hits one connection, and as many requests for the profiles fail as were planned.
-/

namespace Hermo.FakeGateway

open OrderedMap (put lookup_put)
open Run (exec)
open Tasks.Program (Distinct)

/-- The number of the ticket a request gets. -/
def Task.number : Task → Option Nat
  | .minting _ number | .minted _ number => some number
  | _ => none

/-- The ticket a connection was opened with. -/
def Task.opened : Task → Option String
  | .greeting ticket _ | .dropped ticket _ | .gone ticket => some ticket
  | .connection c => some c.ticket
  | _ => none

theorem ticketText_inj {m n : Nat} : ticketText m = ticketText n ↔ m = n := by
  refine ⟨fun h => ?_, fun h => h ▸ rfl⟩
  have hrepr := (String.append_right_inj _).1 h
  have hread (n : Nat) : parseNat ((toString n).toList ++ []) = some (n, []) := parseNat_repr n nofun
  have hm := hread m
  rw [hrepr, hread n] at hm
  cases hm
  rfl

/-! ### What the handlers leave alone -/

/-- The tickets, the planned faults and the configuration are the same. -/
structure SameAccess (s s' : GatewayState) : Prop where
  config : s'.config = s.config
  tickets : s'.tickets = s.tickets
  nextTicket : s'.nextTicket = s.nextTicket
  profileFailuresLeft : s'.profileFailuresLeft = s.profileFailuresLeft
  dropArmed : s'.dropArmed = s.dropArmed

theorem SameAccess.rfl {s : GatewayState} : SameAccess s s := ⟨Eq.refl _, Eq.refl _, Eq.refl _, Eq.refl _, Eq.refl _⟩

theorem SameAccess.trans {s s' s'' : GatewayState} (h : SameAccess s s') (h' : SameAccess s' s'') :
    SameAccess s s'' :=
  ⟨h'.config.trans h.config, h'.tickets.trans h.tickets, h'.nextTicket.trans h.nextTicket,
    h'.profileFailuresLeft.trans h.profileFailuresLeft, h'.dropArmed.trans h.dropArmed⟩

namespace GatewayState

theorem sameAccess_setRecord (s : GatewayState) (key : String) (record : SessionRecord) :
    SameAccess s (s.setRecord key record) := ⟨rfl, rfl, rfl, rfl, rfl⟩

theorem sameAccess_send (s : GatewayState) (channel : Nat) (line : Value) : SameAccess s (s.send channel line) := by
  unfold send
  split
  · exact ⟨rfl, rfl, rfl, rfl, rfl⟩
  · exact .rfl

theorem sameAccess_entry (s : GatewayState) (key now : String) : SameAccess s (s.entry key now).1 := by
  unfold entry
  split
  · exact .rfl
  · exact ⟨rfl, rfl, rfl, rfl, rfl⟩

theorem sameAccess_handleRpcLine [JsonReader] (s : GatewayState) (channel : Nat) (now : String) (keys : List String)
    (line : String) : SameAccess s (s.handleRpcLine channel now keys line).1 := by
  unfold handleRpcLine
  cases fromStr line with
  | none => exact .rfl
  | some value =>
    dsimp only
    generalize (value.get "params").getD .null = params
    cases Method.parse (value.strAt "method") with
    | sessionCreate => exact ⟨rfl, rfl, rfl, rfl, rfl⟩
    | sessionList => exact sameAccess_send _ _ _
    | sessionMostRecent => exact sameAccess_send _ _ _
    | sessionResume => exact (sameAccess_entry _ _ _).trans (sameAccess_send _ _ _)
    | sessionEventsSince => exact sameAccess_send _ _ _
    | sessionTitle => exact (sameAccess_entry _ _ _).trans (sameAccess_setRecord _ _ _)
    | sessionClose =>
      dsimp only
      unfold handleSessionClose
      dsimp only
      split
      · exact ⟨rfl, rfl, rfl, rfl, rfl⟩
      · exact .rfl
    | sessionInterrupt =>
      dsimp only
      unfold handleSessionInterrupt
      dsimp only
      split
      · split
        · exact ⟨rfl, rfl, rfl, rfl, rfl⟩
        · exact .rfl
      · exact .rfl
    | promptSubmit =>
      dsimp only
      unfold handlePromptSubmit
      dsimp only
      split
      · exact sameAccess_entry _ _ _
      · exact (sameAccess_entry _ _ _).trans (sameAccess_setRecord _ _ _)
    | _ => exact .rfl

/-- A handler spawns turns and delayed frames. -/
theorem spawned_runJob [Lowercase] {s s' : GatewayState} {channel : Nat} {now : String} {job job' : Job}
    {spawned : List Task} (h : s.runJob channel now job = some (s', job', spawned)) :
    SameAccess s s' ∧ ∀ u ∈ spawned, (∃ t, u = .turn t) ∨ ∃ channel frame, u = .delayed channel frame := by
  unfold runJob at h
  split at h
  · cases h
  · cases h
    exact ⟨sameAccess_send _ _ _, nofun⟩
  · cases h
    exact ⟨⟨rfl, rfl, rfl, rfl, rfl⟩, nofun⟩
  · cases h
    exact ⟨sameAccess_setRecord _ _ _, nofun⟩
  · cases h
    exact ⟨sameAccess_send _ _ _, nofun⟩
  · dsimp only at h
    split at h
    · cases h
      exact ⟨.rfl, nofun⟩
    · rename_i hpush
      cases h
      obtain ⟨record, -, rfl, -⟩ := nextSeqAndRecord_eq hpush
      refine ⟨sameAccess_setRecord _ _ _, fun u hu => .inr ?_⟩
      exact ⟨_, _, List.mem_singleton.1 hu⟩
  · cases h
    refine ⟨(sameAccess_send _ _ _).trans ⟨rfl, rfl, rfl, rfl, rfl⟩, fun u hu => .inl ?_⟩
    exact ⟨_, List.mem_singleton.1 hu⟩
  · split at h
    · cases h
      exact ⟨sameAccess_setRecord _ _ _, nofun⟩
    · cases h
      exact ⟨.rfl, nofun⟩

/-- A turn stays a turn or ends. -/
theorem nextTurnStep_access (s : GatewayState) (t : Turn) :
    SameAccess s (s.nextTurnStep t).1 ∧ ((s.nextTurnStep t).2 = .ended ∨ ∃ t', (s.nextTurnStep t).2 = .turn t') := by
  unfold nextTurnStep
  split
  · split
    · exact ⟨.rfl, .inl rfl⟩
    · split <;> exact ⟨.rfl, .inr ⟨_, rfl⟩⟩
  · split
    · exact ⟨.rfl, .inl rfl⟩
    · rename_i hpush
      obtain ⟨record, -, rfl, -⟩ := nextSeqAndRecord_eq hpush
      exact ⟨sameAccess_setRecord _ _ _, .inr ⟨_, rfl⟩⟩
  · exact ⟨sameAccess_send _ _ _, .inr ⟨_, rfl⟩⟩
  · split
    · exact ⟨sameAccess_setRecord _ _ _, .inl rfl⟩
    · exact ⟨.rfl, .inl rfl⟩

/-- What follows a line that was sent: the connection goes on, is gone, or the drop fires. -/
theorem sendOut_cases (s : GatewayState) (c : Connection) (line : Value) (delivered : Bool) :
    (SameAccess s (s.sendOut c line delivered).1 ∧
      ((s.sendOut c line delivered).2 = .connection c ∨ (s.sendOut c line delivered).2 = .gone c.ticket)) ∨
      (s.dropArmed = true ∧ SameAccess { s with dropArmed := false } (s.sendOut c line delivered).1 ∧
        (s.sendOut c line delivered).2 = .dropped c.ticket c.sent ∧
        ∃ n, s.config.dropAfter = some n ∧ n ≤ c.sent) := by
  unfold sendOut
  split
  · rcases shouldDrop_eq { s with wire := s.wire ++ [(c.channel, line)] } c.sent with heq | ⟨heq, harmed, hplanned⟩
    · rw [heq]
      exact .inl ⟨⟨rfl, rfl, rfl, rfl, rfl⟩, .inl rfl⟩
    · rw [heq]
      exact .inr ⟨harmed, ⟨rfl, rfl, rfl, rfl, rfl⟩, rfl, hplanned⟩
  · exact .inl ⟨⟨rfl, rfl, rfl, rfl, rfl⟩, .inr rfl⟩

end GatewayState

/-! ### Tickets -/

def HttpRequest.route (request : HttpRequest) : Route := Route.parse request.method request.path

/-- What a step does to the tickets. -/
inductive TicketMove (s s' : GatewayState) : Task → Task → Prop where
  | other (t t' : Task) (htickets : s'.tickets = s.tickets) (hnext : s'.nextTicket = s.nextTicket)
    (hnumber : t.number = none) (hnumber' : t'.number = none) (hopened : t'.opened = t.opened) : TicketMove s s' t t'
  | drawn (request : HttpRequest) (hcookie : request.hasSessionCookie = true) (hroute : request.route = .wsTicket)
    (htickets : s'.tickets = s.tickets) (hnext : s'.nextTicket = s.nextTicket + 1) :
    TicketMove s s' (.http request) (.minting request s.nextTicket)
  | kept (request : HttpRequest) (number : Nat) (htickets : s'.tickets = put (ticketText number) true s.tickets)
    (hnext : s'.nextTicket = s.nextTicket) : TicketMove s s' (.minting request number) (.minted request number)
  | spent (query : Option String) (ticket : String) (channel : Nat) (hticket : s.tickets.lookup ticket = some true)
    (htickets : s'.tickets = put ticket false s.tickets) (hnext : s'.nextTicket = s.nextTicket) :
    TicketMove s s' (.upgrade query) (.greeting ticket channel)

theorem TicketMove.of_access {s s' : GatewayState} {t t' : Task} (h : SameAccess s s') (hnumber : t.number = none)
    (hnumber' : t'.number = none) (hopened : t'.opened = t.opened) : TicketMove s s' t t' :=
  .other t t' h.tickets h.nextTicket hnumber hnumber' hopened

/-- A request is answered, or its ticket is numbered. -/
theorem routeHttp_cases [JsonReader] (s : GatewayState) (request : HttpRequest) :
    (request.route = .wsTicket ∧ request.hasSessionCookie = true ∧
      s.routeHttp request = ({ s with nextTicket := s.nextTicket + 1 }, .minting request s.nextTicket)) ∨
      (request.route = .profiles ∧ s.profileFailuresLeft ≠ 0 ∧
        s.routeHttp request = ({ s with profileFailuresLeft := s.profileFailuresLeft - 1 },
          .answered request { status := 500, body := detail "profiles unavailable" })) ∨
      ((request.route = .profiles → s.profileFailuresLeft = 0) ∧
        ∃ response : HttpResponse, response.status ≠ 500 ∧ s.routeHttp request = (s, .answered request response)) := by
  unfold GatewayState.routeHttp HttpRequest.route
  cases hroute : Route.parse request.method request.path with
  | status => exact .inr (.inr ⟨nofun, _, by decide, rfl⟩)
  | passwordLogin =>
    refine .inr (.inr ⟨nofun, _, ?_, rfl⟩)
    unfold login
    dsimp only
    split
    · decide
    · split <;> decide
  | wsTicket =>
    by_cases hcookie : request.hasSessionCookie = true
    · dsimp only
      rw [if_pos hcookie]
      exact .inl ⟨rfl, hcookie, rfl⟩
    · dsimp only
      rw [if_neg hcookie]
      exact .inr (.inr ⟨nofun, _, by decide, rfl⟩)
  | me =>
    dsimp only
    split
    · exact .inr (.inr ⟨nofun, _, by simp, rfl⟩)
    · exact .inr (.inr ⟨nofun, _, by decide, rfl⟩)
  | logout => exact .inr (.inr ⟨nofun, _, by decide, rfl⟩)
  | profiles =>
    dsimp only
    unfold GatewayState.takeProfileFailure
    by_cases hleft : s.profileFailuresLeft = 0
    · rw [if_pos hleft]
      dsimp only
      rw [if_neg (by simp)]
      split
      · exact .inr (.inr ⟨fun _ => hleft, _, by decide, rfl⟩)
      · exact .inr (.inr ⟨fun _ => hleft, _, by decide, rfl⟩)
    · rw [if_neg hleft]
      exact .inr (.inl ⟨rfl, hleft, rfl⟩)
  | unknown => exact .inr (.inr ⟨nofun, _, by decide, rfl⟩)

namespace GatewayState

theorem ticketMove_sendOut {s s₀ : GatewayState} (h : SameAccess s s₀) (t : Task) (c : Connection) (line : Value)
    (delivered : Bool) (hnumber : t.number = none) (hopened : t.opened = some c.ticket) :
    TicketMove s (s₀.sendOut c line delivered).1 t (s₀.sendOut c line delivered).2 := by
  rcases s₀.sendOut_cases c line delivered with ⟨haccess, heq | heq⟩ | ⟨-, haccess, heq, -⟩ <;> rw [heq]
  · exact .of_access (h.trans haccess) hnumber rfl hopened.symm
  · exact .of_access (h.trans haccess) hnumber rfl hopened.symm
  · exact .other _ _ (haccess.tickets.trans h.tickets) (haccess.nextTicket.trans h.nextTicket) hnumber rfl hopened.symm

variable [JsonReader] [Lowercase]

theorem Next.ticketMove {s s' : GatewayState} {t t' : Task} {spawned : List Task} (h : Next s t s' t' spawned) :
    TicketMove s s' t t' ∧ ∀ u ∈ spawned, u.number = none ∧ u.opened = none := by
  cases h with
  | http request =>
    refine ⟨?_, nofun⟩
    rcases routeHttp_cases s request with ⟨hroute, hcookie, heq⟩ | ⟨-, -, heq⟩ | ⟨-, response, -, heq⟩ <;> rw [heq]
    · exact .drawn request hcookie hroute rfl rfl
    · exact .other _ _ rfl rfl rfl rfl rfl
    · exact .other _ _ rfl rfl rfl rfl rfl
  | minting request number => exact ⟨.kept request number rfl rfl, nofun⟩
  | upgrade query =>
    refine ⟨?_, nofun⟩
    rcases s.acceptWs_eq query with heq | ⟨ticket, -, hticket, heq⟩ <;> rw [heq]
    · exact .other _ _ rfl rfl rfl rfl rfl
    · exact .spent query ticket _ hticket rfl rfl
  | greeting ticket channel delivered => exact ⟨ticketMove_sendOut .rfl _ _ _ _ rfl rfl, nofun⟩
  | handle c now keys hjob hlines hkeys =>
    exact ⟨.of_access (sameAccess_handleRpcLine _ _ _ _ _) rfl rfl rfl, nofun⟩
  | job c hrun =>
    obtain ⟨haccess, hspawned⟩ := spawned_runJob hrun
    refine ⟨.of_access haccess rfl rfl rfl, fun u hu => ?_⟩
    rcases hspawned u hu with ⟨t, rfl⟩ | ⟨channel, frame, rfl⟩ <;> exact ⟨rfl, rfl⟩
  | outgoing c delivered hjob hlines hchannel =>
    refine ⟨ticketMove_sendOut ?_ (.connection c) { c with sent := c.sent + 1 } _ delivered rfl rfl, nofun⟩
    exact ⟨rfl, rfl, rfl, rfl, rfl⟩
  | text c frame hjob hlines => exact ⟨.of_access .rfl rfl rfl rfl, nofun⟩
  | close c hjob hlines => exact ⟨.other _ _ rfl rfl rfl rfl rfl, nofun⟩
  | turn t =>
    obtain ⟨haccess, heq | ⟨t', heq⟩⟩ := nextTurnStep_access s t <;> rw [heq]
    · exact ⟨.of_access haccess rfl rfl rfl, nofun⟩
    · exact ⟨.of_access haccess rfl rfl rfl, nofun⟩
  | delayed channel frame => exact ⟨.of_access (sameAccess_send _ _ _) rfl rfl rfl, nofun⟩

end GatewayState

/-- A ticket is numbered once, kept for a request with the cookie, and spent by one connection. -/
structure Ticketed (g : Gateway) : Prop where
  numbers : Distinct Task.number GatewayState.nextTicket g
  gated : ∀ t ∈ g.tasks, ∀ request number, t = .minting request number ∨ t = .minted request number →
    request.hasSessionCookie = true ∧ request.route = .wsTicket
  kept : ∀ ticket unspent, g.shared.tickets.lookup ticket = some unspent →
    ∃ t ∈ g.tasks, ∃ request number, t = .minted request number ∧ ticketText number = ticket
  spent : ∀ t ∈ g.tasks, ∀ ticket, t.opened = some ticket → g.shared.tickets.lookup ticket = some false
  once : ∀ (i j : Nat) t u ticket, g.tasks[i]? = some t → g.tasks[j]? = some u → t.opened = some ticket →
    u.opened = some ticket → i = j

theorem ticketed_start (config : Config) (fixtures : Fixtures) : Ticketed (start config fixtures) := by
  refine ⟨⟨?_, ?_⟩, ?_, ?_, ?_, ?_⟩
  · intro i t n hi
    cases hi
  · intro i j t u n hi
    cases hi
  · intro t ht
    cases ht
  · intro ticket unspent hticket
    cases hticket
  · intro t ht
    cases ht
  · intro i j t u ticket hi
    cases hi

/-- A step of a task. -/
private theorem ticketed_task {g : Gateway} (h : Ticketed g) {i : Nat} {t t' : Task} {s : GatewayState}
    {spawned : List Task} (ht : g.tasks[i]? = some t) (hmove : TicketMove g.shared s t t')
    (hspawned : ∀ u ∈ spawned, u.number = none ∧ u.opened = none)
    (hnumbers : Distinct Task.number GatewayState.nextTicket ⟨s, g.tasks.set i t' ++ spawned⟩) :
    Ticketed ⟨s, g.tasks.set i t' ++ spawned⟩ := by
  have hmem : t ∈ g.tasks := List.mem_of_getElem? ht
  -- a connection after the step was there before it, unless the step opened it
  have hopened {j : Nat} {u : Task} {ticket : String} (hj : (g.tasks.set i t' ++ spawned)[j]? = some u)
      (hu : u.opened = some ticket) :
      (∃ v, g.tasks[j]? = some v ∧ v.opened = some ticket) ∨ (j = i ∧ u = t' ∧ t.opened = none) := by
    rcases Tasks.Program.lookup_after hj with ⟨rfl, rfl⟩ | ⟨-, hold⟩ | hnew
    · cases hmove with
      | other t t' htickets hcounter hnumber hnumber' hopened => exact .inl ⟨t, ht, hopened ▸ hu⟩
      | spent query ticket' channel hticket htickets hcounter => exact .inr ⟨rfl, rfl, rfl⟩
      | drawn => cases hu
      | kept => cases hu
    · exact .inl ⟨u, hold, hu⟩
    · rw [(hspawned u hnew).2] at hu
      cases hu
  have hfresh {u : Task} {ticket : String} (hu : u.opened = some ticket) (heq : u = t') (hnone : t.opened = none) :
      g.shared.tickets.lookup ticket = some true ∧ s.tickets = put ticket false g.shared.tickets := by
    subst heq
    cases hmove with
    | other t t' htickets hcounter hnumber hnumber' hopened => cases hnone.symm.trans (hopened.symm.trans hu)
    | spent query ticket' channel hticket htickets hcounter =>
      cases hu
      exact ⟨hticket, htickets⟩
    | drawn => cases hu
    | kept => cases hu
  have hminted {ticket : String} (hold : ∃ u ∈ g.tasks, ∃ request number, u = .minted request number ∧
      ticketText number = ticket) :
      ∃ u ∈ g.tasks.set i t' ++ spawned, ∃ request number, u = .minted request number ∧ ticketText number = ticket := by
    refine Tasks.Program.exists_after ht hold ?_ t' spawned
    rintro ⟨request, number, rfl, -⟩
    cases hmove with
    | other t t' htickets hcounter hnumber => cases hnumber
  refine ⟨hnumbers, ?_, ?_, ?_, ?_⟩
  · intro u hu request number heq
    rcases Tasks.Program.mem_after hu with rfl | hu | ⟨j, -, hj⟩
    · cases hmove with
      | other t t' htickets hcounter hnumber hnumber' => rcases heq with rfl | rfl <;> cases hnumber'
      | drawn request' hcookie hroute =>
        rcases heq with heq | heq <;> cases heq
        exact ⟨hcookie, hroute⟩
      | kept request' number' =>
        rcases heq with heq | heq <;> cases heq
        exact h.gated _ hmem request number (.inl rfl)
      | spent => rcases heq with heq | heq <;> cases heq
    · have hnone := (hspawned u hu).1
      rcases heq with rfl | rfl <;> cases hnone
    · exact h.gated u (List.mem_of_getElem? hj) request number heq
  · intro ticket unspent hticket
    dsimp only at hticket
    cases hmove with
    | other t t' htickets => exact hminted (h.kept ticket unspent (htickets ▸ hticket))
    | drawn request hcookie hroute htickets => exact hminted (h.kept ticket unspent (htickets ▸ hticket))
    | kept request number htickets =>
      rw [htickets, lookup_put] at hticket
      split at hticket
      · rename_i heq
        exact ⟨_, Tasks.Program.stepped_mem ht spawned, request, number, rfl, heq.symm⟩
      · exact hminted (h.kept ticket unspent hticket)
    | spent query ticket' channel htrue htickets =>
      rw [htickets, lookup_put] at hticket
      split at hticket
      · rename_i heq
        exact hminted (h.kept ticket true (heq ▸ htrue))
      · exact hminted (h.kept ticket unspent hticket)
  · intro u hu ticket hticket
    obtain ⟨j, hj⟩ := List.mem_iff_getElem?.1 hu
    dsimp only
    rcases hopened hj hticket with ⟨v, hv, hvticket⟩ | ⟨-, heq, hnone⟩
    · have hfalse := h.spent v (List.mem_of_getElem? hv) ticket hvticket
      cases hmove with
      | other t t' htickets => exact htickets ▸ hfalse
      | drawn request hcookie hroute htickets => exact htickets ▸ hfalse
      | kept request number htickets =>
        rw [htickets, lookup_put]
        split
        · -- the ticket that is kept is new
          rename_i heq
          obtain ⟨w, hw, request', number', rfl, htext⟩ := h.kept ticket false hfalse
          obtain ⟨k, hk⟩ := List.mem_iff_getElem?.1 hw
          cases ticketText_inj.1 (htext.trans heq)
          have hsame := h.numbers.unique k i _ _ number hk ht rfl rfl
          rw [hsame, ht] at hk
          cases hk
        · exact hfalse
      | spent query ticket' channel htrue htickets =>
        rw [htickets, lookup_put]
        split
        · rfl
        · exact hfalse
    · rw [(hfresh hticket heq hnone).2, lookup_put, if_pos rfl]
  · intro j k u v ticket hj hk hu hv
    rcases hopened hj hu with ⟨u', hj', hu'⟩ | ⟨rfl, heq, hnone⟩ <;>
      rcases hopened hk hv with ⟨v', hk', hv'⟩ | ⟨rfl, heq', hnone'⟩
    · exact h.once j k u' v' ticket hj' hk' hu' hv'
    · have hfalse := h.spent u' (List.mem_of_getElem? hj') ticket hu'
      rw [(hfresh hv heq' hnone').1] at hfalse
      cases hfalse
    · have hfalse := h.spent v' (List.mem_of_getElem? hk') ticket hv'
      rw [(hfresh hu heq hnone).1] at hfalse
      cases hfalse
    · rfl

section

variable [JsonReader] [Lowercase]

/-- A request or a handshake comes in. -/
private theorem ticketed_entry {g : Gateway} (h : Ticketed g) {t : Task} (hentry : program.entry g.shared t)
    (hnumbers : Distinct Task.number GatewayState.nextTicket ⟨g.shared, g.tasks ++ [t]⟩) :
    Ticketed ⟨g.shared, g.tasks ++ [t]⟩ := by
  have hopened : t.opened = none := by
    rcases entry_cases hentry with ⟨request, rfl⟩ | ⟨query, rfl⟩ <;> rfl
  have hnumber : t.number = none := by
    rcases entry_cases hentry with ⟨request, rfl⟩ | ⟨query, rfl⟩ <;> rfl
  have hold {i : Nat} {u : Task} {ticket : String} (hi : (g.tasks ++ [t])[i]? = some u)
      (hu : u.opened = some ticket) : g.tasks[i]? = some u := by
    by_cases hlt : i < g.tasks.length
    · rwa [List.getElem?_append_left hlt] at hi
    · rw [List.getElem?_append_right (Nat.le_of_not_lt hlt)] at hi
      rw [List.mem_singleton.1 (List.mem_of_getElem? hi), hopened] at hu
      cases hu
  refine ⟨hnumbers, ?_, ?_, ?_, ?_⟩
  · intro u hu request number heq
    rcases List.mem_append.1 hu with hu | hu
    · exact h.gated u hu request number heq
    · rw [List.mem_singleton.1 hu] at heq
      rcases heq with rfl | rfl <;> cases hnumber
  · intro ticket unspent hticket
    obtain ⟨u, hu, hminted⟩ := h.kept ticket unspent hticket
    exact ⟨u, List.mem_append_left _ hu, hminted⟩
  · intro u hu ticket hticket
    rcases List.mem_append.1 hu with hu | hu
    · exact h.spent u hu ticket hticket
    · rw [List.mem_singleton.1 hu, hopened] at hticket
      cases hticket
  · intro i j u v ticket hi hj hu hv
    exact h.once i j u v ticket (hold hi hu) (hold hj hv) hu hv

theorem ticketed_step {g g' : Gateway} {l : Move} (h : Ticketed g) (hstep : program.step g l = some g') :
    Ticketed g' := by
  have hnumbers : Distinct Task.number GatewayState.nextTicket g' := by
    refine Tasks.Program.distinct_step hstep h.numbers ?_ ?_ (fun e => e.elim)
    · intro t hentry
      rcases entry_cases hentry with ⟨request, rfl⟩ | ⟨query, rfl⟩ <;> rfl
    · intro input t s t' spawned hnext
      obtain ⟨hmove, hspawned⟩ := (GatewayState.next_cases hnext).ticketMove
      clear hnext
      cases hmove with
      | other t t' htickets hcounter hnumber hnumber' hopened =>
        refine ⟨Nat.le_of_eq hcounter.symm, fun u hu => (hspawned u hu).1, fun n hn => ?_⟩
        rw [hnumber'] at hn
        cases hn
      | drawn request hcookie hroute htickets hcounter =>
        refine ⟨by omega, fun u hu => (hspawned u hu).1, fun n hn => .inr ?_⟩
        cases hn
        exact ⟨rfl, by omega⟩
      | kept request number htickets hcounter =>
        exact ⟨Nat.le_of_eq hcounter.symm, fun u hu => (hspawned u hu).1, fun n hn => .inl hn⟩
      | spent query ticket channel hticket htickets hcounter =>
        exact ⟨Nat.le_of_eq hcounter.symm, fun u hu => (hspawned u hu).1, nofun⟩
  rcases step_cases hstep with ⟨t, -, hentry, rfl⟩ | ⟨i, input, t, s, t', spawned, -, ht, hnext, rfl⟩
  · exact ticketed_entry h hentry hnumbers
  · exact ticketed_task h ht hnext.ticketMove.1 hnext.ticketMove.2 hnumbers

/-- Every connection was opened with a ticket that was minted for one request, which had the session cookie, and no
other connection was opened with it. -/
def OneEach (g : Gateway) : Prop :=
  ∀ (i : Nat) (t : Task) (ticket : String), g.tasks[i]? = some t → t.opened = some ticket →
    (∀ (j : Nat) (u : Task), g.tasks[j]? = some u → u.opened = some ticket → j = i) ∧
      ∃ (k : Nat) (request : HttpRequest) (number : Nat), g.tasks[k]? = some (.minted request number) ∧
        ticketText number = ticket ∧ request.route = .wsTicket ∧ request.hasSessionCookie = true ∧
          ∀ (j : Nat) request' number', g.tasks[j]? = some (.minted request' number') → ticketText number' = ticket →
            j = k

end

/-! ### Planned faults -/

def Task.wasDropped : Task → Bool
  | .dropped _ _ => true
  | _ => false

def Task.hasFailed : Task → Bool
  | .answered _ response => response.status = 500
  | _ => false

/-- What a step does to the planned faults. -/
inductive FaultMove (s s' : GatewayState) (t : Task) : Task → Prop where
  | other (t' : Task) (harmed : s'.dropArmed = s.dropArmed) (hleft : s'.profileFailuresLeft = s.profileFailuresLeft)
    (hdropped : t'.wasDropped = false) (hfailed : t'.hasFailed = false)
    (hfirst : ∀ request response, t' = .answered request response → request.route = .profiles →
      s.profileFailuresLeft = 0) : FaultMove s s' t t'
  | failed (request : HttpRequest) (response : HttpResponse) (harmed : s'.dropArmed = s.dropArmed)
    (hleft : s.profileFailuresLeft = s'.profileFailuresLeft + 1) (hstatus : response.status = 500) :
    FaultMove s s' t (.answered request response)
  | dropped (ticket : String) (sent : Nat) (harmed : s.dropArmed = true) (harmed' : s'.dropArmed = false)
    (hleft : s'.profileFailuresLeft = s.profileFailuresLeft) (hplanned : ∃ n, s.config.dropAfter = some n ∧ n ≤ sent) :
    FaultMove s s' t (.dropped ticket sent)

/-- A task that goes on. -/
structure Goes (s s' : GatewayState) (t t' : Task) : Prop where
  config : s'.config = s.config
  dropped : t.wasDropped = false
  failed : t.hasFailed = false
  move : FaultMove s s' t t'

theorem Goes.of_access {s s' : GatewayState} {t t' : Task} (h : SameAccess s s') (hdropped : t.wasDropped = false)
    (hfailed : t.hasFailed = false) (hdropped' : t'.wasDropped = false) (hfailed' : t'.hasFailed = false)
    (hanswered : ∀ request response, t' ≠ .answered request response) : Goes s s' t t' :=
  ⟨h.config, hdropped, hfailed, .other t' h.dropArmed h.profileFailuresLeft hdropped' hfailed'
    fun request response heq _ => absurd heq (hanswered request response)⟩

namespace GatewayState

theorem goes_sendOut {s s₀ : GatewayState} (h : SameAccess s s₀) (t : Task) (c : Connection) (line : Value)
    (delivered : Bool) (hdropped : t.wasDropped = false) (hfailed : t.hasFailed = false) :
    Goes s (s₀.sendOut c line delivered).1 t (s₀.sendOut c line delivered).2 := by
  rcases s₀.sendOut_cases c line delivered with ⟨haccess, heq | heq⟩ | ⟨harmed, haccess, heq, hplanned⟩ <;> rw [heq]
  · exact .of_access (h.trans haccess) hdropped hfailed rfl rfl nofun
  · exact .of_access (h.trans haccess) hdropped hfailed rfl rfl nofun
  · refine ⟨haccess.config.trans h.config, hdropped, hfailed, .dropped _ _ ?_ haccess.dropArmed ?_ ?_⟩
    · exact h.dropArmed ▸ harmed
    · exact haccess.profileFailuresLeft.trans h.profileFailuresLeft
    · exact h.config ▸ hplanned

theorem Next.goes [JsonReader] [Lowercase] {s s' : GatewayState} {t t' : Task} {spawned : List Task}
    (h : Next s t s' t' spawned) :
    Goes s s' t t' ∧ ∀ u ∈ spawned, u.wasDropped = false ∧ u.hasFailed = false ∧ ∀ request response,
      u ≠ .answered request response := by
  cases h with
  | http request =>
    refine ⟨?_, nofun⟩
    rcases routeHttp_cases s request with ⟨-, -, heq⟩ | ⟨-, hleft, heq⟩ | ⟨hfirst, response, hstatus, heq⟩ <;> rw [heq]
    · exact ⟨rfl, rfl, rfl, .other _ rfl rfl rfl rfl nofun⟩
    · exact ⟨rfl, rfl, rfl, .failed request _ rfl (by dsimp only; omega) rfl⟩
    · refine ⟨rfl, rfl, rfl, .other _ rfl rfl rfl (decide_eq_false hstatus) ?_⟩
      intro request' response' heq' hroute
      cases heq'
      exact hfirst hroute
  | minting request number => exact ⟨⟨rfl, rfl, rfl, .other _ rfl rfl rfl rfl nofun⟩, nofun⟩
  | upgrade query =>
    refine ⟨?_, nofun⟩
    rcases s.acceptWs_eq query with heq | ⟨ticket, -, hticket, heq⟩ <;> rw [heq]
    · exact .of_access .rfl rfl rfl rfl rfl nofun
    · exact ⟨rfl, rfl, rfl, .other _ rfl rfl rfl rfl nofun⟩
  | greeting ticket channel delivered => exact ⟨goes_sendOut .rfl _ _ _ _ rfl rfl, nofun⟩
  | handle c now keys hjob hlines hkeys =>
    exact ⟨.of_access (sameAccess_handleRpcLine _ _ _ _ _) rfl rfl rfl rfl nofun, nofun⟩
  | job c hrun =>
    obtain ⟨haccess, hspawned⟩ := spawned_runJob hrun
    refine ⟨.of_access haccess rfl rfl rfl rfl nofun, fun u hu => ?_⟩
    rcases hspawned u hu with ⟨t, rfl⟩ | ⟨channel, frame, rfl⟩ <;> exact ⟨rfl, rfl, nofun⟩
  | outgoing c delivered hjob hlines hchannel =>
    refine ⟨goes_sendOut ?_ (.connection c) { c with sent := c.sent + 1 } _ delivered rfl rfl, nofun⟩
    exact ⟨rfl, rfl, rfl, rfl, rfl⟩
  | text c frame hjob hlines => exact ⟨.of_access .rfl rfl rfl rfl rfl nofun, nofun⟩
  | close c hjob hlines => exact ⟨⟨rfl, rfl, rfl, .other _ rfl rfl rfl rfl nofun⟩, nofun⟩
  | turn t =>
    obtain ⟨haccess, heq | ⟨t', heq⟩⟩ := nextTurnStep_access s t <;> rw [heq]
    · exact ⟨.of_access haccess rfl rfl rfl rfl nofun, nofun⟩
    · exact ⟨.of_access haccess rfl rfl rfl rfl nofun, nofun⟩
  | delayed channel frame => exact ⟨.of_access (sameAccess_send _ _ _) rfl rfl rfl rfl nofun, nofun⟩

end GatewayState

/-- The connections that were dropped and the requests that failed are those that were planned. -/
structure FaultsPlanned (config : Config) (g : Gateway) : Prop where
  /-- One drop, behind as many lines as were planned. -/
  drop : g.tasks.countP Task.wasDropped ≤ 1
  planned : ∀ ticket sent, .dropped ticket sent ∈ g.tasks → ∃ n, config.dropAfter = some n ∧ n ≤ sent
  failures : g.tasks.countP Task.hasFailed + g.shared.profileFailuresLeft = config.failProfiles
  /-- No request for the profiles is answered before. -/
  first : ∀ request response, .answered request response ∈ g.tasks → request.route = .profiles →
    response.status ≠ 500 → g.shared.profileFailuresLeft = 0

section

variable [JsonReader] [Lowercase]

/-- The drop is armed until it hits a connection. -/
private theorem drop_step {n : Nat} {g g' : Gateway} {l : Move}
    (h : (n : Int) - g.shared.dropArmed.toNat = g.tasks.countP Task.wasDropped) (hstep : program.step g l = some g') :
    (n : Int) - g'.shared.dropArmed.toNat = g'.tasks.countP Task.wasDropped := by
  refine Tasks.Program.balance_step (f := fun s => (n : Int) - s.dropArmed.toNat) hstep h ?_ ?_ (fun e => e.elim)
  · intro t hentry
    rcases entry_cases hentry with ⟨request, rfl⟩ | ⟨query, rfl⟩ <;> rfl
  · intro i input t s t' spawned _ _ hnext
    obtain ⟨hgoes, hspawned⟩ := (GatewayState.next_cases hnext).goes
    have hnone : spawned.countP Task.wasDropped = 0 :=
      List.countP_eq_zero.2 fun u hu => Bool.eq_false_iff.1 (hspawned u hu).1
    have hmove := hgoes.move
    rw [hnone, hgoes.dropped]
    cases hmove with
    | other t' harmed hleft hdropped => rw [harmed, hdropped]; simp
    | failed request response harmed => rw [harmed]; simp [Task.wasDropped]
    | dropped ticket sent harmed harmed' => rw [harmed, harmed']; simp [Task.wasDropped]

private theorem failures_step {n : Nat} {g g' : Gateway} {l : Move}
    (h : (n : Int) - g.shared.profileFailuresLeft = g.tasks.countP Task.hasFailed)
    (hstep : program.step g l = some g') :
    (n : Int) - g'.shared.profileFailuresLeft = g'.tasks.countP Task.hasFailed := by
  refine Tasks.Program.balance_step (f := fun s => (n : Int) - s.profileFailuresLeft) hstep h ?_ ?_ (fun e => e.elim)
  · intro t hentry
    rcases entry_cases hentry with ⟨request, rfl⟩ | ⟨query, rfl⟩ <;> rfl
  · intro i input t s t' spawned _ _ hnext
    obtain ⟨hgoes, hspawned⟩ := (GatewayState.next_cases hnext).goes
    have hnone : spawned.countP Task.hasFailed = 0 :=
      List.countP_eq_zero.2 fun u hu => Bool.eq_false_iff.1 (hspawned u hu).2.1
    have hmove := hgoes.move
    rw [hnone, hgoes.failed]
    cases hmove with
    | other t' harmed hleft hdropped hfailed => rw [hleft, hfailed]; simp
    | failed request response harmed hleft hstatus => simp [Task.hasFailed, hstatus, hleft]; omega
    | dropped ticket sent harmed harmed' hleft => rw [hleft]; simp [Task.hasFailed]

private theorem planned_step {config : Config} {g g' : Gateway} {l : Move} (hconfig : g.shared.config = config)
    (h : ∀ ticket sent, .dropped ticket sent ∈ g.tasks → ∃ n, config.dropAfter = some n ∧ n ≤ sent)
    (hstep : program.step g l = some g') :
    g'.shared.config = config ∧
      ∀ ticket sent, .dropped ticket sent ∈ g'.tasks → ∃ n, config.dropAfter = some n ∧ n ≤ sent := by
  rcases step_cases hstep with ⟨t, -, hentry, rfl⟩ | ⟨i, input, t, s, t', spawned, -, ht, hnext, rfl⟩
  · refine ⟨hconfig, fun ticket sent hmem => ?_⟩
    rcases List.mem_append.1 hmem with hmem | hmem
    · exact h ticket sent hmem
    · rw [← List.mem_singleton.1 hmem] at hentry
      cases hentry
  · obtain ⟨hgoes, hspawned⟩ := hnext.goes
    refine ⟨hgoes.config.trans hconfig, fun ticket sent hmem => ?_⟩
    rcases Tasks.Program.mem_after hmem with rfl | hmem | ⟨j, -, hj⟩
    · cases hgoes.move with
      | other t' harmed hleft hdropped => cases hdropped
      | dropped ticket sent harmed harmed' hleft hplanned => exact hconfig ▸ hplanned
    · cases (hspawned _ hmem).1
    · exact h ticket sent (List.mem_of_getElem? hj)

private theorem first_step {g g' : Gateway} {l : Move}
    (h : ∀ request response, .answered request response ∈ g.tasks → request.route = .profiles →
      response.status ≠ 500 → g.shared.profileFailuresLeft = 0) (hstep : program.step g l = some g') :
    ∀ request response, .answered request response ∈ g'.tasks → request.route = .profiles →
      response.status ≠ 500 → g'.shared.profileFailuresLeft = 0 := by
  intro request response hmem hroute hstatus
  rcases step_cases hstep with ⟨t, -, hentry, rfl⟩ | ⟨i, input, t, s, t', spawned, -, ht, hnext, rfl⟩
  · rcases List.mem_append.1 hmem with hmem | hmem
    · exact h request response hmem hroute hstatus
    · rw [← List.mem_singleton.1 hmem] at hentry
      cases hentry
  · obtain ⟨hgoes, hspawned⟩ := hnext.goes
    -- a budget that is spent stays spent
    have hspent (hzero : g.shared.profileFailuresLeft = 0) : s.profileFailuresLeft = 0 := by
      cases hgoes.move with
      | other t' harmed hleft => exact hleft.trans hzero
      | failed request response harmed hleft => omega
      | dropped ticket sent harmed harmed' hleft => exact hleft.trans hzero
    rcases Tasks.Program.mem_after hmem with rfl | hmem | ⟨j, -, hj⟩
    · cases hgoes.move with
      | other t' harmed hleft hdropped hfailed hfirst => exact hspent (hfirst request response rfl hroute)
      | failed request response harmed hleft hfailed => exact absurd hfailed hstatus
    · exact absurd rfl ((hspawned _ hmem).2.2 request response)
    · exact hspent (h request response (List.mem_of_getElem? hj) hroute hstatus)

end

section

attribute [local instance] JsonReader.compact Lowercase.ascii

/-- A request for the profiles that fails, and a connection that is dropped behind its first line. -/
private def faultyRun : List Move :=
  let go : Input := .go "0" []
  [.start (.http ⟨"GET", "/api/profiles", "hermes_session_at=a", ""⟩), .task 0 go,
    .start (.http ⟨"POST", "/api/auth/ws-ticket", "hermes_session_at=a", ""⟩), .task 1 go, .task 1 go,
    .start (.upgrade (some "ticket=fake-ticket-1")), .task 2 go, .task 2 (.sent true),
    .start (.upgrade (some "ticket=fake-ticket-1")), .task 3 go]

private def faultyConfig : Config := ⟨"user", "secret", 1, some 1⟩

private def noFixtures : Fixtures := { scenarios := fun _ => none, ready := .null, sessionInfo := none }

private theorem faultyRun_isSome : (exec program.step (start faultyConfig noFixtures) faultyRun).isSome := by
  decide +kernel

end

end Hermo.FakeGateway
