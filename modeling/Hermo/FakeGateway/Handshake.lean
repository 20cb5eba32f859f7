import Hermo.Auth.Endpoint
import Hermo.FakeGateway.Access

/-!
# The handshake

A ticket goes from the reply of the fake gateway into the query of the socket's address (`mint_ticket` of the client,
`ws_url`), and the gateway reads it there again (`ticket_from_query`).  It opens a connection the first time.
-/

namespace Hermo.FakeGateway

open Auth (UrlCrate Url IsHttp LawfulUrl formPair lawful_plain parse query query_wsUrl wsUrl)
open OrderedMap (lookup_put)
open Run (exec)

/-! ### The two ends -/

/-- What the client takes from the reply on the ticket route. -/
structure WsTicket where
  ticket : String
  ttlSeconds : Int
  deriving DecidableEq

/-- `mint_ticket` of the client, on the body of a reply. -/
def mintTicket (body : Value) : WsTicket := ⟨body.strAt "ticket", body.i64At "ttl_seconds"⟩

/-- A text is read as it was written, except for its blanks: the client writes them as plus signs, which the gateway
leaves. -/
theorem ticketFromQuery_formPair {ticket : String} (h : ' ' ∉ ticket.toList) :
    ticketFromQuery (String.ofList (formPair "ticket" ticket)) = some ticket := by
  have hkey : Percent.formEncode "ticket".toList = "ticket".toList := by decide
  have hone : '&' ∉ formPair "ticket" ticket := by
    unfold formPair
    rw [List.mem_append, List.mem_cons]
    rintro (hmem | hmem | hmem)
    · exact Percent.not_mem_formEncode (.inl rfl) _ hmem
    · cases hmem
    · exact Percent.not_mem_formEncode (.inl rfl) _ hmem
  have hsplit : splitOnce '=' (formPair "ticket" ticket) =
      some ("ticket".toList, Percent.formEncode ticket.toList) := by
    unfold splitOnce formPair
    rw [if_pos (List.mem_append_right _ List.mem_cons_self), hkey]
    rfl
  have htext : (String.ofList (formPair "ticket" ticket)).toList = formPair "ticket" ticket := String.toList_ofList
  unfold ticketFromQuery
  rw [htext, List.splitOn_eq_singleton hone, List.findSome?_singleton, hsplit, Option.bind_some]
  dsimp only
  rw [if_pos rfl, Percent.formEncode_eq_encode h, Percent.decode_encode (by decide), Percent.fromUtf8Lossy_utf8,
    String.ofList_toList]

theorem ticketText_no_blank (number : Nat) : ' ' ∉ (ticketText number).toList := by
  unfold ticketText
  rw [String.toList_append, List.mem_append]
  rintro (hmem | hmem)
  · revert hmem
    decide
  · change ' ' ∈ number.repr.toList at hmem
    rw [Nat.toList_repr] at hmem
    exact absurd (Nat.isDigit_of_mem_toDigits (by decide) (by decide) hmem) (by decide)

/-! ### What a ticket is worth -/

/-- The ticket of an answered request is kept unspent until a connection is opened with it. -/
def Redeemable (g : Gateway) : Prop :=
  ∀ t ∈ g.tasks, ∀ request number, t = .minted request number →
    g.shared.tickets.lookup (ticketText number) = some true ∨ ∃ u ∈ g.tasks, u.opened = some (ticketText number)

private theorem redeemable_task {g : Gateway} (h : Redeemable g) {i : Nat} {t t' : Task} {s : GatewayState}
    {spawned : List Task} (ht : g.tasks[i]? = some t) (hmove : TicketMove g.shared s t t')
    (hspawned : ∀ u ∈ spawned, u.number = none ∧ u.opened = none) :
    Redeemable ⟨s, g.tasks.set i t' ++ spawned⟩ := by
  -- a connection that was opened stays
  have hopened {ticket : String} (hold : ∃ u ∈ g.tasks, u.opened = some ticket) :
      ∃ u ∈ g.tasks.set i t' ++ spawned, u.opened = some ticket := by
    by_cases hticket : t.opened = some ticket
    · refine ⟨t', Tasks.Program.stepped_mem ht spawned, ?_⟩
      cases hmove with
      | other t t' htickets hnext hnumber hnumber' hopened => exact hopened.trans hticket
      | drawn | kept | spent => cases hticket
    · exact Tasks.Program.exists_after ht hold hticket t' spawned
  intro u hu request number heq
  rcases Tasks.Program.mem_after hu with rfl | hu | ⟨j, -, hj⟩
  · subst heq
    cases hmove with
    | other t t' htickets hnext hnumber hnumber' => cases hnumber'
    | kept request number htickets =>
      refine .inl ?_
      dsimp only
      rw [htickets, lookup_put, if_pos rfl]
  · subst heq
    cases (hspawned _ hu).1
  · rcases h u (List.mem_of_getElem? hj) request number heq with hkept | hold
    · dsimp only
      cases hmove with
      | other t t' htickets => exact .inl (htickets ▸ hkept)
      | drawn request' hcookie hroute htickets => exact .inl (htickets ▸ hkept)
      | kept request' number' htickets =>
        rw [htickets, lookup_put]
        split
        · exact .inl rfl
        · exact .inl hkept
      | spent query ticket channel hticket htickets =>
        rw [htickets, lookup_put]
        split
        · rename_i hsame
          exact .inr ⟨_, Tasks.Program.stepped_mem ht spawned, congrArg some hsame.symm⟩
        · exact .inl hkept
    · exact .inr (hopened hold)

section

variable [JsonReader] [Lowercase]

theorem redeemable_step {g g' : Gateway} {l : Move} (h : Redeemable g) (hstep : program.step g l = some g') :
    Redeemable g' := by
  rcases step_cases hstep with ⟨t, -, hentry, rfl⟩ | ⟨i, input, t, s, t', spawned, -, ht, hnext, rfl⟩
  · intro u hu request number heq
    rcases List.mem_append.1 hu with hu | hu
    · refine (h u hu request number heq).imp id ?_
      rintro ⟨v, hv, hopened⟩
      exact ⟨v, List.mem_append_left _ hv, hopened⟩
    · rw [List.mem_singleton.1 hu] at heq
      subst heq
      cases hentry
  · exact redeemable_task h ht hnext.ticketMove.1 hnext.ticketMove.2

end

section

attribute [local instance] UrlCrate.plain lawful_plain JsonReader.compact Lowercase.ascii

/-- Two tickets, and a connection opened with the first. -/
private def twoTickets : List Move :=
  let go : Input := .go "0" []
  let request : HttpRequest := ⟨"POST", "/api/auth/ws-ticket", "hermes_session_at=a", ""⟩
  [.start (.http request), .task 0 go, .task 0 go, .start (.http request), .task 1 go, .task 1 go,
    .start (.upgrade (some "ticket=fake-ticket-1")), .task 2 go]

private def bareFixtures : Fixtures := { scenarios := fun _ => none, ready := .null, sessionInfo := none }

private def mintedSecond : Option Task → Bool
  | some (.minted _ number) => number == 2
  | _ => false

end

end Hermo.FakeGateway
