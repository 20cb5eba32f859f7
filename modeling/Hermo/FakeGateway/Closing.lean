import Hermo.FakeGateway.Promises

/-!
# Closed sessions

A turn that is still in flight against a closed session does not bring its record back, and what it had not recorded
by then it never sends.
-/

namespace Hermo.FakeGateway

open Run (exec Meets)

section

variable [JsonReader] [Lowercase]

/-- The step handles no request that makes a session of this name, and inserts none that was created under it. -/
def Shuns (key : String) (g : Gateway) : Move → Prop
  | .task i _ =>
    ∀ t, g.tasks[i]? = some t →
      (∀ method ∈ [Method.sessionTitle, .sessionResume, .promptSubmit], t.asks ≠ some (method, key)) ∧
        t.inserts.map Prod.fst ≠ some key
  | _ => True

instance (key : String) (g : Gateway) (l : Move) : Decidable (Shuns key g l) :=
  match l with
  | .task i _ =>
    decidable_of_iff (∀ t ∈ g.tasks[i]?,
      (∀ method ∈ [Method.sessionTitle, .sessionResume, .promptSubmit], t.asks ≠ some (method, key)) ∧
        t.inserts.map Prod.fst ≠ some key) Iff.rfl
  | .start _ | .env _ => .isTrue trivial

/-- A numbered event of the session. -/
def EventOf (key : String) (line : Value) : Prop :=
  ∃ ev, Rpc.decodeValue line = .event ev ∧ ev.sessionId = key ∧ ev.seq ≠ none

/-- The line is on its way, or was sent. -/
def Gateway.Holds (g : Gateway) (line : Value) : Prop :=
  g.shared.Carries line ∨ ∃ t ∈ g.tasks, line ∈ t.lines

theorem closed_step {key : String} {g g' : Gateway} {l : Move} (h : g.shared.sessions.lookup key = none)
    (hshuns : Shuns key g l) (hstep : program.step g l = some g') : g'.shared.sessions.lookup key = none := by
  rcases step_cases hstep with ⟨t, -, -, rfl⟩ | ⟨i, input, t, s, t', spawned, rfl, ht, hnext, rfl⟩
  · exact h
  · obtain ⟨hasks, hinserts⟩ := hshuns t ht
    obtain ⟨k, hchange, hother⟩ := hnext.changesOne
    by_cases hk : key = k
    · subst hk
      rw [h] at hchange
      dsimp only
      generalize s.sessions.lookup key = new at hchange ⊢
      cases hchange with
      | same => rfl
      | named record hid horder hcounter hseq hevents hnames =>
        obtain ⟨method, hmethod, heq⟩ := hnames
        exact absurd heq (hasks method hmethod)
      | inserted old record hid hseq hevents heq => exact absurd (congrArg _ heq) hinserts
    · exact (hother key hk).trans h

/-- A step that leaves a session closed announces no event of it. -/
theorem holds_step {key : String} {g g' : Gateway} {l : Move} (hstep : program.step g l = some g')
    (hclosed : g'.shared.sessions.lookup key = none) {line : Value} (hevent : EventOf key line)
    (hline : Gateway.Holds g' line) : Gateway.Holds g line := by
  rcases step_cases hstep with ⟨t, -, hentry, rfl⟩ | ⟨i, input, t, s, t', spawned, -, ht, hnext, rfl⟩
  · refine hline.imp_right ?_
    rintro ⟨u, hu, hmem⟩
    rcases List.mem_append.1 hu with hu | hu
    · exact ⟨u, hu, hmem⟩
    · rw [List.mem_singleton.1 hu] at hmem
      rcases entry_cases hentry with ⟨request, rfl⟩ | ⟨query, rfl⟩ <;> cases hmem
  · have hfresh : ¬ s.Fresh line := by
      obtain ⟨ev, hev, hkey, hseq⟩ := hevent
      rintro (hsilent | ⟨key', record, e, hrecord, -, hannounces⟩)
      · exact hseq (hsilent ev hev)
      · rw [← (hannounces ev hev).1, hkey] at hrecord
        cases hclosed.symm.trans hrecord
    have hown (hline : s.Carries line ∨ line ∈ t'.lines ∨ ∃ u ∈ spawned, line ∈ u.lines) : Gateway.Holds g line := by
      rcases hnext.lines hline with hcarries | hmem | hnew
      · exact .inl hcarries
      · exact .inr ⟨t, List.mem_of_getElem? ht, hmem⟩
      · exact absurd hnew hfresh
    rcases hline with hline | ⟨u, hu, hmem⟩
    · exact hown (.inl hline)
    · rcases Tasks.Program.mem_after hu with rfl | hu | ⟨j, -, hj⟩
      · exact hown (.inr (.inl hmem))
      · exact hown (.inr (.inr ⟨u, hu, hmem⟩))
      · exact .inr ⟨u, List.mem_of_getElem? hj, hmem⟩

/-- From a state in which a session is closed, as long as nobody asks for it again: it stays closed, and every event of
it that is sent had been recorded before. -/
theorem closed_stays_quiet (key : String) (g g' : Gateway) (labels : List Move)
    (hclosed : g.shared.sessions.lookup key = none) (hshuns : Meets program.step (Shuns key) g labels)
    (hrun : exec program.step g labels = some g') :
    g'.shared.sessions.lookup key = none ∧ ∀ line, EventOf key line → Gateway.Holds g' line → Gateway.Holds g line := by
  refine Run.exec_invariant program.step (P := fun g' => g'.shared.sessions.lookup key = none ∧
    ∀ line, EventOf key line → Gateway.Holds g' line → Gateway.Holds g line) ?_ ⟨hclosed, fun _ _ h => h⟩ hshuns hrun
  rintro t l t' ⟨ht, hlines⟩ hok hstep
  have hstays := closed_step ht hok hstep
  exact ⟨hstays, fun line hevent hline => hlines line hevent (holds_step hstep hstays hevent hline)⟩

end

section

attribute [local instance] JsonReader.compact Lowercase.ascii

private def shortTurn : Fixtures :=
  { scenarios := fun _ => some [.object [("params", .object [("type", .string "message.complete")])]]
    ready := .null
    sessionInfo := none }

private def chatLine (method : String) : String :=
  "\x7b\"method\":\"" ++ method ++ "\",\"params\":\x7b\"session_id\":\"chat\",\"text\":\"hi\"\x7d\x7d"

/-- A session that is closed while its turn has recorded a frame and not sent it. -/
private def closedTurn : Option Gateway :=
  let go (keys : List String) : Input := .go "0" keys
  exec program.step (start ⟨"user", "secret", 0, none⟩ shortTurn)
    [.start (.http ⟨"POST", "/api/auth/ws-ticket", "hermes_session_at=a", ""⟩), .task 0 (go []), .task 0 (go []),
      .start (.upgrade (some "ticket=fake-ticket-1")), .task 1 (go []), .task 1 (.sent true),
      .task 1 (.text (chatLine "prompt.submit")), .task 1 (go []), .task 1 (go []), .task 1 (go []), .task 2 (go []),
      .task 2 (go []), .task 1 (.text (chatLine "session.close")), .task 1 (go ["chat"]), .task 1 (go [])]

/-- The turn sends its frame and ends, and the frame goes out. -/
private def lateTurn : List Move :=
  [.task 2 (.go "0" []), .task 2 (.go "0" []), .task 1 (.sent true), .task 1 (.sent true), .task 1 (.sent true)]

theorem closed_stays_quiet_turn :
    ∃ g g', closedTurn = some g ∧ exec program.step g lateTurn = some g' ∧ g'.shared.sessions.lookup "chat" = none ∧
      ∀ line, EventOf "chat" line → Gateway.Holds g' line → Gateway.Holds g line := by
  have hclosed : closedTurn.isSome := by decide +kernel
  have hlate : ∀ g ∈ closedTurn, (g.shared.sessions.lookup "chat").isNone ∧
      Meets program.step (Shuns "chat") g lateTurn ∧ (exec program.step g lateTurn).isSome := by
    decide +kernel
  obtain ⟨g, hg⟩ := Option.isSome_iff_exists.1 hclosed
  obtain ⟨hnone, hshuns, hrun⟩ := hlate g hg
  obtain ⟨g', hg'⟩ := Option.isSome_iff_exists.1 hrun
  exact ⟨g, g', hg, hg', closed_stays_quiet "chat" g g' lateTurn (Option.isNone_iff_eq_none.1 hnone) hshuns hg'⟩

end

end Hermo.FakeGateway
