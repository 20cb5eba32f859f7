import Hermo.Core.Routing
import Hermo.Core.Supervisor
import Hermo.Library.Run

/-!
# A closed tab stays closed

The supervisor and the other tasks run over keys they read earlier, so a close can come between any two of their
steps.  Every later lock section looks the key up again and does nothing when it is gone: only an open brings it back.
-/

namespace Hermo

open Run

namespace CoreState

/-- Nothing is left under `key`. -/
structure Closed (s : CoreState) (key : String) : Prop where
  session : key ∉ s.sessions
  record : s.registry.get key = none
  approvals : key ∉ s.emittedApprovals

section

variable [Serializer]

private theorem editReducer_approvals (s : CoreState) (key : String)
    (edit : Reducer → Reducer × List SessionChange) :
    (s.editReducer key edit).1.emittedApprovals = s.emittedApprovals := by
  unfold editReducer
  split <;> rfl

private theorem reemitCard_approvals {s : CoreState} {key : String} (hs : key ∉ s.sessions)
    (h : key ∉ s.emittedApprovals) (key' : String) (card : Value) :
    key ∉ (s.reemitCard key' card).1.emittedApprovals := by
  unfold reemitCard
  dsimp only
  split
  · exact h
  · split
    · exact h
    · split
      · exact h
      · rename_i live hl
        split
        · exact h
        · split
          · exact h
          · exact h
          · -- the id is recorded, and the session it is recorded under is open
            have hopen : key' ∈ s.sessions := by
              rw [← AList.lookup_isSome, hl]
              rfl
            have hne : key ≠ key' := fun heq => hs (heq ▸ hopen)
            intro hmem
            rcases (AList.mem_insert _).1 hmem with heq | hmem
            · exact hne heq
            · exact h hmem

/-- Ids of re-emitted approvals are only recorded under the key of an open session. -/
private theorem approvals_act {s : CoreState} {key : String} (hs : key ∉ s.sessions) (h : key ∉ s.emittedApprovals)
    (a : Action) : key ∉ (s.act a).1.emittedApprovals := by
  cases a with
  | deliver ev =>
    change key ∉ (s.deliverEvent ev).1.emittedApprovals
    unfold deliverEvent routeEvent
    cases s.resolve ev.sessionId with
    | none => exact h
    | some key' =>
      dsimp only
      cases s.sessions.lookup key' with
      | none => exact h
      | some live => exact h
  | openSession reply profile cols => exact h
  | closeSession key' => exact fun hmem => h (AList.mem_erase.1 hmem).2
  | clearSessions => exact AList.notMem_empty key
  | forgetGateway => exact AList.notMem_empty key
  | rebuildSession key' messages replayEpoch =>
    unfold act rebuildSession
    dsimp only
    split <;> exact h
  | repointLiveSid key' sid =>
    unfold act repointLiveSid
    dsimp only
    split
    · exact h
    · split <;> exact h
  | touch key' seq epoch => exact h
  | reemitCard key' card => exact reemitCard_approvals hs h key' card
  | appendUserRow key' text historyEpoch =>
    unfold act appendUserRow
    dsimp only
    split
    · exact h
    · split
      · rw [editReducer_approvals]
        exact h
      · exact h
  | respondApproval key' requestId =>
    change key ∉ (s.editReducer key' _).1.emittedApprovals
    rw [editReducer_approvals]
    exact h
  | respondClarify key' requestId =>
    change key ∉ (s.editReducer key' _).1.emittedApprovals
    rw [editReducer_approvals]
    exact h

/-- No lock section brings a closed tab back or sends anything for it, except the one that opens it. -/
theorem Closed.act {s : CoreState} {key : String} (h : s.Closed key) {a : Action} (ha : a.opens key = false) :
    (s.act a).1.Closed key ∧ (s.act a).2.filter (·.key == key) = [] := by
  have hlive : (s.tab key).live = none := AList.lookup_eq_none.2 h.session
  have hrecord : (s.tab key).record = none := h.record
  have hview : ((s.act a).1.tab key).live = none ∧ ((s.act a).1.tab key).record = none ∧
      (s.act a).2.filter (·.key == key) = [] := by
    rw [tab_act, dtos_act]
    cases hon : s.onTab key a with
    | none => exact ⟨hlive, hrecord, rfl⟩
    | some b =>
      cases b with
      -- only an open puts something under a key with nothing in it
      | openSession reply profile cols historyEpoch =>
        obtain ⟨rfl, hkey⟩ := onTab_open hon
        simp [Action.opens, hkey] at ha
      | close => exact ⟨rfl, rfl, rfl⟩
      | _ => simp [Tab.actOption, Tab.act, Tab.reemitCard, Tab.editReducer, hlive, hrecord]
  refine ⟨⟨?_, hview.2.1, approvals_act h.session h.approvals a⟩, hview.2.2⟩
  exact AList.lookup_eq_none.1 hview.1

/-- What closes a session leaves nothing under its key. -/
theorem closed_of_closes (s : CoreState) {key : String} {a : Action} (ha : a.closes key) :
    (s.act a).1.Closed key := by
  cases a with
  | closeSession key' =>
    have hkey : key' = key := eq_of_beq ha
    subst hkey
    refine ⟨?_, ?_, ?_⟩
    · exact fun hmem => (AList.mem_erase.1 hmem).1 rfl
    · change (s.registry.close key').get key' = none
      rw [SessionRegistry.get_close, if_pos rfl]
    · exact fun hmem => (AList.mem_erase.1 hmem).1 rfl
  | clearSessions => exact ⟨AList.notMem_empty key, rfl, AList.notMem_empty key⟩
  | forgetGateway => exact ⟨AList.notMem_empty key, rfl, AList.notMem_empty key⟩
  | _ => cases ha

end

end CoreState

/-- The step opens the session of `key`. -/
def Label.opens (key : String) : Label → Bool
  | .task a => a.opens key
  | _ => false

/-- The supervisor never opens a session. -/
theorem Supervisor.Advances.opens {core : CoreState} {freshEpoch : String} {s s' : Supervisor} {a : Action}
    (h : s.Advances core freshEpoch (some a) s') (key : String) : a.opens key = false := by
  cases h <;> rfl

namespace Sys

/-- Only a task that opens a session opens one. -/
theorem opens_of_next {s : Sys} {l : Label} {a : Action} {supervisor : Supervisor} {epoch key : String}
    (h : s.next l = some (some a, supervisor, epoch)) (hl : l.opens key = false) : a.opens key = false := by
  cases steps_of_next h with
  | live hsup => rfl
  | advance hadvances => exact hadvances.opens key
  | task htask => exact hl

variable [Serializer]

/-- The changes the lock section of a step sends. -/
def sent (s : Sys) (l : Label) : List TranscriptChangeDto :=
  match s.next l with
  | some (some a, _, _) => (s.core.act a).2
  | _ => []

private theorem closed_step {s s' : Sys} {l : Label} {key : String} (h : s.core.Closed key)
    (hl : l.opens key = false) (hstep : s.step l = some s') :
    s'.core.Closed key ∧ (s.sent l).filter (·.key == key) = [] := by
  unfold step at hstep
  obtain ⟨⟨a, supervisor, epoch⟩, hnext, rfl⟩ := Option.map_eq_some_iff.1 hstep
  unfold sent
  rw [hnext]
  cases a with
  | none => exact ⟨h, rfl⟩
  | some a => exact h.act (opens_of_next hnext hl)

/-- After a step that closes a session, whatever the supervisor was doing and whatever the other tasks do then, the
tab is closed in every state of every run in which no step opens it, and no step sends anything for it. -/
theorem closed_stays_closed {s s₁ s₂ : Sys} {key : String} {close : Action} (hclose : close.closes key)
    (hstart : s.step (.task close) = some s₁) {labels : List Label} (hopens : ∀ l ∈ labels, l.opens key = false)
    (hrun : exec step s₁ labels = some s₂) :
    s₂.core.Closed key ∧
      ∀ l s₃, l.opens key = false → s₂.step l = some s₃ →
        s₃.core.Closed key ∧ (s₂.sent l).filter (·.key == key) = [] := by
  have hclosed : s₁.core.Closed key := by
    unfold step next at hstart
    dsimp only at hstart
    split at hstart <;> cases hstart
    exact CoreState.closed_of_closes s.core hclose
  have hmeets : Meets step (fun _ l => l.opens key = false) s₁ labels :=
    meets_of_forall step (fun l hl _ => hopens l hl) s₁
  have hbefore : s₂.core.Closed key :=
    exec_invariant step (fun _ _ _ h hl hstep => (closed_step h hl hstep).1) hclosed hmeets hrun
  exact ⟨hbefore, fun l s₃ hl hstep => closed_step hbefore hl hstep⟩

end Sys

section

attribute [local instance] Serializer.compact

private def record (key : String) : SessionRecord := ⟨key, 0, "", 80, "", ""⟩

/-- The supervisor waits for the events of "chat" when the tab is closed; it then re-points nothing, replays the
events and touches the record. -/
theorem closed_stays_closed_resuming :
    let core := (CoreState.new {}).run [.openSession (.created ⟨"live", "chat", ""⟩) none 80]
    let s : Sys := ⟨core, .asking "chat" (record "chat") ⟨"live", [], ""⟩ [], "e1"⟩
    let labels : List Label :=
      [.sinceReply (some ⟨[⟨"message.delta", "chat", 1, .object [("text", .string "ab")]⟩], 1, false, "e1"⟩), .advance,
        .advance, .advance, .advance, .readKeys []]
    ∃ s₁ s₂ : Sys, s.step (.task (.closeSession "chat")) = some s₁ ∧ exec Sys.step s₁ labels = some s₂ ∧
      s₂.core.Closed "chat" := by
  intro core s labels
  refine ⟨_, _, rfl, rfl, ?_⟩
  have hopens : ∀ l ∈ labels, l.opens "chat" = false := by decide
  exact (@Sys.closed_stays_closed _ s _ _ "chat" (.closeSession "chat") rfl rfl labels hopens rfl).1

end

end Hermo
