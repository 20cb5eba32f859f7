import Hermo.Core.Supervised

/-!
# What a disconnect ends

`disconnect` raises the stop flag and closes the client that is installed at that moment.  The supervisor reads the
flag behind its event loop and in the backoff sleep, and the close of its own client; a client it is about to get, or
just got, it takes into use without asking.  `Settled` are the points from which it can only end.
-/

namespace Hermo.Lifecycle

open Run Tasks

/-- A supervisor that can only end: the flag or the local close of its client lies before everything else. -/
def SupervisorPoint.Settled (s : Shared) : SupervisorPoint → Prop
  | .top c => s.reason c = some localCloseReason ∨ (s.stopFlag = true ∧ s.reason c ≠ none)
  | .resuming c | .events c => s.reason c = some localCloseReason ∨ s.stopFlag = true
  | .sawClosed reason => reason = localCloseReason ∨ s.stopFlag = true
  | .stopCheck | .backoff | .sleeping => s.stopFlag = true
  | .needsPassword | .exiting _ | .ended _ => True
  | .sawOpen _ | .resume _ | .establishing | .established _ => False

/-- Settled, or a call that has returned, or one that ends connections. -/
def Task.Settled (s : Shared) : Task → Prop
  | .supervisor point _ => point.Settled s
  | .connect point => point = .returned
  | .foreground point => point = .returned
  | .disconnect _ | .forget _ => True

/-- The label starts no `connect` and no `app_did_foreground`. -/
def startsNone : Label → Bool
  | .start t => !t.connecting
  | _ => true

/-- What only grows when nobody connects, and the deeds, which do not change. -/
structure Later (s s' : Shared) : Prop where
  stopFlag : s.stopFlag = true → s'.stopFlag = true
  reason : ∀ c r, s.reason c = some r → s'.reason c = some r
  deeds : s'.deeds = s.deeds

private theorem Later.refl (s : Shared) : Later s s := ⟨id, fun _ _ => id, rfl⟩

private theorem later_close (s : Shared) (c : Nat) (reason : String) : Later s (s.close c reason) :=
  ⟨id, fun _ _ h => Shared.reason_close_of_closed h c reason, rfl⟩

/-! ### A settled supervisor only ends -/

theorem SupervisorPoint.Settled.later {s s' : Shared} {point : SupervisorPoint} (h : point.Settled s)
    (hl : Later s s') : point.Settled s' := by
  cases point with
  | top c =>
    rcases h with h | ⟨hstop, hclosed⟩
    · exact .inl (hl.reason c _ h)
    · refine .inr ⟨hl.stopFlag hstop, ?_⟩
      obtain ⟨r, hr⟩ := Option.ne_none_iff_exists'.1 hclosed
      rw [hl.reason c r hr]
      simp
  | resuming c => exact h.imp (hl.reason c _) hl.stopFlag
  | events c => exact h.imp (hl.reason c _) hl.stopFlag
  | sawClosed reason => exact h.imp_right hl.stopFlag
  | stopCheck => exact hl.stopFlag h
  | backoff => exact hl.stopFlag h
  | sleeping => exact hl.stopFlag h
  | needsPassword => trivial
  | exiting why => trivial
  | ended why => trivial
  | sawOpen c => exact h.elim
  | resume c => exact h.elim
  | establishing => exact h.elim
  | established c => exact h.elim

theorem Task.Settled.later {s s' : Shared} {t : Task} (h : t.Settled s) (hl : Later s s') : t.Settled s' := by
  cases t with
  | supervisor point last => exact SupervisorPoint.Settled.later h hl
  | _ => exact h

private theorem supervisor_settled {s s' : Shared} {point point' : SupervisorPoint} {input : Input}
    {status : Option ConnectionStatus} (h : point.Step s input s' point' status)
    (hs : point.Settled s) : point'.Settled s' ∧ Later s s' := by
  cases h with
  -- a settled supervisor is at the head of its loop with a closed client only
  | topOpen hopen =>
    rcases hs with hs | hs
    · rw [hopen] at hs
      cases hs
    · exact absurd hopen hs.2
  | topClosed hclosed =>
    refine ⟨hs.imp ?_ And.left, Later.refl s⟩
    intro hlocal
    rw [hclosed, Option.some_inj] at hlocal
    exact hlocal
  | loses hclosed =>
    refine ⟨hs.imp_left ?_, Later.refl s⟩
    intro hlocal
    rw [hclosed, Option.some_inj] at hlocal
    exact hlocal
  | closed hlocal => exact ⟨hs.resolve_left hlocal, Later.refl s⟩
  -- a settled supervisor on the ladder has the flag up, so it neither goes on nor times out
  | reconnects hdown | timedOut hdown =>
    have hup : s.stopFlag = true := hs
    rw [hdown] at hup
    cases hup
  | resumed => exact ⟨hs, Later.refl s⟩
  | sleeps => exact ⟨hs, Later.refl s⟩
  | closedLocally | stopped _ | woken _ | reportsExpired => exact ⟨trivial, Later.refl s⟩
  | clears => exact ⟨trivial, id, fun _ _ => id, rfl⟩
  | reportsOpen | startsResume | connected | expired | failed | installs => exact hs.elim

private theorem disconnect_later {s s' : Shared} {point point' : DisconnectPoint}
    (h : point.Step s s' point') : Later s s' := by
  cases h with
  | raises => exact ⟨fun _ => rfl, fun _ _ => id, rfl⟩
  | takes _ | noClient _ => exact ⟨id, fun _ _ => id, rfl⟩
  | closes => exact later_close s _ _

private theorem forget_later {s s' : Shared} {point point' : ForgetPoint}
    (h : point.Step s s' point') : Later s s' := by
  cases h with
  | raises => exact ⟨fun _ => rfl, fun _ _ => id, rfl⟩
  | @closes c _ =>
    have hclose := later_close s c localCloseReason
    exact ⟨hclose.stopFlag, hclose.reason, hclose.deeds⟩
  | noClient _ => exact ⟨id, fun _ _ => id, rfl⟩
  | clears => exact Later.refl s

private theorem task_settled {s s' : Shared} {t t' : Task} {input : Input} {spawns : List Task}
    (h : t.next s input = some (s', t', spawns)) (hs : t.Settled s) :
    t'.Settled s' ∧ spawns = [] ∧ Later s s' := by
  cases task_moves h with
  | supervisor hnext =>
    obtain ⟨hpoint, hlater⟩ := supervisor_settled hnext hs
    exact ⟨hpoint, rfl, hlater⟩
  | @connect point _ _ hnext =>
    obtain rfl : point = .returned := hs
    cases hnext
  | @foreground point _ _ hnext =>
    obtain rfl : point = .returned := hs
    cases hnext
  | disconnect hnext => exact ⟨trivial, rfl, disconnect_later hnext⟩
  | forget hnext => exact ⟨trivial, rfl, forget_later hnext⟩

private theorem settled_of_call {s : Shared} {t : Task} (h : t.isCall) (hc : t.connecting = false) : t.Settled s := by
  cases t with
  | supervisor point last => cases h
  | connect point =>
    change point = .returned
    simpa [Task.connecting] using hc
  | foreground point =>
    change point = .returned
    simpa [Task.connecting] using hc
  | disconnect point => trivial
  | forget point => trivial

/-- Where every task is settled, nothing is done that a disconnect must end, and every task stays settled. -/
private theorem settled_step {s s' : System} {l : Label} (h : ∀ t ∈ s.tasks, t.Settled s.shared)
    (hl : startsNone l) (hstep : program.step s l = some s') :
    (∀ t ∈ s'.tasks, t.Settled s'.shared) ∧ s'.shared.deeds = s.shared.deeds := by
  have hevent : ∀ e shared, Event.next s.shared e = some shared → Later s.shared shared := by
    rintro ⟨c, reason⟩ shared henv
    obtain ⟨-, rfl⟩ := Event.next_closed henv
    exact later_close s.shared c reason
  constructor
  · refine Program.forall_step (P := fun s t => t.Settled s) hstep h ?_ ?_ ?_
    · rintro t rfl hcall
      exact settled_of_call hcall (by simpa [startsNone] using hl)
    · intro i input t shared t' spawns _ ht hnext
      obtain ⟨hown, rfl, hlater⟩ := task_settled hnext (h t (List.mem_of_getElem? ht))
      exact ⟨hown, by simp, fun u hu => hu.later hlater⟩
    · exact fun e shared _ henv u hu => hu.later (hevent e shared henv)
  · cases l with
    | start t =>
      obtain ⟨-, rfl⟩ := Program.step_start hstep
      rfl
    | task i input =>
      obtain ⟨t, shared, t', spawns, ht, hnext, rfl⟩ := Program.step_task hstep
      exact (task_settled hnext (h t (List.mem_of_getElem? ht))).2.2.deeds
    | env e =>
      obtain ⟨shared, henv, rfl⟩ := Program.step_env hstep
      exact (hevent e shared henv).deeds

/-! ### Every client a task knows exists -/

/-- The client at a point. -/
def SupervisorPoint.knows : SupervisorPoint → Option Nat
  | .established c => some c
  | point => point.client

def ConnectPoint.knows : ConnectPoint → Option Nat
  | .established c => some c
  | point => point.client

def ForegroundPoint.knows : ForegroundPoint → Option Nat
  | .established c => some c
  | point => point.client

def Task.knows : Task → Option Nat
  | .supervisor point _ => point.knows
  | .connect point => point.knows
  | .foreground point => point.knows
  | .disconnect _ | .forget _ => none

private theorem length_connected (s : Shared) : s.published.length < s.connected.published.length := by
  simp [Shared.connected]

private theorem length_close (s : Shared) (c : Nat) (reason : String) :
    (s.close c reason).published.length = s.published.length := List.length_modify ..

/-- A step forgets no client, and a point knows a client from the point before or because it is new. -/
private theorem supervisor_knows {s s' : Shared} {point point' : SupervisorPoint} {input : Input}
    {status : Option ConnectionStatus} (h : point.Step s input s' point' status) :
    s.published.length ≤ s'.published.length ∧
      ∀ c, point'.knows = some c → point.knows = some c ∨ c < s'.published.length := by
  cases h with
  | connected =>
    have hnew := length_connected s
    refine ⟨Nat.le_of_lt hnew, ?_⟩
    rintro c ⟨⟩
    exact .inr hnew
  | topOpen _ | reportsOpen | startsResume | resumed | installs => exact ⟨Nat.le_refl _, fun c => .inl⟩
  | _ => exact ⟨Nat.le_refl _, by rintro c ⟨⟩⟩

private theorem connect_knows {s s' : Shared} {point point' : ConnectPoint} {input : Input} {spawn : Option Nat}
    (h : point.Step s input s' point' spawn) :
    s.published.length ≤ s'.published.length ∧
      ∀ c, point'.knows = some c ∨ spawn = some c → point.knows = some c ∨ c < s'.published.length := by
  cases h with
  | connected =>
    have hnew := length_connected s
    refine ⟨Nat.le_of_lt hnew, ?_⟩
    rintro c (⟨⟨⟩⟩ | ⟨⟨⟩⟩)
    exact .inr hnew
  | installs | unstops | takes _ =>
    refine ⟨Nat.le_refl _, ?_⟩
    rintro c (hc | ⟨⟨⟩⟩)
    exact .inl hc
  | spawns =>
    refine ⟨Nat.le_refl _, ?_⟩
    rintro c (⟨⟨⟩⟩ | ⟨⟨⟩⟩)
    exact .inl rfl
  | _ =>
    refine ⟨Nat.le_refl _, ?_⟩
    rintro c (⟨⟨⟩⟩ | ⟨⟨⟩⟩)

private theorem foreground_knows {s s' : Shared} {point point' : ForegroundPoint} {input : Input}
    {spawn : Option Nat} (h : point.Step s input s' point' spawn) :
    s.published.length ≤ s'.published.length ∧
      ∀ c, point'.knows = some c ∨ spawn = some c → point.knows = some c ∨ c < s'.published.length := by
  cases h with
  | connected =>
    have hnew := length_connected s
    refine ⟨Nat.le_of_lt hnew, ?_⟩
    rintro c (⟨⟨⟩⟩ | ⟨⟨⟩⟩)
    exact .inr hnew
  | installs | unstops =>
    refine ⟨Nat.le_refl _, ?_⟩
    rintro c (hc | ⟨⟨⟩⟩)
    exact .inl hc
  | spawns =>
    refine ⟨Nat.le_refl _, ?_⟩
    rintro c (⟨⟨⟩⟩ | ⟨⟨⟩⟩)
    exact .inl rfl
  | _ =>
    refine ⟨Nat.le_refl _, ?_⟩
    rintro c (⟨⟨⟩⟩ | ⟨⟨⟩⟩)

/-- Every client a task knows has a published state. -/
def Known (s : Shared) (t : Task) : Prop := ∀ c, t.knows = some c → c < s.published.length

private theorem known_spawned {s : Shared} {spawn : Option Nat} (h : ∀ c, spawn = some c → c < s.published.length) :
    ∀ u ∈ spawned spawn, Known s u := by
  intro u hu c hc
  cases spawn with
  | none => cases hu
  | some c' =>
    rw [List.mem_singleton.1 hu] at hc
    exact h c hc

/-- A client of the new point, or of the supervisor it spawns, is an old one or has just been added. -/
private theorem bound_of_knows {len len' : Nat} {old new : Nat → Prop} (hlen : len ≤ len')
    (hnew : ∀ c, new c → old c ∨ c < len') (hold : ∀ c, old c → c < len) : ∀ c, new c → c < len' := by
  intro c hc
  rcases hnew c hc with h | hlt
  · exact Nat.lt_of_lt_of_le (hold c h) hlen
  · exact hlt

private theorem task_known {s s' : Shared} {t t' : Task} {input : Input} {spawns : List Task}
    (h : t.next s input = some (s', t', spawns)) (hk : Known s t) :
    s.published.length ≤ s'.published.length ∧ Known s' t' ∧ ∀ u ∈ spawns, Known s' u := by
  cases task_moves h with
  | supervisor hnext =>
    obtain ⟨hlen, hnew⟩ := supervisor_knows hnext
    exact ⟨hlen, bound_of_knows hlen hnew hk, by simp⟩
  | connect hnext =>
    obtain ⟨hlen, hnew⟩ := connect_knows hnext
    have hbound := bound_of_knows hlen hnew hk
    exact ⟨hlen, fun c hc => hbound c (.inl hc), known_spawned fun c hc => hbound c (.inr hc)⟩
  | foreground hnext =>
    obtain ⟨hlen, hnew⟩ := foreground_knows hnext
    have hbound := bound_of_knows hlen hnew hk
    exact ⟨hlen, fun c hc => hbound c (.inl hc), known_spawned fun c hc => hbound c (.inr hc)⟩
  | disconnect hnext =>
    refine ⟨?_, by rintro c ⟨⟩, by simp⟩
    cases hnext with
    | closes => exact Nat.le_of_eq (length_close ..).symm
    | _ => exact Nat.le_refl _
  | forget hnext =>
    refine ⟨?_, by rintro c ⟨⟩, by simp⟩
    cases hnext with
    | closes _ => exact Nat.le_of_eq (length_close ..).symm
    | _ => exact Nat.le_refl _

/-- The clients exist in every state of every run. -/
theorem known_run {labels : List Label} {s : System} (h : exec program.step start labels = some s) :
    ∀ t ∈ s.tasks, Known s.shared t := by
  have hstep : ∀ (s : System) (l : Label) (s' : System), (∀ t ∈ s.tasks, Known s.shared t) →
      program.step s l = some s' → ∀ t ∈ s'.tasks, Known s'.shared t := by
    intro s l s' hs hstep
    refine Program.forall_step (P := Known) hstep hs ?_ ?_ ?_
    · intro t _ hcall c hc
      revert hcall hc
      change Task.isCall t = true → _
      fun_cases Task.isCall t
      all_goals first | (rintro _ ⟨⟩) | (rintro ⟨⟩)
    · intro i input t shared t' spawns _ ht hnext
      obtain ⟨hlen, hown, hspawns⟩ := task_known hnext (hs t (List.mem_of_getElem? ht))
      exact ⟨hown, hspawns, fun u hu c hc => Nat.lt_of_lt_of_le (hu c hc) hlen⟩
    · rintro ⟨c', reason⟩ shared - henv u hu c hc
      obtain ⟨-, rfl⟩ := Event.next_closed henv
      rw [length_close]
      exact hu c hc
  exact exec_preserves program.step hstep (by rintro t ⟨⟩) h

/-! ### From everywhere else it goes on -/

/-- Without a new call, a supervisor does again what a disconnect must end. -/
def GoesOn (s : System) : Prop :=
  ∃ labels s', (∀ l ∈ labels, startsNone l) ∧ exec program.step s labels = some s' ∧
    s'.shared.deeds ≠ s.shared.deeds

/-- The next step is such a deed. -/
private theorem goesOn_deed {s : System} {i : Nat} {point point' : SupervisorPoint} {shared : Shared} {deed : Deed}
    {status : Option ConnectionStatus} (h : At s i point)
    (hnext : point.next s.shared .run = some (shared, point', status))
    (hdeed : shared.deeds = s.shared.deeds ++ [deed]) : GoesOn s := by
  obtain ⟨s₁, hstep, hshared, -⟩ := h.next hnext
  refine ⟨[.task i .run], s₁, by simp [startsNone], ?_, ?_⟩
  · unfold exec
    rw [hstep]
    rfl
  · rw [hshared, hdeed]
    simp

/-- A step without a deed, to a state from which it goes on. -/
private theorem goesOn_step {s s₁ : System} {l : Label} (hl : startsNone l) (hstep : program.step s l = some s₁)
    (hdeeds : s₁.shared.deeds = s.shared.deeds) (h : GoesOn s₁) : GoesOn s := by
  obtain ⟨labels, s', hlabels, hrun, hne⟩ := h
  refine ⟨l :: labels, s', ?_, ?_, ?_⟩
  · intro l' hl'
    rcases List.mem_cons.1 hl' with rfl | hl'
    · exact hl
    · exact hlabels l' hl'
  · unfold exec
    rw [hstep]
    exact hrun
  · rwa [← hdeeds]

private theorem goesOn_next {s : System} {i : Nat} {point point' : SupervisorPoint} {input : Input} {shared : Shared}
    {status : Option ConnectionStatus} (h : At s i point)
    (hnext : point.next s.shared input = some (shared, point', status)) (hdeeds : shared.deeds = s.shared.deeds)
    (hrest : ∀ s₁ : System, s₁.shared = shared → At s₁ i point' → GoesOn s₁) : GoesOn s := by
  obtain ⟨s₁, hstep, hshared, hat⟩ := h.next hnext
  exact goesOn_step rfl hstep (by rw [hshared, hdeeds]) (hrest s₁ hshared hat)

private theorem goesOn_establishing {s : System} {i : Nat} (h : At s i .establishing) : GoesOn s := by
  -- nothing keeps `establish` from succeeding, and nothing is asked behind it
  have hnext : SupervisorPoint.establishing.next s.shared (.establish .connected) =
      some (s.shared.connected, .established s.shared.published.length, none) := rfl
  refine goesOn_next h hnext rfl ?_
  intro s₁ _ hat
  exact goesOn_deed hat rfl rfl

private theorem goesOn_sleeping {s : System} {i : Nat} (h : At s i .sleeping) (hstop : s.shared.stopFlag = false) :
    GoesOn s := by
  have hnext : SupervisorPoint.sleeping.next s.shared .timeout = some (s.shared, .establishing, none) := by
    simp [SupervisorPoint.next, hstop]
  exact goesOn_next h hnext rfl fun s₁ _ hat => goesOn_establishing hat

private theorem goesOn_backoff {s : System} {i : Nat} (h : At s i .backoff) (hstop : s.shared.stopFlag = false) :
    GoesOn s := by
  have hnext : SupervisorPoint.backoff.next s.shared .run = some (s.shared, .sleeping, some .connecting) := rfl
  exact goesOn_next h hnext rfl fun s₁ hshared hat => goesOn_sleeping hat (by rw [hshared, hstop])

private theorem goesOn_stopCheck {s : System} {i : Nat} (h : At s i .stopCheck) (hstop : s.shared.stopFlag = false) :
    GoesOn s := by
  have hnext : SupervisorPoint.stopCheck.next s.shared .run = some (s.shared, .backoff, none) := by
    simp [SupervisorPoint.next, hstop]
  exact goesOn_next h hnext rfl fun s₁ hshared hat => goesOn_backoff hat (by rw [hshared, hstop])

private theorem goesOn_sawClosed {s : System} {i : Nat} {reason : String} (h : At s i (.sawClosed reason))
    (hlocal : reason ≠ localCloseReason) (hstop : s.shared.stopFlag = false) : GoesOn s := by
  have hnext : (SupervisorPoint.sawClosed reason).next s.shared .run =
      some (s.shared, .stopCheck, some (.closed reason)) := by
    simp [SupervisorPoint.next, hlocal]
  exact goesOn_next h hnext rfl fun s₁ hshared hat => goesOn_stopCheck hat (by rw [hshared, hstop])

private theorem goesOn_closed {s : System} {i c : Nat} {reason : String} (h : At s i (.events c))
    (hclosed : s.shared.reason c = some reason) (hlocal : reason ≠ localCloseReason)
    (hstop : s.shared.stopFlag = false) : GoesOn s := by
  have hnext : (SupervisorPoint.events c).next s.shared .run = some (s.shared, .sawClosed reason, none) := by
    simp [SupervisorPoint.next, hclosed]
  exact goesOn_next h hnext rfl fun s₁ hshared hat => goesOn_sawClosed hat hlocal (by rw [hshared, hstop])

/-- The server closes an open connection, and the supervisor reconnects. -/
private theorem goesOn_events {s : System} {i c : Nat} (h : At s i (.events c)) (hlt : c < s.shared.published.length)
    (hlocal : s.shared.reason c ≠ some localCloseReason) (hstop : s.shared.stopFlag = false) : GoesOn s := by
  cases hr : s.shared.reason c with
  | some reason => exact goesOn_closed h hr (by rintro rfl; exact hlocal hr) hstop
  -- the event loop runs on an open client: the server may close it
  | none =>
    have hopen : s.shared.published[c]? = some none := by
      unfold Shared.reason at hr
      rw [List.getElem?_eq_getElem hlt] at hr ⊢
      exact congrArg some hr
    have hclose : program.step s (.env (.closed c "")) = some ⟨s.shared.close c "", s.tasks⟩ := by
      change (Event.next s.shared (.closed c "")).map _ = _
      unfold Event.next
      dsimp only
      rw [if_pos hopen]
      rfl
    have hreason : (s.shared.close c "").reason c = some "" := by
      unfold Shared.close Shared.reason
      dsimp only
      rw [List.getElem?_modify, hopen]
      simp
    have hat : At ⟨s.shared.close c "", s.tasks⟩ i (.events c) := h
    exact goesOn_step rfl hclose rfl (goesOn_closed hat hreason (by decide) hstop)

private theorem goesOn_resuming {s : System} {i c : Nat} (h : At s i (.resuming c))
    (hlt : c < s.shared.published.length) (hlocal : s.shared.reason c ≠ some localCloseReason)
    (hstop : s.shared.stopFlag = false) : GoesOn s := by
  have hnext : (SupervisorPoint.resuming c).next s.shared .run = some (s.shared, .events c, none) := rfl
  refine goesOn_next h hnext rfl ?_
  intro s₁ hshared hat
  exact goesOn_events hat (by rw [hshared]; exact hlt) (by rw [hshared]; exact hlocal) (by rw [hshared, hstop])

private theorem goesOn_top {s : System} {i c : Nat} (h : At s i (.top c))
    (hs : ¬ (SupervisorPoint.top c).Settled s.shared) : GoesOn s := by
  obtain ⟨hlocal, hopen⟩ := not_or.1 hs
  cases hr : s.shared.reason c with
  | none =>
    have hnext : (SupervisorPoint.top c).next s.shared .run = some (s.shared, .sawOpen c, some .connecting) := by
      simp [SupervisorPoint.next, hr]
    refine goesOn_next h hnext rfl ?_
    intro s₁ _ hat
    exact goesOn_deed hat rfl rfl
  | some reason =>
    have hstop : s.shared.stopFlag = false := by
      by_contra hup
      exact hopen ⟨by simpa using hup, by simp [hr]⟩
    have hnext : (SupervisorPoint.top c).next s.shared .run =
        some (s.shared, .sawClosed reason, some .connecting) := by
      simp [SupervisorPoint.next, hr]
    refine goesOn_next h hnext rfl ?_
    intro s₁ hshared hat
    refine goesOn_sawClosed hat ?_ (by rw [hshared, hstop])
    rintro rfl
    exact hlocal hr

/-- From a point that is not settled it goes on. -/
private theorem goesOn_of_not_settled {s : System} {i : Nat} {point : SupervisorPoint} (h : At s i point)
    (hknown : ∀ c, point.knows = some c → c < s.shared.published.length) (hs : ¬ point.Settled s.shared) :
    GoesOn s := by
  have hdown : ∀ {b : Bool}, ¬ b = true → b = false := Bool.not_eq_true _ |>.mp
  cases point with
  | top c => exact goesOn_top h hs
  | sawOpen c => exact goesOn_deed h rfl rfl
  | resume c => exact goesOn_deed h rfl rfl
  | resuming c =>
    obtain ⟨hlocal, hstop⟩ := not_or.1 hs
    exact goesOn_resuming h (hknown c rfl) hlocal (hdown hstop)
  | events c =>
    obtain ⟨hlocal, hstop⟩ := not_or.1 hs
    exact goesOn_events h (hknown c rfl) hlocal (hdown hstop)
  | sawClosed reason =>
    obtain ⟨hlocal, hstop⟩ := not_or.1 hs
    exact goesOn_sawClosed h hlocal (hdown hstop)
  | stopCheck => exact goesOn_stopCheck h (hdown hs)
  | backoff => exact goesOn_backoff h (hdown hs)
  | sleeping => exact goesOn_sleeping h (hdown hs)
  | establishing => exact goesOn_establishing h
  | established c => exact goesOn_deed h rfl rfl
  | needsPassword => exact absurd trivial hs
  | exiting why => exact absurd trivial hs
  | ended why => exact absurd trivial hs

/-! ### Every run -/

/-- In every state of every run in which no `connect` and no `app_did_foreground` is in progress, and in particular
when a `disconnect` or a `forget_gateway` has just returned: as long as none is called, no supervisor installs a
client, starts a resume phase or reports `Open`, exactly when every supervisor is settled. -/
theorem disconnect_final_iff {before : List Label} {s : System} (h : exec program.step start before = some s)
    (hidle : ∀ t ∈ s.tasks, t.connecting = false) :
    (∀ labels s', (∀ l ∈ labels, startsNone l) → exec program.step s labels = some s' →
      s'.shared.deeds = s.shared.deeds) ↔ ∀ t ∈ s.tasks, t.Settled s.shared := by
  constructor
  · intro hquiet t ht
    have hreturned := hidle t ht
    cases t with
    | supervisor point last =>
      by_contra hs
      obtain ⟨i, hi⟩ := List.mem_iff_getElem?.1 ht
      obtain ⟨labels, s', hlabels, hrun, hne⟩ := goesOn_of_not_settled ⟨last, hi⟩ (known_run h _ ht) hs
      exact hne (hquiet labels s' hlabels hrun)
    | connect point =>
      change point = .returned
      simpa [Task.connecting] using hreturned
    | foreground point =>
      change point = .returned
      simpa [Task.connecting] using hreturned
    | disconnect point => trivial
    | forget point => trivial
  · intro hsettled labels s' hlabels hrun
    have hstep : ∀ (s₁ : System) (l : Label) (s₂ : System),
        ((∀ t ∈ s₁.tasks, t.Settled s₁.shared) ∧ s₁.shared.deeds = s.shared.deeds) → startsNone l →
          program.step s₁ l = some s₂ →
            (∀ t ∈ s₂.tasks, t.Settled s₂.shared) ∧ s₂.shared.deeds = s.shared.deeds := by
      rintro s₁ l s₂ ⟨hs₁, hdeeds⟩ hl hstep
      obtain ⟨hs₂, hsame⟩ := settled_step hs₁ hl hstep
      exact ⟨hs₂, hsame.trans hdeeds⟩
    have hmeets : Meets program.step (fun _ l => startsNone l = true) s labels :=
      meets_of_forall program.step (fun l hl _ => hlabels l hl) s
    exact (exec_invariant program.step hstep ⟨hsettled, rfl⟩ hmeets hrun).2

/-- The calls and steps up to the event loop of the first connection. -/
def eventLoop : List Label :=
  callSteps 0 (.connect .start) connectInputs ++ List.replicate 4 (.task 1 .run)

/-- A disconnect in the event loop. -/
theorem disconnect_final_iff_events :
    ∃ s, exec program.step start (eventLoop ++ callSteps 2 (.disconnect .start) [.run, .run, .run]) = some s ∧
      .disconnect .returned ∈ s.tasks ∧
      ∀ labels s', (∀ l ∈ labels, startsNone l) → exec program.step s labels = some s' →
        s'.shared.deeds = s.shared.deeds := by
  have hrun : ∃ s, exec program.step start
      (eventLoop ++ callSteps 2 (.disconnect .start) [.run, .run, .run]) = some s ∧
      s.tasks = [.connect .returned, .supervisor (.events 0) (some .open), .disconnect .returned] ∧
      s.shared.stopFlag = true := ⟨_, rfl, rfl, rfl⟩
  obtain ⟨s, hs, htasks, hstop⟩ := hrun
  refine ⟨s, hs, by rw [htasks]; decide, (disconnect_final_iff hs ?_).2 ?_⟩
  · rw [htasks]
    decide
  · rw [htasks]
    intro t ht
    rcases List.mem_cons.1 ht with rfl | ht
    · rfl
    · rcases List.mem_cons.1 ht with rfl | ht
      · exact .inr hstop
      · rw [List.mem_singleton.1 ht]
        trivial

/-- The connection is lost, the supervisor is inside `establish` when `disconnect` runs and returns; then it installs
the new client, reports `Open` and starts the resume phase. -/
theorem disconnect_overtaken :
    ∃ s s', exec program.step start (callSteps 0 (.connect .start) connectInputs ++ [.env (.closed 0 "heartbeat timeout"),
        .task 1 .run, .task 1 .run, .task 1 .run, .task 1 .run, .task 1 .timeout] ++
        callSteps 2 (.disconnect .start) [.run, .run, .run]) = some s ∧
      s.tasks = [.connect .returned, .supervisor .establishing (some .connecting), .disconnect .returned] ∧
      exec program.step s (.task 1 (.establish .connected) :: List.replicate 4 (.task 1 .run)) = some s' ∧
      s.shared.deeds = [] ∧ s'.shared.deeds = [.installed 1, .reportedOpen 1, .startedResume 1] ∧
      s'.shared.client = some 1 ∧ s'.shared.stopFlag = true :=
  ⟨_, _, rfl, rfl, rfl, rfl, rfl, rfl, rfl⟩

end Hermo.Lifecycle
