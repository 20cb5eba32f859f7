import Hermo.App.AppState
import Hermo.Library.Run

/-!
# The event bridge of the iOS app

`EventSinkBridge.swift`: the core delivers events from any thread, every subscriber has its own stream, and a serial
queue runs one task at a time.  A cancelled stream takes nothing any more, but its continuation is removed by a later
task of the queue.

`Hearing` says what the bridge is for: a subscriber hears every event from the first one that nobody was there to
hear.  The bridge agrees with it exactly as long as no event runs while all its continuations are cancelled.
-/

namespace Hermo.EventSinkBridge

open Run

/-- A task on the serial queue. -/
inductive Task where
  /-- Of `deliver`. -/
  | event (event : CoreEvent)
  /-- `register`, of a new stream. -/
  | register
  /-- Of `onTermination`. -/
  | remove (id : Nat)

/-- A continuation of the map, with what was yielded into its stream. -/
structure Continuation where
  id : Nat
  yielded : List CoreEvent := []
  cancelled : Bool := false

structure Bridge where
  queue : List Task := []
  /-- The entries of the map, by their ids. -/
  continuations : List Continuation := []
  nextId : Nat := 0
  parked : List CoreEvent := []

inductive Label where
  /-- `onTranscript` or `onConnection`. -/
  | deliver (event : CoreEvent)
  /-- `events`. -/
  | subscribe
  /-- The consumer of a stream is cancelled. -/
  | cancel (id : Nat)
  /-- The queue runs its first task. -/
  | run

/-- `parkedMax`. -/
def parkedMax : Nat := 512

/-- A stream that is terminated takes nothing. -/
def Continuation.yield (c : Continuation) (event : CoreEvent) : Continuation :=
  if c.cancelled then c else { c with yielded := c.yielded ++ [event] }

namespace Bridge

def register (b : Bridge) : Bridge :=
  { b with
    nextId := b.nextId + 1
    continuations := b.continuations ++ [{ id := b.nextId + 1, yielded := b.parked }]
    parked := [] }

/-- The task of `deliver`. -/
def deliver (b : Bridge) (event : CoreEvent) : Bridge :=
  if b.continuations = [] then
    let parked := b.parked ++ [event]
    { b with parked := parked.drop (parked.length - parkedMax) }
  else { b with continuations := b.continuations.map (·.yield event) }

def remove (b : Bridge) (id : Nat) : Bridge := { b with continuations := b.continuations.filter (·.id ≠ id) }

def perform (b : Bridge) : Task → Bridge
  | .event event => b.deliver event
  | .register => b.register
  | .remove id => b.remove id

/-- The stream ends, and its removal is put on the queue. -/
def cancel (b : Bridge) (id : Nat) : Bridge :=
  { b with
    continuations := b.continuations.map fun c => if c.id = id then { c with cancelled := true } else c
    queue := b.queue ++ [.remove id] }

/-- A continuation that is in the map and not cancelled. -/
def IsLive (b : Bridge) (c : Continuation) : Prop := c ∈ b.continuations ∧ c.cancelled = false

/-- The live continuations after a stream was cancelled. -/
theorem isLive_cancel {b : Bridge} {id : Nat} {c : Continuation} :
    (b.cancel id).IsLive c ↔ b.IsLive c ∧ c.id ≠ id := by
  unfold IsLive cancel
  dsimp only
  rw [List.mem_map]
  constructor
  · rintro ⟨⟨d, hd, rfl⟩, hlive⟩
    by_cases hid : d.id = id
    · rw [if_pos hid] at hlive
      cases hlive
    · rw [if_neg hid] at hlive ⊢
      exact ⟨⟨hd, hlive⟩, hid⟩
  · rintro ⟨⟨hmem, hlive⟩, hid⟩
    refine ⟨⟨c, hmem, ?_⟩, hlive⟩
    rw [if_neg hid]

/-- The live continuations after an event: the same ones, with the event. -/
theorem isLive_deliver {b : Bridge} (hne : b.continuations ≠ []) {event : CoreEvent} {c : Continuation} :
    (b.deliver event).IsLive c ↔ ∃ d, b.IsLive d ∧ c = { d with yielded := d.yielded ++ [event] } := by
  unfold deliver IsLive
  rw [if_neg hne]
  dsimp only
  rw [List.mem_map]
  constructor
  · rintro ⟨⟨d, hd, rfl⟩, hlive⟩
    unfold Continuation.yield at hlive ⊢
    by_cases hcancelled : d.cancelled = true
    · rw [if_pos hcancelled, hcancelled] at hlive
      cases hlive
    · rw [if_neg hcancelled]
      exact ⟨d, ⟨hd, by simpa using hcancelled⟩, rfl⟩
  · rintro ⟨d, ⟨hd, hlive⟩, rfl⟩
    refine ⟨⟨d, hd, ?_⟩, hlive⟩
    unfold Continuation.yield
    rw [hlive]
    rfl

theorem isLive_register {b : Bridge} {c : Continuation} :
    b.register.IsLive c ↔ b.IsLive c ∨ c = { id := b.nextId + 1, yielded := b.parked } := by
  unfold register IsLive
  dsimp only
  rw [List.mem_append, List.mem_singleton]
  constructor
  · rintro ⟨hmem | rfl, hlive⟩
    · exact .inl ⟨hmem, hlive⟩
    · exact .inr rfl
  · rintro (⟨hmem, hlive⟩ | rfl)
    · exact ⟨.inl hmem, hlive⟩
    · exact ⟨.inr rfl, rfl⟩

theorem isLive_remove {b : Bridge} {id : Nat} {c : Continuation} :
    (b.remove id).IsLive c ↔ b.IsLive c ∧ c.id ≠ id := by
  unfold remove IsLive
  dsimp only
  rw [List.mem_filter, decide_eq_true_eq]
  exact and_right_comm

/-- Who is there does not depend on an event. -/
theorem exists_live_deliver (b : Bridge) (event : CoreEvent) (id : Nat) :
    (∃ c, (b.deliver event).IsLive c ∧ c.id = id) ↔ ∃ c, b.IsLive c ∧ c.id = id := by
  by_cases hnil : b.continuations = []
  · unfold deliver IsLive
    rw [if_pos hnil]
  · constructor
    · rintro ⟨c, hc, hid⟩
      obtain ⟨d, hd, rfl⟩ := (isLive_deliver hnil).1 hc
      exact ⟨d, hd, hid⟩
    · rintro ⟨d, hd, hid⟩
      exact ⟨_, (isLive_deliver hnil).2 ⟨d, hd, rfl⟩, hid⟩

theorem deliver_frame (b : Bridge) (event : CoreEvent) :
    (b.deliver event).queue = b.queue ∧ (b.deliver event).nextId = b.nextId ∧
      (b.deliver event).continuations.map Continuation.id = b.continuations.map Continuation.id := by
  unfold deliver
  split
  · exact ⟨rfl, rfl, rfl⟩
  · refine ⟨rfl, rfl, ?_⟩
    dsimp only
    rw [List.map_map]
    refine List.map_congr_left ?_
    intro c _
    unfold Continuation.yield
    dsimp only [Function.comp_apply]
    split <;> rfl

end Bridge

/-! ### What the subscribers are to hear -/

/-- The events whose task has run, the first of them that nobody has heard, and the subscribers with the first event
each of them hears. -/
structure Hearing where
  log : List CoreEvent := []
  heard : Nat := 0
  subscribers : List (Nat × Nat) := []

namespace Hearing

/-- Everyone who is there hears the event. -/
def event (h : Hearing) (event : CoreEvent) : Hearing :=
  { h with
    log := h.log ++ [event]
    heard := if h.subscribers = [] then h.heard else h.log.length + 1 }

/-- A new subscriber hears what nobody has heard so far. -/
def register (h : Hearing) (id : Nat) : Hearing :=
  { h with heard := h.log.length, subscribers := h.subscribers ++ [(id, h.heard)] }

def leave (h : Hearing) (id : Nat) : Hearing := { h with subscribers := h.subscribers.filter (·.1 ≠ id) }

end Hearing

/-- The bridge, with what its subscribers are to hear. -/
structure World where
  bridge : Bridge := {}
  hearing : Hearing := {}

namespace World

/-- The first task of the queue; a removal concerns nobody who is there. -/
def perform (w : World) (task : Task) (rest : List Task) : World :=
  { bridge := { w.bridge with queue := rest }.perform task
    hearing :=
      match task with
      | .event event => w.hearing.event event
      | .register => w.hearing.register (w.bridge.nextId + 1)
      | .remove _ => w.hearing }

def step (w : World) : Label → Option World
  | .deliver event => some { w with bridge := { w.bridge with queue := w.bridge.queue ++ [.event event] } }
  | .subscribe => some { w with bridge := { w.bridge with queue := w.bridge.queue ++ [.register] } }
  | .cancel id =>
    if w.bridge.continuations.any fun c => c.id == id && !c.cancelled then
      some ⟨w.bridge.cancel id, w.hearing.leave id⟩
    else none
  | .run =>
    match w.bridge.queue with
    | [] => none
    | task :: rest => some (w.perform task rest)

/-- A subscriber who is there has got every event from its first one on, each once and in order; the events that
nobody has heard are parked. -/
structure Faithful (w : World) : Prop where
  heard : ∀ id first, (id, first) ∈ w.hearing.subscribers →
    ∃ c, w.bridge.IsLive c ∧ c.id = id ∧ c.yielded = w.hearing.log.drop first
  parked : w.bridge.parked = w.hearing.log.drop w.hearing.heard

/-- An event that is to be parked finds room. -/
def Fits (w : World) : Label → Prop
  | .run => ∀ event rest, w.bridge.queue = .event event :: rest → w.bridge.continuations = [] →
      w.bridge.parked.length < parkedMax
  | _ => True

/-- No event runs while the map holds only continuations that are cancelled. -/
def Heeds (w : World) : Label → Prop
  | .run => ∀ event rest, w.bridge.queue = .event event :: rest → w.bridge.continuations ≠ [] →
      ∃ c, w.bridge.IsLive c
  | _ => True

/-! ### The books of the bridge -/

/-- What holds in every state: who is there, the marks lie in the log, and no removal on the queue concerns anyone who
is there. -/
structure Kept (w : World) : Prop where
  live : ∀ id, (∃ first, (id, first) ∈ w.hearing.subscribers) ↔ ∃ c, w.bridge.IsLive c ∧ c.id = id
  first_le : ∀ id first, (id, first) ∈ w.hearing.subscribers → first ≤ w.hearing.log.length
  heard_le : w.hearing.heard ≤ w.hearing.log.length
  caught_up : w.hearing.subscribers ≠ [] → w.hearing.heard = w.hearing.log.length
  ids : ∀ c ∈ w.bridge.continuations, c.id ≤ w.bridge.nextId
  removals : ∀ id, .remove id ∈ w.bridge.queue → id ≤ w.bridge.nextId ∧ ∀ c, w.bridge.IsLive c → c.id ≠ id

theorem kept_start : Kept {} := by
  constructor <;> simp [Bridge.IsLive]

/-- Somebody is there exactly when the map has a continuation that is not cancelled. -/
theorem Kept.subscribers_ne {w : World} (h : w.Kept) : w.hearing.subscribers ≠ [] ↔ ∃ c, w.bridge.IsLive c := by
  constructor
  · intro hne
    obtain ⟨⟨id, first⟩, hmem⟩ := List.exists_mem_of_ne_nil _ hne
    obtain ⟨c, hc, -⟩ := (h.live id).1 ⟨first, hmem⟩
    exact ⟨c, hc⟩
  · rintro ⟨c, hc⟩ hnil
    obtain ⟨first, hmem⟩ := (h.live c.id).2 ⟨c, hc, rfl⟩
    rw [hnil] at hmem
    cases hmem

/-- A task that is put on the queue. -/
private theorem Kept.enqueue {w : World} (h : w.Kept) {task : Task} (htask : ∀ id, task ≠ .remove id) :
    Kept { w with bridge := { w.bridge with queue := w.bridge.queue ++ [task] } } where
  live := h.live
  first_le := h.first_le
  heard_le := h.heard_le
  caught_up := h.caught_up
  ids := h.ids
  removals := by
    intro id hid
    rcases List.mem_append.1 hid with hid | hid
    · exact h.removals id hid
    · exact absurd (List.mem_singleton.1 hid).symm (htask id)

private theorem mem_leave {h : Hearing} {id id' first : Nat} :
    (id', first) ∈ (h.leave id).subscribers ↔ (id', first) ∈ h.subscribers ∧ id' ≠ id := by
  unfold Hearing.leave
  rw [List.mem_filter, decide_eq_true_eq]

private theorem Kept.cancel {w : World} (h : w.Kept) {id : Nat} (hid : ∃ c ∈ w.bridge.continuations, c.id = id) :
    Kept ⟨w.bridge.cancel id, w.hearing.leave id⟩ where
  live := by
    intro id'
    constructor
    · rintro ⟨first, hmem⟩
      obtain ⟨hmem, hne⟩ := mem_leave.1 hmem
      obtain ⟨c, hc, hcid⟩ := (h.live id').1 ⟨first, hmem⟩
      exact ⟨c, Bridge.isLive_cancel.2 ⟨hc, hcid ▸ hne⟩, hcid⟩
    · rintro ⟨c, hc, rfl⟩
      obtain ⟨hc, hne⟩ := Bridge.isLive_cancel.1 hc
      obtain ⟨first, hmem⟩ := (h.live c.id).2 ⟨c, hc, rfl⟩
      exact ⟨first, mem_leave.2 ⟨hmem, hne⟩⟩
  first_le := fun id' first hmem => h.first_le id' first (mem_leave.1 hmem).1
  heard_le := h.heard_le
  caught_up := by
    intro hne
    refine h.caught_up ?_
    intro hnil
    refine hne ?_
    change w.hearing.subscribers.filter _ = []
    rw [hnil]
    rfl
  ids := by
    intro c hc
    obtain ⟨d, hd, rfl⟩ := List.mem_map.1 hc
    have hle := h.ids d hd
    split <;> exact hle
  removals := by
    intro id' hid'
    rcases List.mem_append.1 hid' with hold | hnew
    · obtain ⟨hle, hothers⟩ := h.removals id' hold
      exact ⟨hle, fun c hc => hothers c (Bridge.isLive_cancel.1 hc).1⟩
    · have heq : id' = id := by
        have htask := List.mem_singleton.1 hnew
        cases htask
        rfl
      subst heq
      obtain ⟨c, hc, hcid⟩ := hid
      exact ⟨hcid ▸ h.ids c hc, fun d hd => (Bridge.isLive_cancel.1 hd).2⟩

/-! ### The tasks of the queue -/

private theorem Kept.event {w : World} (h : w.Kept) {event : CoreEvent} {rest : List Task}
    (hq : w.bridge.queue = .event event :: rest) : (w.perform (.event event) rest).Kept := by
  let b : Bridge := { w.bridge with queue := rest }
  obtain ⟨hqueue, hnext, hmap⟩ := b.deliver_frame event
  have hlive := b.exists_live_deliver event
  constructor
  · intro id
    exact (h.live id).trans (hlive id).symm
  · intro id first hmem
    have hle := h.first_le id first hmem
    change first ≤ (w.hearing.log ++ [event]).length
    rw [List.length_append, List.length_singleton]
    omega
  · have hle := h.heard_le
    change (if w.hearing.subscribers = [] then _ else _) ≤ (w.hearing.log ++ [event]).length
    rw [List.length_append, List.length_singleton]
    split <;> omega
  · intro hne
    have hsomebody : w.hearing.subscribers ≠ [] := hne
    change (if w.hearing.subscribers = [] then _ else _) = (w.hearing.log ++ [event]).length
    rw [if_neg hsomebody, List.length_append, List.length_singleton]
  · intro c hc
    have hid : c.id ∈ w.bridge.continuations.map Continuation.id := by
      rw [← hmap]
      exact List.mem_map_of_mem hc
    obtain ⟨d, hd, heq⟩ := List.mem_map.1 hid
    have hle := h.ids d hd
    change c.id ≤ (b.deliver event).nextId
    rw [hnext, ← heq]
    exact hle
  · intro id hid
    have hrest : .remove id ∈ b.queue := by
      rw [← hqueue]
      exact hid
    obtain ⟨hle, hothers⟩ := h.removals id (by rw [hq]; exact List.mem_cons_of_mem _ hrest)
    refine ⟨?_, ?_⟩
    · change id ≤ (b.deliver event).nextId
      rw [hnext]
      exact hle
    · intro c hc hcid
      obtain ⟨d, hd, hdid⟩ := (hlive id).1 ⟨c, hc, hcid⟩
      exact hothers d hd hdid

private theorem Kept.register {w : World} (h : w.Kept) {rest : List Task} (hq : w.bridge.queue = .register :: rest) :
    (w.perform .register rest).Kept := by
  have hsubscribers : ∀ id first, (id, first) ∈ (w.perform .register rest).hearing.subscribers ↔
      (id, first) ∈ w.hearing.subscribers ∨ (id = w.bridge.nextId + 1 ∧ first = w.hearing.heard) := by
    intro id first
    change (id, first) ∈ w.hearing.subscribers ++ [_] ↔ _
    rw [List.mem_append, List.mem_singleton, Prod.mk.injEq]
  constructor
  · intro id
    constructor
    · rintro ⟨first, hmem⟩
      rcases (hsubscribers id first).1 hmem with hold | ⟨rfl, -⟩
      · obtain ⟨c, hc, hid⟩ := (h.live id).1 ⟨first, hold⟩
        exact ⟨c, Bridge.isLive_register.2 (.inl hc), hid⟩
      · exact ⟨_, Bridge.isLive_register.2 (.inr rfl), rfl⟩
    · rintro ⟨c, hc, rfl⟩
      rcases Bridge.isLive_register.1 hc with hold | rfl
      · obtain ⟨first, hmem⟩ := (h.live c.id).2 ⟨c, hold, rfl⟩
        exact ⟨first, (hsubscribers c.id first).2 (.inl hmem)⟩
      · exact ⟨w.hearing.heard, (hsubscribers _ _).2 (.inr ⟨rfl, rfl⟩)⟩
  · intro id first hmem
    rcases (hsubscribers id first).1 hmem with hold | ⟨-, rfl⟩
    · exact h.first_le id first hold
    · exact h.heard_le
  · exact Nat.le_refl _
  · exact fun _ => rfl
  · intro c hc
    rcases List.mem_append.1 hc with hold | hnew
    · exact Nat.le_succ_of_le (h.ids c hold)
    · rw [List.mem_singleton.1 hnew]
      exact Nat.le_refl _
  · intro id hid
    obtain ⟨hle, hothers⟩ := h.removals id (by rw [hq]; exact List.mem_cons_of_mem _ hid)
    refine ⟨Nat.le_succ_of_le hle, ?_⟩
    intro c hc
    rcases Bridge.isLive_register.1 hc with hold | rfl
    · exact hothers c hold
    · dsimp only
      omega

private theorem Kept.remove {w : World} (h : w.Kept) {id : Nat} {rest : List Task}
    (hq : w.bridge.queue = .remove id :: rest) : (w.perform (.remove id) rest).Kept := by
  obtain ⟨-, hgone⟩ := h.removals id (by rw [hq]; exact List.mem_cons_self)
  have hlive : ∀ c, (w.perform (.remove id) rest).bridge.IsLive c ↔ w.bridge.IsLive c := by
    intro c
    refine Bridge.isLive_remove.trans ?_
    exact and_iff_left_of_imp (hgone c)
  constructor
  · intro id'
    refine (h.live id').trans ?_
    exact exists_congr fun c => and_congr_left' (hlive c).symm
  · exact h.first_le
  · exact h.heard_le
  · exact h.caught_up
  · exact fun c hc => h.ids c (List.mem_of_mem_filter hc)
  · intro id' hid'
    obtain ⟨hle, hothers⟩ := h.removals id' (by rw [hq]; exact List.mem_cons_of_mem _ hid')
    exact ⟨hle, fun c hc => hothers c ((hlive c).1 hc)⟩

theorem Kept.step {w w' : World} (h : w.Kept) {l : Label} (hstep : World.step w l = some w') : w'.Kept := by
  cases l with
  | deliver event =>
    cases hstep
    exact h.enqueue fun id hid => by cases hid
  | subscribe =>
    cases hstep
    exact h.enqueue fun id hid => by cases hid
  | cancel id =>
    unfold World.step at hstep
    dsimp only at hstep
    split at hstep
    · rename_i hany
      cases hstep
      obtain ⟨c, hc, hid⟩ := List.any_eq_true.1 hany
      rw [Bool.and_eq_true, beq_iff_eq] at hid
      exact h.cancel ⟨c, hc, hid.1⟩
    · cases hstep
  | run =>
    unfold World.step at hstep
    dsimp only at hstep
    split at hstep
    · cases hstep
    · rename_i task rest hq
      cases hstep
      cases task with
      | event event => exact h.event hq
      | register => exact h.register hq
      | remove id => exact h.remove hq

/-! ### Faithful runs -/

/-- The events that wait on the queue. -/
def waiting (queue : List Task) : List CoreEvent :=
  queue.filterMap fun task =>
    match task with
    | .event event => some event
    | _ => none

/-- The events that were delivered. -/
def delivered (labels : List Label) : List CoreEvent :=
  labels.filterMap fun l =>
    match l with
    | .deliver event => some event
    | _ => none

private theorem Faithful.cancel {w : World} (h : w.Faithful) (id : Nat) :
    Faithful ⟨w.bridge.cancel id, w.hearing.leave id⟩ where
  heard := by
    intro id' first hmem
    obtain ⟨hmem, hne⟩ := mem_leave.1 hmem
    obtain ⟨c, hc, hcid, hyielded⟩ := h.heard id' first hmem
    exact ⟨c, Bridge.isLive_cancel.2 ⟨hc, hcid ▸ hne⟩, hcid, hyielded⟩
  parked := h.parked

private theorem Faithful.register {w : World} (h : w.Faithful) (rest : List Task) :
    (w.perform .register rest).Faithful where
  heard := by
    intro id first hmem
    rcases List.mem_append.1 hmem with hold | hnew
    · obtain ⟨c, hc, hcid, hyielded⟩ := h.heard id first hold
      exact ⟨c, Bridge.isLive_register.2 (.inl hc), hcid, hyielded⟩
    · cases List.mem_singleton.1 hnew
      exact ⟨_, Bridge.isLive_register.2 (.inr rfl), rfl, h.parked⟩
  parked := (List.drop_length).symm

private theorem Faithful.remove {w : World} (hkept : w.Kept) (h : w.Faithful) {id : Nat} {rest : List Task}
    (hq : w.bridge.queue = .remove id :: rest) : (w.perform (.remove id) rest).Faithful where
  heard := by
    intro id' first hmem
    obtain ⟨c, hc, hcid, hyielded⟩ := h.heard id' first hmem
    obtain ⟨-, hgone⟩ := hkept.removals id (by rw [hq]; exact List.mem_cons_self)
    exact ⟨c, Bridge.isLive_remove.2 ⟨hc, hgone c hc⟩, hcid, hyielded⟩
  parked := h.parked

/-- The event of the queue, run while nobody is there: it is parked where the map is empty, and lost otherwise. -/
private theorem event_unheard {w : World} (hkept : w.Kept) (h : w.Faithful) {event : CoreEvent} {rest : List Task}
    (hnobody : w.hearing.subscribers = []) (hfits : w.bridge.continuations = [] → w.bridge.parked.length < parkedMax) :
    (w.perform (.event event) rest).Faithful ↔ w.bridge.continuations = [] := by
  have hlog : (w.perform (.event event) rest).hearing.log = w.hearing.log ++ [event] := rfl
  have hheard : (w.perform (.event event) rest).hearing.heard = w.hearing.heard := by
    change (if w.hearing.subscribers = [] then _ else _) = _
    rw [if_pos hnobody]
  have hideal : (w.perform (.event event) rest).hearing.log.drop (w.perform (.event event) rest).hearing.heard =
      w.bridge.parked ++ [event] := by
    rw [hlog, hheard, List.drop_append_of_le_length hkept.heard_le, h.parked]
  by_cases hnil : w.bridge.continuations = []
  · refine iff_of_true ⟨?_, ?_⟩ hnil
    · intro id first hmem
      change (id, first) ∈ w.hearing.subscribers at hmem
      rw [hnobody] at hmem
      cases hmem
    · rw [hideal]
      change (Bridge.deliver { w.bridge with queue := rest } event).parked = _
      have hroom := hfits hnil
      unfold Bridge.deliver
      dsimp only
      rw [if_pos hnil]
      dsimp only
      rw [List.length_append, List.length_singleton]
      have hzero : w.bridge.parked.length + 1 - parkedMax = 0 := by omega
      rw [hzero, List.drop_zero]
  · refine iff_of_false ?_ hnil
    intro hfaithful
    have hparked := hfaithful.parked
    rw [hideal] at hparked
    have hsame : (w.perform (.event event) rest).bridge.parked = w.bridge.parked := by
      change (Bridge.deliver { w.bridge with queue := rest } event).parked = _
      unfold Bridge.deliver
      dsimp only
      rw [if_neg hnil]
    rw [hsame] at hparked
    have hlength := congrArg List.length hparked
    rw [List.length_append, List.length_singleton] at hlength
    omega

/-- The event of the queue, run while somebody is there. -/
private theorem event_heard {w : World} (hkept : w.Kept) (h : w.Faithful) {event : CoreEvent} {rest : List Task}
    (hsomebody : w.hearing.subscribers ≠ []) : (w.perform (.event event) rest).Faithful := by
  obtain ⟨c, hc, -⟩ := hkept.subscribers_ne.1 hsomebody
  have hne : w.bridge.continuations ≠ [] := List.ne_nil_of_mem hc
  constructor
  · intro id first hmem
    obtain ⟨d, hd, hid, hyielded⟩ := h.heard id first hmem
    let b : Bridge := { w.bridge with queue := rest }
    have hlive : (b.deliver event).IsLive { d with yielded := d.yielded ++ [event] } :=
      (Bridge.isLive_deliver (b := b) hne).2 ⟨d, hd, rfl⟩
    refine ⟨_, hlive, hid, ?_⟩
    change d.yielded ++ [event] = (w.hearing.log ++ [event]).drop first
    rw [hyielded, List.drop_append_of_le_length (hkept.first_le id first hmem)]
  · have hempty : w.bridge.parked = [] := by
      rw [h.parked, hkept.caught_up hsomebody, List.drop_length]
    change (Bridge.deliver { w.bridge with queue := rest } event).parked =
      (w.hearing.log ++ [event]).drop (if w.hearing.subscribers = [] then _ else _)
    unfold Bridge.deliver
    dsimp only
    rw [if_neg hne, if_neg hsomebody]
    dsimp only
    rw [hempty, List.drop_of_length_le]
    rw [List.length_append, List.length_singleton]

/-- A step keeps the bridge faithful exactly when it heeds the event it runs. -/
theorem Faithful.step_iff {w w' : World} (hkept : w.Kept) (h : w.Faithful) {l : Label} (hfits : w.Fits l)
    (hstep : w.step l = some w') : w'.Faithful ↔ w.Heeds l := by
  cases l with
  | deliver event =>
    cases hstep
    exact iff_of_true ⟨h.heard, h.parked⟩ trivial
  | subscribe =>
    cases hstep
    exact iff_of_true ⟨h.heard, h.parked⟩ trivial
  | cancel id =>
    unfold World.step at hstep
    dsimp only at hstep
    split at hstep
    · cases hstep
      exact iff_of_true (h.cancel id) trivial
    · cases hstep
  | run =>
    unfold World.step at hstep
    dsimp only at hstep
    split at hstep
    · cases hstep
    · rename_i task rest hq
      cases hstep
      cases task with
      | register =>
        refine iff_of_true (h.register rest) ?_
        intro event rest' hq'
        rw [hq] at hq'
        cases hq'
      | remove id =>
        refine iff_of_true (h.remove hkept hq) ?_
        intro event rest' hq'
        rw [hq] at hq'
        cases hq'
      | event event =>
        have hheeds : w.Heeds .run ↔ (w.bridge.continuations ≠ [] → ∃ c, w.bridge.IsLive c) := by
          constructor
          · exact fun hall => hall event rest hq
          · intro hsome event' rest' _
            exact hsome
        rw [hheeds, ← hkept.subscribers_ne]
        by_cases hnobody : w.hearing.subscribers = []
        · rw [event_unheard hkept h hnobody (hfits event rest hq)]
          constructor
          · exact fun hnil hne => absurd hnil hne
          · intro himp
            by_contra hne
            exact himp hne hnobody
        · exact iff_of_true (event_heard hkept h hnobody) fun _ => hnobody

/-- The tasks run in the order in which they were put on the queue. -/
theorem delivered_eq {labels : List Label} {w : World} (hrun : exec World.step {} labels = some w) :
    delivered labels = w.hearing.log ++ waiting w.bridge.queue := by
  refine exec_history World.step (P := fun labels w => delivered labels = w.hearing.log ++ waiting w.bridge.queue) rfl ?_
    hrun
  intro labels t l t' _ ih hstep
  have hsnoc : delivered (labels ++ [l]) = delivered labels ++ delivered [l] := List.filterMap_append
  rw [hsnoc, ih]
  cases l with
  | deliver event =>
    cases hstep
    change _ = t.hearing.log ++ waiting (t.bridge.queue ++ [.event event])
    unfold waiting
    rw [List.filterMap_append, List.append_assoc]
    rfl
  | subscribe =>
    cases hstep
    change _ = t.hearing.log ++ waiting (t.bridge.queue ++ [.register])
    unfold waiting
    rw [List.filterMap_append, List.append_assoc]
    rfl
  | cancel id =>
    unfold World.step at hstep
    dsimp only at hstep
    split at hstep
    · cases hstep
      change _ = t.hearing.log ++ waiting (t.bridge.queue ++ [.remove id])
      unfold waiting
      rw [List.filterMap_append, List.append_assoc]
      rfl
    · cases hstep
  | run =>
    unfold World.step at hstep
    dsimp only at hstep
    split at hstep
    · cases hstep
    · rename_i task rest hq
      cases hstep
      rw [hq]
      cases task with
      | event event =>
        let b : Bridge := { t.bridge with queue := rest }
        obtain ⟨hqueue, -⟩ := b.deliver_frame event
        change t.hearing.log ++ (event :: waiting rest) ++ [] = t.hearing.log ++ [event] ++ waiting (b.deliver event).queue
        rw [hqueue, List.append_nil, List.append_assoc]
        rfl
      | register => exact List.append_nil _
      | remove id => exact List.append_nil _

/-- The delivered events are run in their order; and as long as no event that is to be parked lacks room, every
subscriber who is there hears each event once and in order, and the next one what nobody has heard, if and only if no
event runs while all continuations of the map are cancelled. -/
theorem bridge_faithful {labels : List Label} {w : World} (hrun : exec World.step {} labels = some w)
    (hfits : Meets World.step World.Fits {} labels) :
    delivered labels = w.hearing.log ++ waiting w.bridge.queue ∧
      ((∀ before t, before <+: labels → exec World.step {} before = some t → t.Faithful) ↔
        Meets World.step World.Heeds {} labels) := by
  have hstart : Faithful {} := by
    refine ⟨?_, rfl⟩
    intro id first hmem
    cases hmem
  refine ⟨delivered_eq hrun, ?_⟩
  refine always_iff World.step (I := Kept) (P := Faithful) ?_ ?_ kept_start hstart hfits hrun
  · exact fun t l t' hkept hstep => hkept.step hstep
  · exact fun t l t' hkept h hroom hstep => h.step_iff hkept hroom hstep

/-- An event before anyone is there, a subscriber, and an event for it. -/
private def heardRun : List Label :=
  [.deliver (.connection .connecting), .run, .subscribe, .run, .deliver (.connection .open), .run]

theorem bridge_faithful_heard :
    ∃ w, exec World.step {} heardRun = some w ∧ delivered heardRun = w.hearing.log ++ waiting w.bridge.queue ∧
      w.Faithful := by
  have hfits : Meets World.step World.Fits {} heardRun := by
    refine .cons _ rfl trivial (.cons _ rfl ?_ (.cons _ rfl trivial (.cons _ rfl ?_ (.cons _ rfl trivial
      (.cons _ rfl ?_ trivial)))))
    · exact fun _ _ _ _ => by decide
    · intro event rest hq
      cases hq
    · intro event rest _ hnil
      cases hnil
  have hheeds : Meets World.step World.Heeds {} heardRun := by
    refine .cons _ rfl trivial (.cons _ rfl ?_ (.cons _ rfl trivial (.cons _ rfl ?_ (.cons _ rfl trivial
      (.cons _ rfl ?_ trivial)))))
    · exact fun _ _ _ hne => absurd rfl hne
    · intro event rest hq
      cases hq
    · exact fun _ _ _ _ => ⟨_, List.mem_singleton_self _, rfl⟩
  have hrun : exec World.step {} heardRun = some _ := rfl
  obtain ⟨hdelivered, hfaithful⟩ := bridge_faithful hrun hfits
  exact ⟨_, rfl, hdelivered, hfaithful.2 hheeds heardRun _ (List.prefix_refl _) rfl⟩

/-- A consumer is cancelled while an event waits on the queue. -/
private def lostRun : List Label := [.subscribe, .run, .deliver (.connection .open), .cancel 1, .run]

/-- The event runs before the removal: nobody is there, and it is not parked. -/
theorem event_lost :
    ∃ w, exec World.step {} lostRun = some w ∧ Meets World.step World.Fits {} lostRun ∧ ¬ w.Faithful := by
  refine ⟨_, rfl, ?_, ?_⟩
  · refine .cons _ rfl trivial (.cons _ rfl ?_ (.cons _ rfl trivial (.cons _ rfl trivial (.cons _ rfl ?_ trivial))))
    · intro event rest hq
      cases hq
    · intro event rest _ hnil
      cases hnil
  · intro h
    have hparked := congrArg List.length h.parked
    cases hparked

end World

end Hermo.EventSinkBridge
