import Hermo.Rpc.Client

/-!
# What a step of a client task does

The steps of every party by name, and `Effect`: whatever task takes it, a step is a part of a close, `mark_open`, a
response, a step of a call, or leaves alone the state, its lock, the pending map and the answers.
-/

namespace Hermo.Rpc

/-! ### The parties -/

/-- The steps of a close. -/
inductive Closing.Step (reason : String) (lost : Closing) (finish : Shared → Shared) (s : Shared) :
    Closing → Shared → Closing → Prop where
  | loses {r : String} (hfree : s.closeLock = false) (h : s.state = .closed r) : Step reason lost finish s .check s lost
  | takes (hfree : s.closeLock = false) (h : ∀ r, s.state ≠ .closed r) :
      Step reason lost finish s .check { s with closeLock := true } .publish
  | publishes : Step reason lost finish s .publish { s with state := .closed reason, closeLock := false } .drain
  | drains : Step reason lost finish s .drain (s.failPending (.closed reason)) .finish
  | finishes : Step reason lost finish s .finish (finish s) .over

theorem Closing.step_of_next {c c' lost : Closing} {reason : String} {finish : Shared → Shared} {s s' : Shared}
    (h : c.next reason lost finish s = some (s', c')) : Closing.Step reason lost finish s c s' c' := by
  revert h
  fun_cases Closing.next c reason lost finish s <;> rintro ⟨⟩
  case case2 hfree r hclosed => exact .loses (by simpa using hfree) hclosed
  case case3 hfree hopen => exact .takes (by simpa using hfree) hopen
  all_goals constructor

/-- The steps of `shutdown`. -/
abbrev Shutdown (reason : String) (s : Shared) : Closing → Shared → Closing → Prop :=
  Closing.Step reason .drain (fun s => s.send (.closeNow reason)) s

/-- The steps of `connect`. -/
inductive ConnectPoint.Step (s : Shared) : ConnectPoint → Shared → ConnectPoint → List Task → Prop where
  | seesReady (h : s.ready = true) : Step s .waiting { s with ready := false } .opening []
  | timesOut : Step s .waiting s (.closing .check) []
  | opens : Step s .opening { s with state := .open } .opened []
  | returns : Step s .opened { s with connected := true } .returned [.heartbeat .sleeping]
  | closes {c c' : Closing} {s' : Shared} (h : Shutdown "gateway.ready not received" s c s' c') :
      Step s (.closing c) s' (.closing c') []

theorem ConnectPoint.step_of_next {s s' : Shared} {point point' : ConnectPoint} {input : Input} {spawns : List Task}
    (h : point.next s input = some (s', point', spawns)) : point.Step s s' point' spawns := by
  revert h
  fun_cases ConnectPoint.next s point input
  case case6 =>
    intro h
    obtain ⟨_, hnext, heq⟩ := Option.map_eq_some_iff.1 h
    cases heq
    exact .closes (Closing.step_of_next hnext)
  case case1 hready =>
    rintro ⟨⟩
    exact .seesReady hready
  all_goals
    rintro ⟨⟩ <;> constructor

/-- The steps of the reader. -/
inductive ReaderPoint.Step (s : Shared) : ReaderPoint → Shared → ReaderPoint → Prop where
  | ready : Step s .reading { s with ready := true } .reading
  | result (id : Nat) (value : Value) : Step s .reading (s.resolve id (.ok value)) .reading
  | error (id : Nat) (code : Int) (detail : String) :
      Step s .reading (s.resolve id (.error (.rpc code detail))) .reading
  | ends (reason : String) : Step s .reading s (.closing reason .check)
  | closes {reason : String} {c c' : Closing} {s' : Shared}
      (h : Closing.Step reason .drain (fun s => { s with aborted := true }) s c s' c') :
      Step s (.closing reason c) s' (.closing reason c')

theorem ReaderPoint.step_of_next {s s' : Shared} {point point' : ReaderPoint} {input : Input}
    (h : point.next s input = some (s', point')) : point.Step s s' point' := by
  revert h
  fun_cases ReaderPoint.next s point input
  case case6 =>
    intro h
    obtain ⟨_, hnext, heq⟩ := Option.map_eq_some_iff.1 h
    cases heq
    exact .closes (Closing.step_of_next hnext)
  all_goals
    rintro ⟨⟩ <;> constructor

/-- The steps of the writer. -/
inductive WriterPoint.Step (s : Shared) : WriterPoint → Shared → WriterPoint → Prop where
  | receives {msg : Outbound} {rest : List Outbound} : Step s .receiving { s with outbound := rest } (.sending msg)
  | sent {msg : Outbound} : Step s (.sending msg) s .receiving
  | fails {msg : Outbound} : Step s (.sending msg) s (.closing .check)
  | hangsUp {msg : Outbound} : Step s (.sending msg) s (.closing .finish)
  | cutOff : Step s .receiving s (.closing .finish)
  | closes {c c' : Closing} {s' : Shared}
      (h : Closing.Step ungracefulCloseReason .finish (fun s => { s with writerGone := true }) s c s' c') :
      Step s (.closing c) s' (.closing c')

theorem WriterPoint.step_of_next {s s' : Shared} {point point' : WriterPoint} {input : Input}
    (h : point.next s input = some (s', point')) : point.Step s s' point' := by
  revert h
  fun_cases WriterPoint.next s point input
  case case11 =>
    intro h
    obtain ⟨_, hnext, heq⟩ := Option.map_eq_some_iff.1 h
    cases heq
    exact .closes (Closing.step_of_next hnext)
  all_goals
    rintro ⟨⟩ <;> constructor

/-- The steps of the heartbeat. -/
inductive HeartbeatPoint.Step (s : Shared) : HeartbeatPoint → Shared → HeartbeatPoint → Prop where
  | ends : Step s .sleeping s .ended
  | wakes : Step s .sleeping s .judging
  | silent : Step s .judging s (.closing .check)
  | pings : Step s .judging (s.send .ping) .sleeping
  | closes {c c' : Closing} {s' : Shared} (h : Shutdown ungracefulCloseReason s c s' c') :
      Step s (.closing c) s' (.closing c')

theorem HeartbeatPoint.step_of_next {s s' : Shared} {point point' : HeartbeatPoint} {input : Input}
    (h : point.next s input = some (s', point')) : point.Step s s' point' := by
  revert h
  fun_cases HeartbeatPoint.next s point input
  case case5 =>
    intro h
    obtain ⟨_, hnext, heq⟩ := Option.map_eq_some_iff.1 h
    cases heq
    exact .closes (Closing.step_of_next hnext)
  all_goals
    rintro ⟨⟩ <;> constructor

/-- The steps of a call. -/
inductive CallPoint.Step (s : Shared) : CallPoint → Input → Shared → CallPoint → Prop where
  | refused {reason : String} (h : s.state = .closed reason) :
      Step s .checking .run s (.returned (.error (.closed reason)))
  | passes (h : ∀ r, s.state ≠ .closed r) : Step s .checking .run s .numbering
  | numbers : Step s .numbering .run { s with nextId := s.nextId + 1 } (.inserting s.nextId)
  | inserts {id : Nat} : Step s (.inserting id) .run { s with pending := s.pending.insert id } (.queueing id)
  | unheard {id : Nat} (h : s.writerGone = true) : Step s (.queueing id) .run s (.withdrawing id)
  | queues {id : Nat} (h : s.writerGone = false) : Step s (.queueing id) .run (s.send (.line id)) (.waiting id)
  | withdraws {id : Nat} :
      Step s (.withdrawing id) .run (s.remove id) (.returned (.error (.closed "writer task gone")))
  | answered {id : Nat} {outcome : Outcome} (h : s.answers id = some outcome) :
      Step s (.waiting id) .run s (.returned outcome)
  | timesOut {id : Nat} (h : s.answers id = none) : Step s (.waiting id) .timeout s (.expiring id)
  | expires {id : Nat} : Step s (.expiring id) .run (s.remove id) (.returned (.error .timeout))

theorem CallPoint.step_of_next {s s' : Shared} {point point' : CallPoint} {input : Input}
    (h : point.next s input = some (s', point')) : point.Step s input s' point' := by
  revert h
  fun_cases CallPoint.next s point input
  case case6 id hthere =>
    rintro ⟨⟩
    exact .queues (by simpa using hthere)
  case case8 =>
    intro h
    obtain ⟨outcome, hanswer, heq⟩ := Option.map_eq_some_iff.1 h
    cases heq
    exact .answered hanswer
  all_goals
    rintro ⟨⟩ <;> constructor <;> assumption

/-- The step of a task is the step of its party. -/
inductive Moves (s s' : Shared) (input : Input) : Task → Task → List Task → Prop where
  | connect {point point' : ConnectPoint} {spawns : List Task} (h : point.Step s s' point' spawns) :
      Moves s s' input (.connect point) (.connect point') spawns
  | reader {point point' : ReaderPoint} (h : point.Step s s' point') :
      Moves s s' input (.reader point) (.reader point') []
  | writer {point point' : WriterPoint} (h : point.Step s s' point') :
      Moves s s' input (.writer point) (.writer point') []
  | heartbeat {point point' : HeartbeatPoint} (h : point.Step s s' point') :
      Moves s s' input (.heartbeat point) (.heartbeat point') []
  | close {reason : String} {c c' : Closing} (h : Shutdown reason s c s' c') :
      Moves s s' input (.close reason c) (.close reason c') []
  | call {point point' : CallPoint} (h : point.Step s input s' point') :
      Moves s s' input (.call point) (.call point') []

theorem task_moves {s s' : Shared} {t t' : Task} {input : Input} {spawns : List Task}
    (h : t.next s input = some (s', t', spawns)) : Moves s s' input t t' spawns := by
  cases t with
  | connect point =>
    obtain ⟨_, hnext, heq⟩ := Option.map_eq_some_iff.1 h
    cases heq
    exact .connect (ConnectPoint.step_of_next hnext)
  | reader point =>
    obtain ⟨_, hnext, heq⟩ := Option.map_eq_some_iff.1 h
    cases heq
    exact .reader (ReaderPoint.step_of_next hnext)
  | writer point =>
    obtain ⟨_, hnext, heq⟩ := Option.map_eq_some_iff.1 h
    cases heq
    exact .writer (WriterPoint.step_of_next hnext)
  | heartbeat point =>
    obtain ⟨_, hnext, heq⟩ := Option.map_eq_some_iff.1 h
    cases heq
    exact .heartbeat (HeartbeatPoint.step_of_next hnext)
  | close reason c =>
    cases input with
    | run =>
      obtain ⟨_, hnext, heq⟩ := Option.map_eq_some_iff.1 h
      cases heq
      exact .close (Closing.step_of_next hnext)
    | _ => cases h
  | call point =>
    obtain ⟨_, hnext, heq⟩ := Option.map_eq_some_iff.1 h
    cases heq
    exact .call (CallPoint.step_of_next hnext)

/-- Only `connect` spawns a task, the heartbeat. -/
theorem task_spawns {s s' : Shared} {t t' : Task} {input : Input} {spawns : List Task}
    (h : t.next s input = some (s', t', spawns)) : ∀ u ∈ spawns, u = .heartbeat .sleeping := by
  cases task_moves h with
  | connect hstep =>
    cases hstep with
    | returns => exact fun u hu => List.mem_singleton.1 hu
    | _ => rintro u ⟨⟩
  | _ => rintro u ⟨⟩

/-! ### The effect of a step -/

/-- Where a task is in its close. -/
def Task.closing : Task → Option Closing
  | .connect (.closing c) => some c
  | .reader (.closing _ c) => some c
  | .writer (.closing c) => some c
  | .heartbeat (.closing c) => some c
  | .close _ c => some c
  | _ => none

/-- `fail_pending` is still ahead of the closer. -/
def Closing.willDrain : Closing → Bool
  | .check | .publish | .drain => true
  | .finish | .over => false

/-- `fail_pending` is still ahead of the task: of the reader always, of a closer that began, and of the writer when it
won the close. -/
def Task.willDrain : Task → Bool
  | .connect (.closing c) => c.willDrain
  | .reader .reading => true
  | .reader (.closing _ c) => c.willDrain
  | .writer (.closing c) => c == .publish || c == .drain
  | .heartbeat (.closing c) => c.willDrain
  | .close _ c => c.willDrain
  | _ => false

/-- The state, its lock, the pending map, the answers and the ids are left alone, and the writer does not come back. -/
structure Same (s s' : Shared) : Prop where
  state : s'.state = s.state
  closeLock : s'.closeLock = s.closeLock
  pending : s'.pending = s.pending
  answers : s'.answers = s.answers
  nextId : s'.nextId = s.nextId
  writerGone : s.writerGone = true → s'.writerGone = true

theorem Shared.same_send (s : Shared) (msg : Outbound) : Same s (s.send msg) := by
  unfold Shared.send
  split <;> exact ⟨rfl, rfl, rfl, rfl, rfl, id⟩

/-- The step of a task, by what it changes of the state, the pending map and the answers. -/
inductive Effect (s s' : Shared) (input : Input) : Task → Task → Prop where
  | closes {t t' : Task} {c c' lost : Closing} {reason : String} {finish : Shared → Shared}
      (hc : t.closing = some c) (hc' : t'.closing = some c') (h : Closing.Step reason lost finish s c s' c')
      (hfinish : ∀ s, Same s (finish s)) (hlost : lost = .drain ∨ lost = .finish)
      (hdrain : t.willDrain → t'.willDrain ∨ c = .drain) : Effect s s' input t t'
  | opens (h : s' = { s with state := .open }) : Effect s s' input (.connect .opening) (.connect .opened)
  | resolves (id : Nat) (outcome : Outcome) (hanswer : outcome ≠ .error .timeout) (h : s' = s.resolve id outcome) :
      Effect s s' input (.reader .reading) (.reader .reading)
  | calls {point point' : CallPoint} (h : point.Step s input s' point') :
      Effect s s' input (.call point) (.call point')
  | quiet {t t' : Task} (hsame : Same s s') (hc : t.closing = none) (hc' : ∀ c, t'.closing = some c → c ≠ .publish)
      (hcall : ∀ point, t' ≠ .call point) (hdrain : t.willDrain → t'.willDrain) : Effect s s' input t t'

/-- A closer that drains whether it won or lost. -/
private theorem willDrain_step {c c' : Closing} {reason : String} {finish : Shared → Shared} {s s' : Shared}
    (h : Closing.Step reason .drain finish s c s' c') : c.willDrain = true → c'.willDrain = true ∨ c = .drain := by
  cases h <;> decide

private theorem shutdown_effect {c c' : Closing} {reason : String} {input : Input} {s s' : Shared}
    (h : Shutdown reason s c s' c') {t t' : Task} (hc : t.closing = some c) (hc' : t'.closing = some c')
    (ht : t.willDrain = c.willDrain) (ht' : t'.willDrain = c'.willDrain) : Effect s s' input t t' := by
  refine .closes hc hc' h (fun s => s.same_send _) (.inl rfl) ?_
  rw [ht, ht']
  exact willDrain_step h

private theorem connect_effect {s s' : Shared} {point point' : ConnectPoint} {input : Input} {spawns : List Task}
    (h : point.Step s s' point' spawns) : Effect s s' input (.connect point) (.connect point') := by
  cases h with
  | opens => exact .opens rfl
  | closes hclose => exact shutdown_effect hclose rfl rfl rfl rfl
  | timesOut =>
    refine .quiet ⟨rfl, rfl, rfl, rfl, rfl, id⟩ rfl ?_ (by rintro _ ⟨⟩) (by rintro ⟨⟩)
    rintro c ⟨⟩ ⟨⟩
  | _ => exact .quiet ⟨rfl, rfl, rfl, rfl, rfl, id⟩ rfl (by rintro c ⟨⟩) (by rintro _ ⟨⟩) (by rintro ⟨⟩)

private theorem reader_effect {s s' : Shared} {point point' : ReaderPoint} {input : Input}
    (h : point.Step s s' point') : Effect s s' input (.reader point) (.reader point') := by
  cases h with
  | ready => exact .quiet ⟨rfl, rfl, rfl, rfl, rfl, id⟩ rfl (by rintro c ⟨⟩) (by rintro _ ⟨⟩) (fun _ => rfl)
  | result id value => exact .resolves id (.ok value) (by rintro ⟨⟩) rfl
  | error id code detail => exact .resolves id (.error (.rpc code detail)) (by rintro ⟨⟩) rfl
  | ends reason =>
    refine .quiet ⟨rfl, rfl, rfl, rfl, rfl, id⟩ rfl ?_ (by rintro _ ⟨⟩) (fun _ => rfl)
    rintro c ⟨⟩ ⟨⟩
  | closes hclose =>
    exact .closes rfl rfl hclose (fun s => ⟨rfl, rfl, rfl, rfl, rfl, id⟩) (.inl rfl) (willDrain_step hclose)

private theorem writer_effect {s s' : Shared} {point point' : WriterPoint} {input : Input}
    (h : point.Step s s' point') : Effect s s' input (.writer point) (.writer point') := by
  cases h with
  | closes hclose =>
    refine .closes rfl rfl hclose (fun s => ⟨rfl, rfl, rfl, rfl, rfl, fun _ => rfl⟩) (.inr rfl) ?_
    cases hclose <;> decide
  | fails | hangsUp | cutOff =>
    refine .quiet ⟨rfl, rfl, rfl, rfl, rfl, id⟩ rfl ?_ (by rintro _ ⟨⟩) (by rintro ⟨⟩)
    rintro c ⟨⟩ ⟨⟩
  | _ => exact .quiet ⟨rfl, rfl, rfl, rfl, rfl, id⟩ rfl (by rintro c ⟨⟩) (by rintro _ ⟨⟩) (by rintro ⟨⟩)

private theorem heartbeat_effect {s s' : Shared} {point point' : HeartbeatPoint} {input : Input}
    (h : point.Step s s' point') : Effect s s' input (.heartbeat point) (.heartbeat point') := by
  cases h with
  | pings => exact .quiet (s.same_send .ping) rfl (by rintro c ⟨⟩) (by rintro _ ⟨⟩) (by rintro ⟨⟩)
  | closes hclose => exact shutdown_effect hclose rfl rfl rfl rfl
  | silent =>
    refine .quiet ⟨rfl, rfl, rfl, rfl, rfl, id⟩ rfl ?_ (by rintro _ ⟨⟩) (by rintro ⟨⟩)
    rintro c ⟨⟩ ⟨⟩
  | _ => exact .quiet ⟨rfl, rfl, rfl, rfl, rfl, id⟩ rfl (by rintro c ⟨⟩) (by rintro _ ⟨⟩) (by rintro ⟨⟩)

theorem task_effect {s s' : Shared} {t t' : Task} {input : Input} {spawns : List Task}
    (h : t.next s input = some (s', t', spawns)) : Effect s s' input t t' := by
  cases task_moves h with
  | connect hstep => exact connect_effect hstep
  | reader hstep => exact reader_effect hstep
  | writer hstep => exact writer_effect hstep
  | heartbeat hstep => exact heartbeat_effect hstep
  | close hclose => exact shutdown_effect hclose rfl rfl rfl rfl
  | call hstep => exact .calls hstep

end Hermo.Rpc
