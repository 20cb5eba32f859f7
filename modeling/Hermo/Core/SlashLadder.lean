import Hermo.Core.HistoryEpoch
import Hermo.Core.Operations
import Hermo.Library.Run

/-!
# The slash ladder

`run_slash` among the lock sections of all other tasks, for any answers of the gateway.  `Point.Stands` bounds what was
called when the ladder is at a point, `stands_next` keeps it, and `slash_ladder` reads off it that the ladder ends, and
off the log of its steps what a `command.dispatch` and a user row follow on.
-/

namespace Hermo.Operations

open Run Rpc

namespace Point

def isExecuting : Point → Bool
  | .executing _ _ _ => true
  | _ => false

def isDispatching : Point → Bool
  | .dispatching _ _ _ _ => true
  | _ => false

def isSubmitting : Point → Bool
  | .submitting _ _ _ _ _ => true
  | _ => false

def isReturned : Point → Bool
  | .returned _ => true
  | _ => false

/-- The ladder goes on with this input: any answer of the call that is out. -/
def awaits : Point → Input → Bool
  | .call _, .disk _ | .ladder _ _ _, .run | .executing _ _ _, .executed _ | .dispatching _ _ _ _, .dispatched _
  | .slashSubmit _ _ _, .run | .submitting _ _ _ _ _, .submitted _ => true
  | _, _ => false

/-- What a slash command of the session has called when it is at a point, and the number of its steps. -/
def Stands (key : String) (execs dispatches submits steps : Nat) : Point → Prop
  | .call (.runSlash key' _) => key' = key ∧ execs = 0 ∧ dispatches = 0 ∧ submits = 0 ∧ steps = 0
  | .ladder key' _ hop =>
    key' = key ∧ hop ≤ maxAliasHops ∧ execs = hop ∧ dispatches = hop ∧ submits = 0 ∧ steps = 3 * hop
  | .executing key' _ hop =>
    key' = key ∧ hop ≤ maxAliasHops ∧ execs = hop + 1 ∧ dispatches = hop ∧ submits = 0 ∧ steps = 3 * hop + 1
  | .dispatching key' _ _ hop =>
    key' = key ∧ hop ≤ maxAliasHops ∧ execs = hop + 1 ∧ dispatches = hop + 1 ∧ submits = 0 ∧ steps = 3 * hop + 2
  | .slashSubmit key' _ _ => key' = key ∧ execs ≤ 9 ∧ dispatches ≤ 9 ∧ submits = 0 ∧ steps ≤ 27
  | .submitting key' _ _ _ _ => key' = key ∧ execs ≤ 9 ∧ dispatches ≤ 9 ∧ submits = 1 ∧ steps ≤ 28
  | .returned _ => execs ≤ 9 ∧ dispatches ≤ 9 ∧ submits ≤ 1 ∧ steps ≤ 29
  | _ => False

end Point

/-! ### One step of the ladder -/

section

variable [Serializer]

/-- What a step of a slash command does: every other answer ends it and changes nothing. -/
inductive Climbs (s : CoreState) (key : String) : Point → Input → Point → CoreState → Prop where
  | start {command : String} {written : Bool} :
      Climbs s key (.call (.runSlash key command)) (.disk written) (.executing key command 0) s
  | again {command : String} {hop : Nat} :
      Climbs s key (.ladder key command hop) .run (.executing key command hop) s
  | fallback {command detail : String} {hop : Nat} :
      Climbs s key (.executing key command hop) (.executed (.error (.rpc 4018 detail)))
        (.dispatching key (splitNameArg command).1 (splitNameArg command).2 hop) s
  | follow {name arg target : String} {hop : Nat} {reply : Except ClientError DispatchOutcome}
      (h : hop < maxAliasHops) :
      Climbs s key (.dispatching key name arg hop) (.dispatched reply) (.ladder key target (hop + 1)) s
  | message {name arg message rowText : String} {hop : Nat} {reply : Except ClientError DispatchOutcome} :
      Climbs s key (.dispatching key name arg hop) (.dispatched reply) (.slashSubmit key message rowText) s
  | capture {message rowText : String} {live : LiveSession} (h : s.sessions.lookup key = some live) :
      Climbs s key (.slashSubmit key message rowText) .run
        (.submitting key message rowText live.historyEpoch (.slash .submitted)) s
  | submitted {message rowText : String} {historyEpoch : UInt64} {answer : Answer} {status : SubmitStatus}
      (h : status.accepted = true) :
      Climbs s key (.submitting key message rowText historyEpoch answer) (.submitted (.ok status))
        (.returned (.ok answer)) (s.appendUserRow key rowText historyEpoch).1
  | stop {p : Point} {input : Input} {result : Except CoreError Answer} (hp : p.isReturned = false)
      (h : ∀ key message rowText historyEpoch answer status, p = .submitting key message rowText historyEpoch answer →
        input = .submitted (.ok status) → status.accepted = false) :
      Climbs s key p input (.returned result) s

private theorem climbs_startLadder {s : Shared} {key command : String} {hop : Nat} {p : Point} {input : Input}
    (hreturned : p.isReturned = false) (hp : p.isSubmitting = false)
    (h : Climbs s.store.core key p input (.executing key command hop) s.store.core) :
    Climbs s.store.core key p input (.startLadder s key command hop) s.store.core := by
  have hstop : ∀ result, Climbs s.store.core key p input (.returned result) s.store.core := by
    intro result
    refine .stop hreturned ?_
    rintro _ _ _ _ _ _ rfl
    cases hp
  unfold Point.startLadder Point.withSession
  split
  · exact hstop _
  · split
    · exact hstop _
    · exact h

/-- Nothing else happens on the way of a slash command. -/
theorem next_climbs {s s' : Shared} {key : String} {p p' : Point} {input : Input} {execs dispatches submits steps : Nat}
    (hp : p.Stands key execs dispatches submits steps) (h : p.next s input = some (s', p')) :
    Climbs s.store.core key p input p' s'.store.core := by
  have hstop : ∀ result, p.isReturned = false → p.isSubmitting = false →
      Climbs s.store.core key p input (.returned result) s.store.core := by
    intro result hreturned hsubmitting
    refine .stop hreturned ?_
    rintro _ _ _ _ _ _ rfl
    cases hsubmitting
  cases p with
  | call op =>
    cases op with
    | runSlash key' command =>
      obtain ⟨rfl, -⟩ := hp
      cases input <;> cases h
      exact climbs_startLadder rfl rfl .start
    | _ => cases hp
  | ladder key' command hop =>
    obtain ⟨rfl, -⟩ := hp
    cases input <;> cases h
    exact climbs_startLadder rfl rfl .again
  | executing key' command hop =>
    obtain ⟨rfl, -⟩ := hp
    cases input <;> cases h
    rename_i reply
    unfold planAfterSlashExec
    split
    · exact hstop _ rfl rfl
    · exact hstop _ rfl rfl
    · exact .fallback
    · exact hstop _ rfl rfl
  | dispatching key' name arg hop =>
    obtain ⟨rfl, -⟩ := hp
    cases input with
    | dispatched reply =>
      cases reply with
      | error e =>
        cases h
        exact hstop _ rfl rfl
      | ok outcome =>
        cases h
        cases planFromDispatch outcome with
        | output text => exact hstop _ rfl rfl
        | prefill text => exact hstop _ rfl rfl
        | unknown => exact hstop _ rfl rfl
        | submit message display => exact .message
        | «alias» target =>
          unfold Point.afterDispatch
          dsimp only
          split
          · exact hstop _ rfl rfl
          · rename_i hlt
            exact .follow (Nat.lt_of_not_le hlt)
    | _ => cases h
  | slashSubmit key' message rowText =>
    obtain ⟨rfl, -⟩ := hp
    cases input <;> cases h
    split
    · exact hstop _ rfl rfl
    · rename_i live hl
      exact .capture hl
  | submitting key' message rowText historyEpoch answer =>
    obtain ⟨rfl, -⟩ := hp
    cases input with
    | submitted reply =>
      cases reply with
      | error e =>
        cases h
        exact .stop rfl nofun
      | ok status =>
        unfold Point.next at h
        dsimp only at h
        split at h
        · rename_i haccepted
          cases h
          exact .submitted haccepted
        · rename_i hother
          cases h
          refine .stop rfl ?_
          rintro _ _ _ _ _ _ - ⟨⟩
          simpa using hother
    | _ => cases h
  | returned result => cases input <;> cases h
  | _ => cases hp

omit [Serializer] in
private theorem Point.Stands.bounds {key : String} {execs dispatches submits steps : Nat} {p : Point}
    (h : p.Stands key execs dispatches submits steps) (hp : p.isReturned = false) :
    execs ≤ 9 ∧ dispatches ≤ 9 ∧ submits ≤ 1 ∧ steps ≤ 28 := by
  cases p with
  | returned result => cases hp
  | call op =>
    cases op with
    | runSlash key' command =>
      simp only [Stands] at h
      omega
    | _ => cases h
  | ladder | executing | dispatching =>
    simp only [Stands, maxAliasHops] at h
    omega
  | slashSubmit | submitting =>
    simp only [Stands] at h
    omega
  | _ => cases h

/-- A step counts the call it makes. -/
private theorem stands_next {s s' : CoreState} {key : String} {p p' : Point} {input : Input}
    {execs dispatches submits steps : Nat} (hp : p.Stands key execs dispatches submits steps)
    (h : Climbs s key p input p' s') :
    p'.Stands key (execs + if p'.isExecuting then 1 else 0) (dispatches + if p'.isDispatching then 1 else 0)
      (submits + if p'.isSubmitting then 1 else 0) (steps + 1) := by
  cases h with
  | stop hreturned =>
    have hbounds := hp.bounds hreturned
    simp only [Point.Stands, Point.isExecuting, Point.isDispatching, Point.isSubmitting, Bool.false_eq_true, if_false]
    omega
  | submitted =>
    have hbounds := hp.bounds rfl
    simp only [Point.Stands, Point.isExecuting, Point.isDispatching, Point.isSubmitting, Bool.false_eq_true, if_false]
    omega
  | _ =>
    simp only [Point.Stands, Point.isExecuting, Point.isDispatching, Point.isSubmitting, maxAliasHops,
      Bool.false_eq_true, if_false, if_true, true_and] at *
    omega

/-- Until it returns, a slash command changes nothing. -/
private theorem Climbs.after_eq {s s' : CoreState} {key : String} {p p' : Point} {input : Input}
    (h : Climbs s key p input p' s') (hp : p'.isReturned = false) : s' = s := by
  cases h with
  | submitted => cases hp
  | _ => rfl

/-- The epoch is that of the session when the message is submitted. -/
private theorem Climbs.captured {s s' : CoreState} {key key' message rowText : String} {historyEpoch : UInt64}
    {answer : Answer} {p : Point} {input : Input}
    (h : Climbs s key p input (.submitting key' message rowText historyEpoch answer) s') :
    ∃ live, (s.tab key).live = some live ∧ live.historyEpoch = historyEpoch := by
  cases h with
  | capture hl => exact ⟨_, hl, rfl⟩

/-! ### Runs -/

omit [Serializer] in
/-- A step of a slash command. -/
structure SlashCall where
  point : Point
  input : Input
  next : Point
  /-- The lock sections from the start of the core to the step before. -/
  prior : List Action
  /-- The lock sections of other tasks since the step before. -/
  during : List Action
  before : CoreState
  after : CoreState

structure SlashRun where
  shared : Shared
  point : Point
  prior : List Action
  during : List Action
  log : List SlashCall

/-- A lock section of another task, a client that comes or goes, or a step of the slash command. -/
inductive SlashMove where
  | act (a : Action)
  | client (installed : Bool)
  | answer (input : Input)

namespace SlashRun

def step (w : SlashRun) : SlashMove → Option SlashRun
  | .act a => some { w with shared := { w.shared with store := w.shared.store.act a }, during := w.during ++ [a] }
  | .client installed => some { w with shared := { w.shared with client := installed } }
  | .answer input =>
    (w.point.next w.shared input).map fun (s, p) =>
      { shared := s
        point := p
        prior := w.prior ++ w.during
        during := []
        log := w.log ++ [⟨w.point, input, p, w.prior, w.during, w.shared.store.core, s.store.core⟩] }

/-- The call of `run_slash` after any run of the core. -/
def start (registry : SessionRegistry) (before : List Action) (s : Shared) (key command : String) : SlashRun :=
  { shared := { s with store := { s.store with core := (CoreState.new registry).run before } }
    point := .call (.runSlash key command)
    prior := before
    during := []
    log := [] }

/-- The invariant of the runs. -/
structure Ladder (registry : SessionRegistry) (key : String) (w : SlashRun) : Prop where
  stands : w.point.Stands key (w.log.countP (·.next.isExecuting)) (w.log.countP (·.next.isDispatching))
    (w.log.countP (·.next.isSubmitting)) w.log.length
  core : w.point.isReturned = false → w.shared.store.core = (CoreState.new registry).run (w.prior ++ w.during)
  captured : ∀ key' message rowText historyEpoch answer,
    w.point = .submitting key' message rowText historyEpoch answer →
      ∃ live, (((CoreState.new registry).run w.prior).tab key).live = some live ∧ live.historyEpoch = historyEpoch
  climbs : ∀ e ∈ w.log, Climbs e.before key e.point e.input e.next e.after
  submits : ∀ e ∈ w.log, ∀ key' message rowText historyEpoch answer,
    e.point = .submitting key' message rowText historyEpoch answer →
      e.before = (CoreState.new registry).run (e.prior ++ e.during) ∧
        ∃ live, (((CoreState.new registry).run e.prior).tab key).live = some live ∧ live.historyEpoch = historyEpoch

private theorem ladder_start (registry : SessionRegistry) (before : List Action) (s : Shared) (key command : String) :
    (start registry before s key command).Ladder registry key := by
  refine ⟨⟨rfl, rfl, rfl, rfl, rfl⟩, fun _ => ?_, ?_, ?_, ?_⟩
  · change (CoreState.new registry).run before = (CoreState.new registry).run (before ++ [])
    rw [List.append_nil]
  · rintro _ _ _ _ _ ⟨⟩
  · intro e he
    cases he
  · intro e he
    cases he

private theorem ladder_step {registry : SessionRegistry} {key : String} {w w' : SlashRun} (h : w.Ladder registry key)
    (m : SlashMove) (hstep : w.step m = some w') : w'.Ladder registry key := by
  cases m with
  | act a =>
    cases hstep
    refine ⟨h.stands, fun hp => ?_, h.captured, h.climbs, h.submits⟩
    change (w.shared.store.core.act a).1 = (CoreState.new registry).run (w.prior ++ (w.during ++ [a]))
    rw [h.core hp, ← List.append_assoc, CoreState.run_append _ (w.prior ++ w.during)]
    rfl
  | client installed =>
    cases hstep
    exact ⟨h.stands, h.core, h.captured, h.climbs, h.submits⟩
  | answer input =>
    obtain ⟨⟨s, p⟩, hnext, rfl⟩ := Option.map_eq_some_iff.1 hstep
    have hclimbs := next_climbs h.stands hnext
    have hcore : w.shared.store.core = (CoreState.new registry).run (w.prior ++ w.during) := by
      refine h.core ?_
      cases hpoint : w.point with
      | returned result =>
        rw [hpoint] at hnext
        cases input <;> cases hnext
      | _ => rfl
    refine ⟨?_, ?_, ?_, ?_, ?_⟩
    · have hstands := stands_next h.stands hclimbs
      simpa only [List.countP_append, List.countP_singleton, List.length_append, List.length_singleton] using hstands
    · intro hp
      dsimp only at hp ⊢
      rw [List.append_nil, ← hcore]
      exact hclimbs.after_eq hp
    · rintro key' message rowText historyEpoch answer rfl
      rw [← hcore]
      exact hclimbs.captured
    · intro e he
      rcases List.mem_append.1 he with he | he
      · exact h.climbs e he
      · cases List.mem_singleton.1 he
        exact hclimbs
    · intro e he
      rcases List.mem_append.1 he with he | he
      · exact h.submits e he
      · cases List.mem_singleton.1 he
        exact fun key' message rowText historyEpoch answer hpoint =>
          ⟨hcore, h.captured key' message rowText historyEpoch answer hpoint⟩

/-- What holds of every run. -/
private theorem ladder_run {registry : SessionRegistry} {before : List Action} {s : Shared} {key command : String}
    {moves : List SlashMove} {w : SlashRun} (hrun : exec step (start registry before s key command) moves = some w) :
    w.Ladder registry key :=
  exec_preserves step (fun _ m _ h hstep => ladder_step h m hstep) (ladder_start registry before s key command) hrun

end SlashRun

/-! ### What a run tells -/

namespace SlashCall

/-- A user row of the session is appended in this step. -/
def Appends (e : SlashCall) (key : String) : Prop :=
  ∃ text, e.after.rowsOf key = e.before.rowsOf key ++ [⟨(e.before.rowsOf key).length, .user text⟩]

/-- The step is the answer `streaming` or `redirected` of a submit. -/
def Accepted (e : SlashCall) : Prop :=
  ∃ key message rowText historyEpoch answer status, e.point = .submitting key message rowText historyEpoch answer ∧
    e.input = .submitted (.ok status) ∧ (status = .streaming ∨ status = .redirected)

/-- The session is the one the epoch was captured from. -/
def Kept (e : SlashCall) (key : String) : Prop := ∀ a ∈ e.during, a.replaces key = false

/-- Between the last open or rebuild of the captured session and this step, the counter did not go round. -/
def EpochsFresh (e : SlashCall) (key : String) : Prop :=
  Generation.age Action.draws (Action.installs key) 0 e.prior + e.during.countP Action.draws < 2 ^ 64

end SlashCall

omit [Serializer] in
private theorem accepted_iff (status : SubmitStatus) :
    status.accepted = true ↔ status = .streaming ∨ status = .redirected := by
  cases status <;> simp [SubmitStatus.accepted]

omit [Serializer] in
private theorem not_appends {e : SlashCall} (h : e.after = e.before) (key : String) : ¬ e.Appends key := by
  rintro ⟨text, hrows⟩
  rw [h] at hrows
  exact absurd (congrArg List.length hrows) (by simp)

/-- The row is appended by an accepted submit, and only to the session the epoch was captured from. -/
private theorem appends_iff {registry : SessionRegistry} {key : String} {e : SlashCall}
    (hclimbs : Climbs e.before key e.point e.input e.next e.after)
    (hsubmit : ∀ key' message rowText historyEpoch answer,
      e.point = .submitting key' message rowText historyEpoch answer →
        e.before = (CoreState.new registry).run (e.prior ++ e.during) ∧
          ∃ live, (((CoreState.new registry).run e.prior).tab key).live = some live ∧
            live.historyEpoch = historyEpoch)
    (hfresh : e.EpochsFresh key) :
    (e.Appends key ↔ e.Accepted ∧ e.Kept key) ∧ (¬ e.Appends key → e.after = e.before) := by
  have hquiet : e.after = e.before → ¬ e.Accepted →
      (e.Appends key ↔ e.Accepted ∧ e.Kept key) ∧ (¬ e.Appends key → e.after = e.before) := by
    intro hsame hno
    exact ⟨iff_of_false (not_appends hsame key) fun h => hno h.1, fun _ => hsame⟩
  obtain ⟨point, input, next, prior, during, before, after⟩ := e
  dsimp only at hclimbs hsubmit hquiet
  cases hclimbs with
  | submitted haccepted =>
    rename_i message rowText historyEpoch answer status
    obtain ⟨hbefore, live, hlive, rfl⟩ := hsubmit key message rowText _ answer rfl
    have hstatus := (accepted_iff status).1 haccepted
    have happend : before.finishSubmit key rowText live.historyEpoch (some status) =
        before.appendUserRow key rowText live.historyEpoch := by
      unfold CoreState.finishSubmit
      dsimp only
      rw [if_pos haccepted]
    have hcases := CoreState.finishSubmit_cases before key rowText live.historyEpoch (some status)
    have hepoch := CoreState.epochOf_iff registry prior during hlive hfresh
    rw [← hbefore] at hepoch
    rw [happend, hepoch] at hcases
    rcases hcases with ⟨-, hkept, hrows⟩ | ⟨hno, hsame⟩
    · refine ⟨iff_of_true ⟨rowText, hrows⟩ ⟨?_, hkept⟩, fun h => absurd ⟨rowText, hrows⟩ h⟩
      exact ⟨_, _, _, _, _, _, rfl, rfl, hstatus⟩
    · have hafter := congrArg Prod.fst hsame
      refine ⟨iff_of_false (not_appends hafter key) ?_, fun _ => hafter⟩
      rintro ⟨-, hkept⟩
      exact hno ⟨by simpa using hstatus, hkept⟩
  | stop _ hstop =>
    refine hquiet rfl ?_
    rintro ⟨_, _, _, _, _, status, hpoint, hinput, hstatus⟩
    have hrefused := hstop _ _ _ _ _ status hpoint hinput
    rw [(accepted_iff status).2 hstatus] at hrefused
    cases hrefused
  | _ =>
    refine hquiet rfl ?_
    rintro ⟨_, _, _, _, _, _, hpoint, -⟩
    cases hpoint

/-- Until it returns, the ladder awaits something, and goes on with whatever comes. -/
private theorem awaits_next {key : String} {execs dispatches submits steps : Nat} {p : Point}
    (hp : p.Stands key execs dispatches submits steps) (hreturned : p.isReturned = false) (s : Shared) :
    (∃ input, p.awaits input = true) ∧ ∀ input, p.awaits input = true → (p.next s input).isSome := by
  cases p with
  | call op =>
    refine ⟨⟨.disk true, rfl⟩, ?_⟩
    intro input hinput
    cases input <;> first | rfl | cases hinput
  | ladder key' command hop =>
    refine ⟨⟨.run, rfl⟩, ?_⟩
    intro input hinput
    cases input <;> first | rfl | cases hinput
  | executing key' command hop =>
    refine ⟨⟨.executed (.ok .null), rfl⟩, ?_⟩
    intro input hinput
    cases input <;> first | rfl | cases hinput
  | dispatching key' name arg hop =>
    refine ⟨⟨.dispatched (.ok .unknown), rfl⟩, ?_⟩
    intro input hinput
    cases input with
    | dispatched reply => cases reply <;> rfl
    | _ => cases hinput
  | slashSubmit key' message rowText =>
    refine ⟨⟨.run, rfl⟩, ?_⟩
    intro input hinput
    cases input <;> first | rfl | cases hinput
  | submitting key' message rowText historyEpoch answer =>
    refine ⟨⟨.submitted (.ok .streaming), rfl⟩, ?_⟩
    intro input hinput
    cases input with
    | submitted reply =>
      cases reply with
      | error e => rfl
      | ok status =>
        unfold Point.next
        dsimp only
        split <;> rfl
    | _ => cases hinput
  | returned result => cases hreturned
  | _ => cases hp

/-- Whatever the gateway answers and whatever runs in between, a slash command makes at most 9 `slash.exec`, 9
`command.dispatch` and one `prompt.submit`; it is never stuck, and it has returned after 29 steps.  A
`command.dispatch` follows on a 4018 for the same command.  A user row is appended exactly by a submit that was
accepted, as long as the session was not opened again, rebuilt or removed meanwhile. -/
theorem slash_ladder (registry : SessionRegistry) (before : List Action) (s : Shared) (key command : String)
    (moves : List SlashMove) (w : SlashRun)
    (hrun : exec SlashRun.step (.start registry before s key command) moves = some w) :
    (w.log.countP (·.next.isExecuting) ≤ 9 ∧ w.log.countP (·.next.isDispatching) ≤ 9 ∧
        w.log.countP (·.next.isSubmitting) ≤ 1) ∧
      (w.log.length ≤ 29 ∧ (w.point.isReturned = false → w.log.length < 29 ∧
        (∃ input, w.point.awaits input = true) ∧
          ∀ input, w.point.awaits input = true → (w.point.next w.shared input).isSome)) ∧
      (∀ e ∈ w.log, ∀ key' name arg hop, e.next = .dispatching key' name arg hop →
        ∃ command detail, e.point = .executing key' command hop ∧ e.input = .executed (.error (.rpc 4018 detail)) ∧
          (name, arg) = splitNameArg command) ∧
      ∀ e ∈ w.log, e.EpochsFresh key →
        (e.Appends key ↔ e.Accepted ∧ e.Kept key) ∧ (¬ e.Appends key → e.after = e.before) := by
  have h := SlashRun.ladder_run hrun
  have hbounds : w.log.countP (·.next.isExecuting) ≤ 9 ∧ w.log.countP (·.next.isDispatching) ≤ 9 ∧
      w.log.countP (·.next.isSubmitting) ≤ 1 ∧ w.log.length ≤ 29 := by
    cases hreturned : w.point.isReturned with
    | false =>
      obtain ⟨hexecs, hdispatches, hsubmits, hsteps⟩ := h.stands.bounds hreturned
      exact ⟨hexecs, hdispatches, hsubmits, by omega⟩
    | true =>
      have hstands := h.stands
      cases hpoint : w.point with
      | returned result =>
        rw [hpoint] at hstands
        exact hstands
      | _ =>
        rw [hpoint] at hreturned
        cases hreturned
  refine ⟨⟨hbounds.1, hbounds.2.1, hbounds.2.2.1⟩, ⟨hbounds.2.2.2, ?_⟩, ?_, ?_⟩
  · intro hreturned
    have hsteps := (h.stands.bounds hreturned).2.2.2
    exact ⟨by omega, awaits_next h.stands hreturned w.shared⟩
  · intro e he key' name arg hop hnext
    have hclimbs := h.climbs e he
    obtain ⟨point, input, next, prior, during, before, after⟩ := e
    dsimp only at hnext hclimbs ⊢
    subst hnext
    cases hclimbs with
    | fallback => exact ⟨_, _, rfl, rfl, rfl⟩
  · intro e he hfresh
    exact appends_iff (h.climbs e he) (h.submits e he) hfresh

end

/-! ### A chat that is closed while its message is submitted -/

section

attribute [local instance] Serializer.compact

private def slashChat : Action := .openSession (.created ⟨"live", "chat", ""⟩) none 80

private def notBuiltIn : Input := .executed (.error (.rpc 4018 "use command.dispatch"))

/-- The command is a message to send; `between` runs while it is submitted. -/
private def sentBy (between : List SlashMove) : List SlashMove :=
  [.answer (.disk true), .answer notBuiltIn, .answer (.dispatched (.ok (.send "hi"))), .answer .run] ++ between ++
    [.answer (.submitted (.ok .streaming))]

private def slashShared : Shared := { client := true, store := { core := {}, file := none } }

private def slashStart : SlashRun := .start {} [slashChat] slashShared "chat" "/deploy prod"

theorem slash_ladder_sent : ∃ w e, exec SlashRun.step slashStart (sentBy []) = some w ∧ e ∈ w.log ∧
    e.Appends "chat" := by
  refine ⟨_, _, rfl, List.mem_of_getLast? rfl, ?_⟩
  have hladder := (slash_ladder {} [slashChat] slashShared "chat" "/deploy prod" (sentBy []) _ rfl).2.2.2
  refine (hladder _ (List.mem_of_getLast? rfl) ?_).1.2 ⟨⟨_, _, _, _, _, _, rfl, rfl, .inl rfl⟩, ?_⟩
  · unfold SlashCall.EpochsFresh
    decide
  · intro a ha
    cases ha

/-- The message is submitted and no rebuild intervenes, but no row is appended: the chat was closed meanwhile. -/
theorem closed_chat_gets_no_row : ∃ w e, exec SlashRun.step slashStart (sentBy [.act (.closeSession "chat")]) = some w ∧
    e ∈ w.log ∧ e.Accepted ∧ e.during = [.closeSession "chat"] ∧ ¬ e.Appends "chat" := by
  refine ⟨_, _, rfl, List.mem_of_getLast? rfl, ⟨_, _, _, _, _, _, rfl, rfl, .inl rfl⟩, rfl, ?_⟩
  exact not_appends rfl "chat"

end

end Hermo.Operations
