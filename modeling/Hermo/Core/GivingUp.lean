import Hermo.Core.Disconnect
import Hermo.Rpc.Client

/-!
# When the supervisor gives up

A supervisor ends behind a client that was closed for the local reason, behind a raised stop flag, or with an expired
session.  The first two are the work of `disconnect` and `forget_gateway`, unless the server closes the connection
with a text that is the local reason.
-/

namespace Hermo.Lifecycle

open Run Tasks

/-- A `disconnect` or `forget_gateway` that has yet to raise the flag or to close the client. -/
def Task.stopping : Task → Bool
  | .disconnect point => point != .returned
  | .forget point => point != .clearing && point != .returned
  | _ => false

/-- The label is a call of `disconnect` or `forget_gateway`. -/
def callsStop : Label → Bool
  | .start t => t.stopping
  | _ => false

/-- The supervisor starts, and no stop reaches it that was called before. -/
structure Fresh (s : System) (i : Nat) : Prop where
  atTop : ∃ c, At s i (.top c) ∧ s.shared.reason c ≠ some localCloseReason
  stopFlag : s.shared.stopFlag = false
  idle : ∀ t ∈ s.tasks, t.stopping = false

/-- The connection of the supervisor is not closed with the local reason. -/
def NoLocalText (i : Nat) (s : System) : Label → Prop
  | .env (.closed c reason) => reason = localCloseReason → ∀ point, At s i point → point.knows ≠ some c
  | _ => True

/-- The supervisor reads next that its connection is lost, or has read it. -/
def SupervisorPoint.Lost (s : Shared) : SupervisorPoint → Prop
  | .top c | .events c => s.reason c ≠ none
  | .sawClosed _ | .stopCheck => True
  | _ => False

/-- The head of the reconnect ladder. -/
def Task.OnLadder (t : Task) : Prop := ∃ last, t = .supervisor .backoff last

/-- Step by step on its own the supervisor comes to the reconnect ladder. -/
def ReachesLadder (s : System) (i : Nat) : Prop := program.Comes s i .run Task.OnLadder

/-! ### Nobody stops it -/

/-- It has read no local reason, and has ended for an expired session only. -/
def SupervisorPoint.Justified (last : Option ConnectionStatus) : SupervisorPoint → Prop
  | .sawClosed reason => reason ≠ localCloseReason
  | .exiting why | .ended why => why = .sessionExpired ∧ last = some .needsPassword
  | _ => True

/-- Nobody stops the supervisor, and nothing else has made it end. -/
structure Undisturbed (i : Nat) (s : System) : Prop where
  stopFlag : s.shared.stopFlag = false
  idle : ∀ t ∈ s.tasks, t.stopping = false
  justified : ∃ point last, s.tasks[i]? = some (.supervisor point last) ∧ point.Justified last ∧
    ∀ c, point.knows = some c → s.shared.reason c ≠ some localCloseReason

/-- The flag is not raised and no client is closed. -/
structure Leaves (s s' : Shared) : Prop where
  stopFlag : s.stopFlag = false → s'.stopFlag = false
  reason : ∀ c, s'.reason c = s.reason c

private theorem leaves_connected (s : Shared) : Leaves s s.connected := ⟨id, s.reason_connected⟩

private theorem supervisor_leaves {s s' : Shared} {point point' : SupervisorPoint} {input : Input}
    {status : Option ConnectionStatus} (h : point.Step s input s' point' status) : Leaves s s' := by
  cases h with
  | connected => exact leaves_connected s
  | _ => exact ⟨id, fun _ => rfl⟩

private theorem connect_leaves {s s' : Shared} {point point' : ConnectPoint} {input : Input} {spawn : Option Nat}
    (h : point.Step s input s' point' spawn) : Leaves s s' := by
  cases h with
  | connected => exact leaves_connected s
  | unstops => exact ⟨fun _ => rfl, fun _ => rfl⟩
  | _ => exact ⟨id, fun _ => rfl⟩

private theorem foreground_leaves {s s' : Shared} {point point' : ForegroundPoint} {input : Input}
    {spawn : Option Nat} (h : point.Step s input s' point' spawn) : Leaves s s' := by
  cases h with
  | connected => exact leaves_connected s
  | unstops => exact ⟨fun _ => rfl, fun _ => rfl⟩
  | _ => exact ⟨id, fun _ => rfl⟩

private theorem spawned_stopping (client : Option Nat) : ∀ u ∈ spawned client, u.stopping = false := by
  intro u hu
  cases client with
  | none => cases hu
  | some c =>
    rw [List.mem_singleton.1 hu]
    rfl

/-- A task that is not a stop neither stops anybody nor becomes one. -/
private theorem task_leaves {s s' : Shared} {t t' : Task} {input : Input} {spawns : List Task}
    (h : t.next s input = some (s', t', spawns)) (ht : t.stopping = false) :
    Leaves s s' ∧ t'.stopping = false ∧ ∀ u ∈ spawns, u.stopping = false := by
  cases task_moves h with
  | supervisor hnext => exact ⟨supervisor_leaves hnext, rfl, by simp⟩
  | connect hnext => exact ⟨connect_leaves hnext, rfl, spawned_stopping _⟩
  | foreground hnext => exact ⟨foreground_leaves hnext, rfl, spawned_stopping _⟩
  | @disconnect point _ hnext =>
    obtain rfl : point = .returned := by simpa [Task.stopping] using ht
    cases hnext
  | forget hnext =>
    cases hnext with
    | clears => exact ⟨⟨id, fun _ => rfl⟩, rfl, by simp⟩
    | _ => cases ht

/-- The step of the supervisor itself. -/
private theorem supervisor_justified {s s' : Shared} {point point' : SupervisorPoint} {input : Input}
    {last status : Option ConnectionStatus} (h : point.Step s input s' point' status)
    (hstop : s.stopFlag = false) (hj : point.Justified last)
    (hknown : ∀ c, point.knows = some c → s.reason c ≠ some localCloseReason) :
    point'.Justified (status.or last) ∧ ∀ c, point'.knows = some c → s.reason c ≠ some localCloseReason := by
  cases h with
  | topClosed hclosed | loses hclosed =>
    refine ⟨?_, by rintro c ⟨⟩⟩
    rintro rfl
    exact hknown _ rfl hclosed
  -- it has read no local reason, and nobody raised the flag
  | closedLocally => exact absurd rfl hj
  | stopped hup | woken hup =>
    rw [hstop] at hup
    cases hup
  | connected =>
    refine ⟨trivial, ?_⟩
    rintro c ⟨⟩
    unfold Shared.reason
    rw [List.getElem?_eq_none (Nat.le_refl _)]
    rintro ⟨⟩
  | reportsExpired => exact ⟨⟨rfl, rfl⟩, by rintro c ⟨⟩⟩
  | clears => exact ⟨hj, by rintro c ⟨⟩⟩
  | _ => exact ⟨trivial, hknown⟩

private theorem undisturbed_step {i : Nat} {s s' : System} {l : Label} (h : Undisturbed i s)
    (hok : NoLocalText i s l ∧ callsStop l = false) (hstep : program.step s l = some s') : Undisturbed i s' := by
  obtain ⟨hstop, hidle, point, last, hi, hj, hknown⟩ := h
  obtain ⟨hlocal, hcall⟩ := hok
  cases l with
  | start t =>
    obtain ⟨-, rfl⟩ := Program.step_start hstep
    refine ⟨hstop, ?_, point, last, ?_, hj, hknown⟩
    · intro u hu
      rcases List.mem_append.1 hu with hu | hu
      · exact hidle u hu
      · rw [List.mem_singleton.1 hu]
        exact hcall
    · obtain ⟨hlt, -⟩ := List.getElem?_eq_some_iff.1 hi
      rw [List.getElem?_append_left hlt]
      exact hi
  | task j input =>
    obtain ⟨t, shared, t', spawns, ht, hnext, rfl⟩ := Program.step_task hstep
    obtain ⟨hleaves, ht', hspawns⟩ := task_leaves hnext (hidle t (List.mem_of_getElem? ht))
    refine ⟨hleaves.stopFlag hstop, ?_, ?_⟩
    · intro u hu
      rcases Program.mem_after hu with rfl | hu | ⟨k, -, hk⟩
      · exact ht'
      · exact hspawns u hu
      · exact hidle u (List.mem_of_getElem? hk)
    · by_cases hij : i = j
      · subst hij
        rw [hi, Option.some_inj] at ht
        subst ht
        obtain ⟨⟨_, point', status⟩, hpoint, heq⟩ := Option.map_eq_some_iff.1 hnext
        cases heq
        obtain ⟨hj', hknown'⟩ := supervisor_justified (SupervisorPoint.step_of_next hpoint) hstop hj hknown
        refine ⟨point', status.or last, ?_, hj', ?_⟩
        · rw [Program.getElem?_after hi, if_pos rfl]
        · intro c hc
          rw [hleaves.reason c]
          exact hknown' c hc
      · refine ⟨point, last, ?_, hj, ?_⟩
        · rw [Program.getElem?_after hi, if_neg hij]
        · intro c hc
          rw [hleaves.reason c]
          exact hknown c hc
  | env e =>
    obtain ⟨shared, henv, rfl⟩ := Program.step_env hstep
    obtain ⟨c', reason⟩ := e
    obtain ⟨-, rfl⟩ := Event.next_closed henv
    refine ⟨hstop, hidle, point, last, hi, hj, ?_⟩
    intro c hc hclosed
    rcases Shared.closed_of_reason_close hclosed with hold | ⟨rfl, hreason⟩
    · exact hknown c hc hold
    · exact hlocal hreason.symm point ⟨last, hi⟩ hc

/-! ### Every other loss -/

private theorem reachesLadder_next {s : System} {i : Nat} {point point' : SupervisorPoint} {shared : Shared}
    {status : Option ConnectionStatus} (h : At s i point)
    (hnext : point.next s.shared .run = some (shared, point', status))
    (hrest : ∀ s₁ : System, s₁.shared = shared → At s₁ i point' → ReachesLadder s₁ i) : ReachesLadder s i := by
  obtain ⟨last, ht⟩ := h
  have htask : program.next s.shared (.supervisor point last) .run =
      some (shared, .supervisor point' (status.or last), []) := by
    change (point.next s.shared .run).map _ = _
    rw [hnext]
    rfl
  exact Program.comes_next ht htask fun s₁ hshared hi => hrest s₁ hshared ⟨_, hi⟩

private theorem reachesLadder_stopCheck {s : System} {i : Nat} (h : At s i .stopCheck)
    (hstop : s.shared.stopFlag = false) : ReachesLadder s i := by
  have hnext : SupervisorPoint.stopCheck.next s.shared .run = some (s.shared, .backoff, none) := by
    simp [SupervisorPoint.next, hstop]
  refine reachesLadder_next h hnext ?_
  rintro s₁ - ⟨last, hi⟩
  exact Program.comes_here hi ⟨last, rfl⟩

private theorem reachesLadder_sawClosed {s : System} {i : Nat} {reason : String} (h : At s i (.sawClosed reason))
    (hlocal : reason ≠ localCloseReason) (hstop : s.shared.stopFlag = false) : ReachesLadder s i := by
  have hnext : (SupervisorPoint.sawClosed reason).next s.shared .run =
      some (s.shared, .stopCheck, some (.closed reason)) := by
    simp [SupervisorPoint.next, hlocal]
  exact reachesLadder_next h hnext fun s₁ hshared hat => reachesLadder_stopCheck hat (by rw [hshared, hstop])

private theorem reachesLadder_of_lost {s : System} {i : Nat} {point : SupervisorPoint} {last : Option ConnectionStatus}
    (h : At s i point) (hlost : point.Lost s.shared) (hj : point.Justified last)
    (hknown : ∀ c, point.knows = some c → s.shared.reason c ≠ some localCloseReason)
    (hstop : s.shared.stopFlag = false) : ReachesLadder s i := by
  cases point with
  | top c =>
    obtain ⟨reason, hr⟩ := Option.ne_none_iff_exists'.1 hlost
    have hnext : (SupervisorPoint.top c).next s.shared .run = some (s.shared, .sawClosed reason, some .connecting) := by
      simp [SupervisorPoint.next, hr]
    refine reachesLadder_next h hnext ?_
    intro s₁ hshared hat
    refine reachesLadder_sawClosed hat ?_ (by rw [hshared, hstop])
    rintro rfl
    exact hknown c rfl hr
  | events c =>
    obtain ⟨reason, hr⟩ := Option.ne_none_iff_exists'.1 hlost
    have hnext : (SupervisorPoint.events c).next s.shared .run = some (s.shared, .sawClosed reason, none) := by
      simp [SupervisorPoint.next, hr]
    refine reachesLadder_next h hnext ?_
    intro s₁ hshared hat
    refine reachesLadder_sawClosed hat ?_ (by rw [hshared, hstop])
    rintro rfl
    exact hknown c rfl hr
  | sawClosed reason => exact reachesLadder_sawClosed h hj hstop
  | stopCheck => exact reachesLadder_stopCheck h hstop
  | _ => exact hlost.elim

/-! ### Every run -/

/-- In every run from the start of a supervisor on in which its connections are not closed with the local reason:
either `disconnect` or `forget_gateway` was called, or the supervisor has ended for an expired session only, with
`NeedsPassword` the last status, and from every lost connection it comes to the reconnect ladder. -/
theorem gives_up_only_when_told {labels : List Label} {s s' : System} {i : Nat} (hfresh : Fresh s i)
    (hmeets : Meets program.step (NoLocalText i) s labels) (hrun : exec program.step s labels = some s') :
    (∃ l ∈ labels, callsStop l) ∨
      ∃ point last, s'.tasks[i]? = some (.supervisor point last) ∧
        (∀ why, point = .exiting why ∨ point = .ended why → why = .sessionExpired ∧ last = some .needsPassword) ∧
        (point.Lost s'.shared → ReachesLadder s' i) := by
  by_cases hcalls : ∃ l ∈ labels, callsStop l
  · exact .inl hcalls
  · have hnone : ∀ l ∈ labels, callsStop l = false := by
      intro l hl
      by_contra hcall
      exact hcalls ⟨l, hl, by simpa using hcall⟩
    have hboth : Meets program.step (fun s l => NoLocalText i s l ∧ callsStop l = false) s labels :=
      hmeets.and program.step (meets_of_forall program.step (fun l hl _ => hnone l hl) s)
    have hstart : Undisturbed i s := by
      obtain ⟨⟨c, ⟨last, hi⟩, hopen⟩, hstop, hidle⟩ := hfresh
      refine ⟨hstop, hidle, .top c, last, hi, trivial, ?_⟩
      rintro c' ⟨⟩
      exact hopen
    obtain ⟨hstop, -, point, last, hi, hj, hknown⟩ :=
      exec_invariant program.step (fun _ _ _ h hok hstep => undisturbed_step h hok hstep) hstart hboth hrun
    refine .inr ⟨point, last, hi, ?_, fun hlost => reachesLadder_of_lost ⟨last, hi⟩ hlost hj hknown hstop⟩
    rintro why (rfl | rfl)
    · exact hj
    · exact hj

/-- The first supervisor has just been spawned. -/
private def supervised : List Label := callSteps 0 (.connect .start) connectInputs

private theorem fresh_supervised {s : System} (h : exec program.step start supervised = some s) : Fresh s 1 := by
  have hrun : ∃ s', exec program.step start supervised = some s' ∧
      s'.tasks = [.connect .returned, .supervisor (.top 0) none] ∧ s'.shared.reason 0 = none ∧
      s'.shared.stopFlag = false := ⟨_, rfl, rfl, rfl, rfl⟩
  obtain ⟨s', hs', htasks, hreason, hstop⟩ := hrun
  obtain rfl : s' = s := Option.some.inj (hs'.symm.trans h)
  refine ⟨⟨0, ⟨none, by rw [htasks]; rfl⟩, by rw [hreason]; rintro ⟨⟩⟩, hstop, ?_⟩
  rw [htasks]
  decide

/-- The socket dies, and the gateway then refuses the session. -/
theorem gives_up_only_when_told_expired :
    ∃ s s' point last, exec program.step start supervised = some s ∧
      exec program.step s (List.replicate 4 (.task 1 .run) ++ [.env (.closed 0 Rpc.ungracefulCloseReason)] ++
        List.replicate 4 (.task 1 .run) ++ [.task 1 .timeout, .task 1 (.establish .sessionExpired), .task 1 .run,
        .task 1 .run]) = some s' ∧
      s'.tasks[1]? = some (.supervisor point last) ∧
      (∀ why, point = .exiting why ∨ point = .ended why → why = .sessionExpired ∧ last = some .needsPassword) := by
  have hrun : ∃ s s', exec program.step start supervised = some s ∧
      exec program.step s (List.replicate 4 (.task 1 .run) ++ [.env (.closed 0 Rpc.ungracefulCloseReason)] ++
        List.replicate 4 (.task 1 .run) ++ [.task 1 .timeout, .task 1 (.establish .sessionExpired), .task 1 .run,
        .task 1 .run]) = some s' ∧ s'.tasks[1]? = some (.supervisor (.ended .sessionExpired) (some .needsPassword)) :=
    ⟨_, _, rfl, rfl, rfl⟩
  obtain ⟨s, s', hs, hs', -⟩ := hrun
  have hmeets : Meets program.step (NoLocalText 1) s (List.replicate 4 (.task 1 .run) ++
      [.env (.closed 0 Rpc.ungracefulCloseReason)] ++ List.replicate 4 (.task 1 .run) ++ [.task 1 .timeout,
      .task 1 (.establish .sessionExpired), .task 1 .run, .task 1 .run]) := by
    refine meets_of_forall program.step ?_ s
    intro l hl t
    simp only [List.mem_append, List.mem_replicate, List.mem_cons, List.not_mem_nil, or_false] at hl
    rcases hl with ((⟨-, rfl⟩ | rfl) | ⟨-, rfl⟩) | rfl | rfl | rfl | rfl <;> try trivial
    intro hlocal
    exact absurd hlocal (by decide)
  rcases gives_up_only_when_told (fresh_supervised hs) hmeets hs' with hstop | ⟨point, last, hi, hends, -⟩
  · obtain ⟨l, hl, hcall⟩ := hstop
    simp only [List.mem_append, List.mem_replicate, List.mem_cons, List.not_mem_nil, or_false] at hl
    rcases hl with ((⟨-, rfl⟩ | rfl) | ⟨-, rfl⟩) | rfl | rfl | rfl | rfl <;> cases hcall
  · exact ⟨s, s', point, last, hs, hs', hi, hends⟩

/-- The server closes the connection with the text `user logout`: the supervisor ends, and nobody asked it to. -/
theorem server_text_ends_supervisor :
    ∃ s s', exec program.step start supervised = some s ∧ Fresh s 1 ∧
      exec program.step s (List.replicate 4 (.task 1 .run) ++
        [.env (.closed 0 (Rpc.serverCloseReason (some ⟨1000, "user logout"⟩)))] ++
        List.replicate 3 (.task 1 .run)) = some s' ∧
      s'.tasks = [.connect .returned, .supervisor (.ended .closedLocally) (some (.closed "user logout"))] := by
  have hrun : ∃ s s', exec program.step start supervised = some s ∧
      exec program.step s (List.replicate 4 (.task 1 .run) ++
        [.env (.closed 0 (Rpc.serverCloseReason (some ⟨1000, "user logout"⟩)))] ++
        List.replicate 3 (.task 1 .run)) = some s' ∧
      s'.tasks = [.connect .returned, .supervisor (.ended .closedLocally) (some (.closed "user logout"))] :=
    ⟨_, _, rfl, rfl, rfl⟩
  obtain ⟨s, s', hs, hs', htasks⟩ := hrun
  exact ⟨s, s', hs, fresh_supervised hs, hs', htasks⟩

end Hermo.Lifecycle
