import Hermo.Rpc.Steps

/-!
# Closed is terminal

Every closer takes `close_lock` and finds the state not closed before it publishes, so a closer never overwrites a
reason.  `mark_open` does not look: it is the only publication that can follow a close.
-/

namespace Hermo.Rpc

open Run Tasks

/-- The task is between the check of `close_terminal` and its publication. -/
def Task.holdsLock (t : Task) : Bool := t.closing == some .publish

/-- `connect` will not call `mark_open` any more: it is not about to, and while it still waits, `gateway.ready` has
not arrived and cannot arrive. -/
def NoOpen (s : System) : Prop :=
  (∀ t ∈ s.tasks, t ≠ .connect .opening) ∧
    ((∀ t ∈ s.tasks, t ≠ .connect .waiting) ∨
      (s.shared.ready = false ∧ ∀ t ∈ s.tasks, t ≠ .reader .reading))

/-! ### The lock -/

theorem Shared.resolve_access (s : Shared) (id : Nat) (outcome : Outcome) :
    (s.resolve id outcome).state = s.state ∧ (s.resolve id outcome).closeLock = s.closeLock := by
  unfold Shared.resolve
  split <;> exact ⟨rfl, rfl⟩

private theorem call_access {s s' : Shared} {point point' : CallPoint} {input : Input}
    (h : point.Step s input s' point') : s'.state = s.state ∧ s'.closeLock = s.closeLock := by
  cases h with
  | queues _ => exact ⟨(s.same_send _).state, (s.same_send _).closeLock⟩
  | _ => exact ⟨rfl, rfl⟩

/-- What a step does to the state and its lock: nothing, `mark_open`, or a part of `close_terminal`. -/
inductive Access (s s' : Shared) (t t' : Task) : Prop where
  | leaves (hstate : s'.state = s.state) (hlock : s'.closeLock = s.closeLock) (ht : t.holdsLock = false)
      (ht' : t'.holdsLock = false)
  | opens (ht : t = .connect .opening) (ht' : t' = .connect .opened) (hstate : s'.state = .open)
      (hlock : s'.closeLock = s.closeLock)
  | takes (hfree : s.closeLock = false) (hopen : ∀ r, s.state ≠ .closed r) (hstate : s'.state = s.state)
      (hlock : s'.closeLock = true) (ht : t.holdsLock = false) (ht' : t'.holdsLock = true)
  | publishes (r : String) (hstate : s'.state = .closed r) (hlock : s'.closeLock = false) (ht : t.holdsLock = true)
      (ht' : t'.holdsLock = false)

private theorem closing_access {c c' lost : Closing} {reason : String} {finish : Shared → Shared} {s s' : Shared}
    {t t' : Task} (hc : t.closing = some c) (hc' : t'.closing = some c')
    (h : Closing.Step reason lost finish s c s' c') (hfinish : ∀ s, Same s (finish s))
    (hlost : lost = .drain ∨ lost = .finish) : Access s s' t t' := by
  have ht : t.holdsLock = (some c == some .publish) := by rw [← hc]; rfl
  have ht' : t'.holdsLock = (some c' == some .publish) := by rw [← hc']; rfl
  cases h with
  | loses hfree hclosed =>
    refine .leaves rfl rfl ht ?_
    rcases hlost with rfl | rfl <;> exact ht'
  | takes hfree hopen => exact .takes hfree hopen rfl rfl ht ht'
  | publishes => exact .publishes reason rfl rfl ht ht'
  | drains => exact .leaves rfl rfl ht ht'
  | finishes => exact .leaves (hfinish s).state (hfinish s).closeLock ht ht'

theorem task_access {s s' : Shared} {t t' : Task} {input : Input} {spawns : List Task}
    (h : t.next s input = some (s', t', spawns)) : Access s s' t t' := by
  cases task_effect h with
  | closes hc hc' hnext hfinish hlost hdrain => exact closing_access hc hc' hnext hfinish hlost
  | opens heq =>
    subst heq
    exact .opens rfl rfl rfl rfl
  | resolves id outcome hanswer heq =>
    subst heq
    exact .leaves (s.resolve_access id outcome).1 (s.resolve_access id outcome).2 rfl rfl
  | calls hstep =>
    obtain ⟨hstate, hlock⟩ := call_access hstep
    exact .leaves hstate hlock rfl rfl
  | quiet hsame hc hc' hcall hdrain =>
    refine .leaves hsame.state hsame.closeLock ?_ ?_
    · unfold Task.holdsLock
      rw [hc]
      rfl
    · unfold Task.holdsLock
      cases hclosing : t'.closing with
      | none => rfl
      | some c => simpa using hc' c hclosing

/-- The lock is held exactly when a task holds it, by one task, and then the state is not closed. -/
structure Locked (s : System) : Prop where
  count : s.tasks.countP Task.holdsLock = s.shared.closeLock.toNat
  notClosed : s.shared.closeLock = true → ∀ r, s.shared.state ≠ .closed r

private theorem locked_step {s s' : System} {l : Label} (h : Locked s) (hstep : program.step s l = some s') :
    Locked s' := by
  obtain ⟨hcount, hopen⟩ := h
  constructor
  · refine Program.count_step (f := fun s => s.closeLock.toNat) hstep hcount ?_ ?_ (fun e => e.elim)
    · intro t ht
      change (s.shared.connected && t.isCall) = true at ht
      rw [Bool.and_eq_true] at ht
      have hcall := ht.2
      revert hcall
      fun_cases Task.isCall t <;> rintro ⟨⟩ <;> rfl
    · intro input t shared t' spawns hnext hpos
      have hspawns : spawns.countP Task.holdsLock = 0 := by
        rw [List.countP_eq_zero]
        intro u hu
        rw [task_spawns hnext u hu]
        decide
      rw [hspawns, Nat.add_zero]
      cases task_access hnext with
      | leaves hstate hlock ht ht' => rw [hlock, ht, ht']
      | opens ht ht' hstate hlock =>
        subst ht ht'
        rw [hlock]
        rfl
      | takes hfree _ hstate hlock ht ht' =>
        rw [hlock, hfree, ht, ht']
        rfl
      -- a closer publishes with the lock in its hand
      | publishes r hstate hlock ht ht' =>
        have hheld : s.shared.closeLock = true := Program.flag_of_pos (hpos ht)
        rw [hlock, hheld, ht, ht']
        rfl
  · cases l with
    | start t =>
      obtain ⟨-, rfl⟩ := Program.step_start hstep
      exact hopen
    | task i input =>
      obtain ⟨t, shared, t', spawns, -, hnext, rfl⟩ := Program.step_task hstep
      change shared.closeLock = true → ∀ r, shared.state ≠ .closed r
      intro hheld
      cases task_access hnext with
      | leaves hstate hlock ht ht' =>
        rw [hstate]
        exact hopen (hlock ▸ hheld)
      | opens ht ht' hstate hlock =>
        rw [hstate]
        rintro r ⟨⟩
      | takes hfree hnot hstate hlock ht ht' =>
        rw [hstate]
        exact hnot
      | publishes r hstate hlock ht ht' =>
        rw [hlock] at hheld
        cases hheld
    | env e => exact e.elim

/-- The lock in every state of every run. -/
theorem locked_run {labels : List Label} {s : System} (h : exec program.step start labels = some s) : Locked s :=
  exec_preserves program.step (fun _ _ _ hs hstep => locked_step hs hstep) ⟨rfl, by rintro ⟨⟩⟩ h

/-! ### Where nobody opens, closed stays -/

private theorem send_ready (s : Shared) (msg : Outbound) : (s.send msg).ready = s.ready := by
  unfold Shared.send
  split <;> rfl

private theorem closing_ready {c c' lost : Closing} {reason : String} {finish : Shared → Shared} {s s' : Shared}
    (h : Closing.Step reason lost finish s c s' c') (hfinish : (finish s).ready = s.ready) : s'.ready = s.ready := by
  cases h with
  | finishes => exact hfinish
  | _ => rfl

private theorem shutdown_ready {c c' : Closing} {reason : String} {s s' : Shared}
    (h : Shutdown reason s c s' c') : s'.ready = s.ready := closing_ready h (send_ready s _)

/-- How a step comes near `mark_open`. -/
private theorem task_opening {s s' : Shared} {t t' : Task} {input : Input} {spawns : List Task}
    (h : t.next s input = some (s', t', spawns)) :
    t' ≠ .connect .waiting ∧ (t' = .connect .opening → t = .connect .waiting ∧ s.ready = true) ∧
      (t' = .reader .reading → t = .reader .reading) ∧
      (s'.ready = true → s.ready = true ∨ t = .reader .reading) := by
  cases task_moves h with
  | connect hstep =>
    cases hstep with
    | seesReady hready => exact ⟨by rintro ⟨⟩, fun _ => ⟨rfl, hready⟩, by rintro ⟨⟩, by rintro ⟨⟩⟩
    | closes hclose =>
      exact ⟨by rintro ⟨⟩, by rintro ⟨⟩, by rintro ⟨⟩, fun hready => .inl (shutdown_ready hclose ▸ hready)⟩
    | _ => exact ⟨by rintro ⟨⟩, by rintro ⟨⟩, by rintro ⟨⟩, .inl⟩
  | reader hstep =>
    cases hstep with
    | closes hclose =>
      have hsame := closing_ready hclose rfl
      exact ⟨by rintro ⟨⟩, by rintro ⟨⟩, by rintro ⟨⟩, fun hready => .inl (hsame ▸ hready)⟩
    | _ => exact ⟨by rintro ⟨⟩, by rintro ⟨⟩, fun _ => rfl, fun _ => .inr rfl⟩
  | writer hstep =>
    refine ⟨by rintro ⟨⟩, by rintro ⟨⟩, by rintro ⟨⟩, fun hready => .inl ?_⟩
    cases hstep with
    | closes hclose =>
      have hsame := closing_ready hclose rfl
      exact hsame ▸ hready
    | _ => exact hready
  | heartbeat hstep =>
    refine ⟨by rintro ⟨⟩, by rintro ⟨⟩, by rintro ⟨⟩, fun hready => .inl ?_⟩
    cases hstep with
    | pings => exact send_ready s .ping ▸ hready
    | closes hclose => exact shutdown_ready hclose ▸ hready
    | _ => exact hready
  | close hclose =>
    exact ⟨by rintro ⟨⟩, by rintro ⟨⟩, by rintro ⟨⟩, fun hready => .inl (shutdown_ready hclose ▸ hready)⟩
  | call hstep =>
    refine ⟨by rintro ⟨⟩, by rintro ⟨⟩, by rintro ⟨⟩, fun hready => .inl ?_⟩
    cases hstep with
    | queues _ => exact send_ready s _ ▸ hready
    | _ => exact hready

private theorem entry_opening {s : Shared} {t : Task} (h : program.entry s t = true) :
    t ≠ .connect .opening ∧ t ≠ .connect .waiting ∧ t ≠ .reader .reading := by
  have hcall : t.isCall = true := (Bool.and_eq_true_iff.1 h).2
  revert hcall
  fun_cases Task.isCall t <;> rintro ⟨⟩
  · exact ⟨by rintro ⟨⟩, by rintro ⟨⟩, by rintro ⟨⟩⟩
  · exact ⟨by rintro ⟨⟩, by rintro ⟨⟩, by rintro ⟨⟩⟩

/-- Once `connect` is past its wait it stays there. -/
private theorem past_step {s s' : System} {l : Label}
    (h : ∀ t ∈ s.tasks, t ≠ .connect .opening ∧ t ≠ .connect .waiting) (hstep : program.step s l = some s') :
    ∀ t ∈ s'.tasks, t ≠ .connect .opening ∧ t ≠ .connect .waiting := by
  refine Program.forall_step (P := fun _ t => t ≠ .connect .opening ∧ t ≠ .connect .waiting) hstep h ?_ ?_
    (fun e => e.elim)
  · exact fun t _ ht => ⟨(entry_opening ht).1, (entry_opening ht).2.1⟩
  · intro i input t shared t' spawns _ ht hnext
    obtain ⟨hw, ho, -, -⟩ := task_opening hnext
    refine ⟨⟨?_, hw⟩, ?_, fun u hu => hu⟩
    · intro ht'
      exact (h t (List.mem_of_getElem? ht)).2 (ho ht').1
    · intro u hu
      rw [task_spawns hnext u hu]
      exact ⟨by rintro ⟨⟩, by rintro ⟨⟩⟩

/-- Behind the reader's end no `gateway.ready` arrives. -/
private theorem ready_step {s s' : System} {l : Label} (hready : s.shared.ready = false)
    (hreading : ∀ t ∈ s.tasks, t ≠ .reader .reading) (hstep : program.step s l = some s') :
    s'.shared.ready = false := by
  cases l with
  | start t =>
    obtain ⟨-, rfl⟩ := Program.step_start hstep
    exact hready
  | task i input =>
    obtain ⟨t, shared, t', spawns, ht, hnext, rfl⟩ := Program.step_task hstep
    obtain ⟨-, -, -, hr⟩ := task_opening hnext
    change shared.ready = false
    by_contra hup
    rcases hr (by simpa using hup) with hold | hread
    · rw [hready] at hold
      cases hold
    · exact hreading t (List.mem_of_getElem? ht) hread
  | env e => exact e.elim

/-- With no `gateway.ready` to take, `connect` does not get past its wait. -/
private theorem unheard_step {s s' : System} {l : Label} (hready : s.shared.ready = false)
    (h : ∀ t ∈ s.tasks, t ≠ .connect .opening ∧ t ≠ .reader .reading) (hstep : program.step s l = some s') :
    ∀ t ∈ s'.tasks, t ≠ .connect .opening ∧ t ≠ .reader .reading := by
  refine Program.forall_step (P := fun _ t => t ≠ .connect .opening ∧ t ≠ .reader .reading) hstep h ?_ ?_
    (fun e => e.elim)
  · exact fun t _ ht => ⟨(entry_opening ht).1, (entry_opening ht).2.2⟩
  · intro i input t shared t' spawns _ ht hnext
    obtain ⟨-, ho, hr, -⟩ := task_opening hnext
    refine ⟨⟨?_, fun ht' => (h t (List.mem_of_getElem? ht)).2 (hr ht')⟩, ?_, fun u hu => hu⟩
    · intro ht'
      rw [(ho ht').2] at hready
      cases hready
    · intro u hu
      rw [task_spawns hnext u hu]
      exact ⟨by rintro ⟨⟩, by rintro ⟨⟩⟩

private theorem noOpen_step {s s' : System} {l : Label} (h : NoOpen s) (hstep : program.step s l = some s') :
    NoOpen s' := by
  obtain ⟨hopening, hwaiting | ⟨hready, hreading⟩⟩ := h
  -- `connect` has returned, or has given up
  · have hpast := past_step (fun t ht => ⟨hopening t ht, hwaiting t ht⟩) hstep
    exact ⟨fun t ht => (hpast t ht).1, .inl fun t ht => (hpast t ht).2⟩
  -- it waits for a frame that no reader brings any more
  · have hunheard := unheard_step hready (fun t ht => ⟨hopening t ht, hreading t ht⟩) hstep
    exact ⟨fun t ht => (hunheard t ht).1, .inr ⟨ready_step hready hreading hstep, fun t ht => (hunheard t ht).2⟩⟩

private theorem closed_step {s s' : System} {l : Label} {r : String} (hlocked : Locked s) (hno : NoOpen s)
    (hclosed : s.shared.state = .closed r) (hstep : program.step s l = some s') : s'.shared.state = .closed r := by
  cases l with
  | start t =>
    obtain ⟨-, rfl⟩ := Program.step_start hstep
    exact hclosed
  | task i input =>
    obtain ⟨t, shared, t', spawns, ht, hnext, rfl⟩ := Program.step_task hstep
    change shared.state = .closed r
    have hmem : t ∈ s.tasks := List.mem_of_getElem? ht
    cases task_access hnext with
    | leaves hstate hlock _ _ => rw [hstate, hclosed]
    | opens hopening ht' hstate hlock => exact absurd hopening (hno.1 t hmem)
    | takes hfree hnot hstate hlock _ _ => exact absurd hclosed (hnot r)
    | publishes r' hstate hlock hholds _ =>
      -- the closer holds the lock, so the state was not closed
      have hpos : 0 < s.tasks.countP Task.holdsLock := List.countP_pos_iff.2 ⟨t, hmem, hholds⟩
      rw [hlocked.count] at hpos
      exact absurd hclosed (hlocked.notClosed (Program.flag_of_pos hpos) r)
  | env e => exact e.elim

/-! ### From everywhere else the state opens again -/

/-- A run from here opens the state. -/
def OpensAgain (s : System) : Prop := ∃ labels s', exec program.step s labels = some s' ∧ s'.shared.state = .open

private theorem opensAgain_step {s s₁ : System} {l : Label} (hstep : program.step s l = some s₁)
    (h : OpensAgain s₁) : OpensAgain s := by
  obtain ⟨labels, s', hrun, hopen⟩ := h
  refine ⟨l :: labels, s', ?_, hopen⟩
  unfold exec
  rw [hstep]
  exact hrun

private theorem opensAgain_opening {s : System} {i : Nat} (h : s.tasks[i]? = some (.connect .opening)) :
    OpensAgain s := by
  have hnext : program.next s.shared (.connect .opening) .run =
      some ({ s.shared with state := .open }, .connect .opened, []) := rfl
  exact opensAgain_step (Program.task_step h hnext) ⟨[], _, rfl, rfl⟩

private theorem opensAgain_ready {s : System} {i : Nat} (h : s.tasks[i]? = some (.connect .waiting))
    (hready : s.shared.ready = true) : OpensAgain s := by
  have hnext : program.next s.shared (.connect .waiting) .run =
      some ({ s.shared with ready := false }, .connect .opening, []) := by
    change (ConnectPoint.next s.shared .waiting .run).map _ = _
    simp [ConnectPoint.next, hready]
  refine opensAgain_step (Program.task_step h hnext) (opensAgain_opening (i := i) ?_)
  rw [Program.getElem?_after h, if_pos rfl]

private theorem opensAgain_reading {s : System} {i j : Nat} (h : s.tasks[i]? = some (.connect .waiting))
    (hj : s.tasks[j]? = some (.reader .reading)) : OpensAgain s := by
  have hnext : program.next s.shared (.reader .reading) .ready =
      some ({ s.shared with ready := true }, .reader .reading, []) := rfl
  refine opensAgain_step (Program.task_step hj hnext) (opensAgain_ready (i := i) ?_ rfl)
  have hij : i ≠ j := by
    rintro rfl
    rw [h] at hj
    cases hj
  rw [Program.getElem?_after h, if_neg hij]

private theorem opensAgain_of_not_noOpen {s : System} (h : ¬ NoOpen s) : OpensAgain s := by
  by_contra hnever
  refine h ⟨?_, ?_⟩
  · rintro t ht rfl
    obtain ⟨i, hi⟩ := List.mem_iff_getElem?.1 ht
    exact hnever (opensAgain_opening hi)
  · by_cases hwaiting : ∀ t ∈ s.tasks, t ≠ .connect .waiting
    · exact .inl hwaiting
    · have hconnect : .connect .waiting ∈ s.tasks := by
        by_contra hnot
        exact hwaiting fun t ht heq => hnot (heq ▸ ht)
      obtain ⟨i, hi⟩ := List.mem_iff_getElem?.1 hconnect
      refine .inr ⟨?_, ?_⟩
      · by_contra hready
        exact hnever (opensAgain_ready hi (by simpa using hready))
      · rintro u hu rfl
        obtain ⟨j, hj⟩ := List.mem_iff_getElem?.1 hu
        exact hnever (opensAgain_reading hi hj)

/-! ### Every run -/

/-- In every state of every run in which the published state is closed: it stays closed for the same reason in every
continuation exactly when `connect` will not call `mark_open` any more. -/
theorem closed_terminal_iff {before : List Label} {s : System} {r : String}
    (h : exec program.step start before = some s) (hclosed : s.shared.state = .closed r) :
    (∀ after s', exec program.step s after = some s' → s'.shared.state = .closed r) ↔ NoOpen s := by
  constructor
  · intro hstays
    by_contra hno
    obtain ⟨labels, s', hrun, hopen⟩ := opensAgain_of_not_noOpen hno
    rw [hstays labels s' hrun] at hopen
    cases hopen
  · intro hno after s' hrun
    have hstep : ∀ (s₁ : System) (l : Label) (s₂ : System),
        (Locked s₁ ∧ NoOpen s₁ ∧ s₁.shared.state = .closed r) → program.step s₁ l = some s₂ →
          Locked s₂ ∧ NoOpen s₂ ∧ s₂.shared.state = .closed r := by
      rintro s₁ l s₂ ⟨hlocked, hno₁, hclosed₁⟩ hstep
      exact ⟨locked_step hlocked hstep, noOpen_step hno₁ hstep, closed_step hlocked hno₁ hclosed₁ hstep⟩
    exact (exec_preserves program.step hstep ⟨locked_run h, hno, hclosed⟩ hrun).2.2

/-- `gateway.ready` arrives and `connect` returns. -/
def connectSteps : List Label := [.task 1 .ready, .task 0 .run, .task 0 .run, .task 0 .run]

/-- A `close` of an open client. -/
theorem closed_terminal_iff_close :
    ∃ s, exec program.step start (connectSteps ++ [.start (.close "user logout" .check), .task 4 .run,
        .task 4 .run]) = some s ∧ s.shared.state = .closed "user logout" ∧
      ∀ after s', exec program.step s after = some s' → s'.shared.state = .closed "user logout" := by
  have hrun : ∃ s, exec program.step start (connectSteps ++ [.start (.close "user logout" .check), .task 4 .run,
      .task 4 .run]) = some s ∧ s.shared.state = .closed "user logout" ∧
      s.tasks = [.connect .returned, .reader .reading, .writer .receiving, .heartbeat .sleeping,
        .close "user logout" .drain] := ⟨_, rfl, rfl, rfl⟩
  obtain ⟨s, hs, hclosed, htasks⟩ := hrun
  refine ⟨s, hs, hclosed, (closed_terminal_iff hs hclosed).2 ⟨?_, .inl ?_⟩⟩
  · rw [htasks]
    simp
  · rw [htasks]
    simp

/-- The server closes right behind `gateway.ready`: the reader publishes the close before `connect` calls `mark_open`,
and the state of the dead socket is `Open`. -/
theorem opened_after_close :
    ∃ s s', exec program.step start [.task 1 .ready, .task 0 .run, .task 1 (.closeFrame (some ⟨1000, "bye"⟩)),
        .task 1 .run, .task 1 .run] = some s ∧ s.shared.state = .closed "bye" ∧
      exec program.step s [.task 0 .run, .task 1 .run, .task 1 .run] = some s' ∧ s'.shared.state = .open ∧
      s'.tasks = [.connect .opened, .reader (.closing "bye" .over), .writer .receiving] :=
  ⟨_, _, rfl, rfl, rfl, rfl, rfl⟩

end Hermo.Rpc
