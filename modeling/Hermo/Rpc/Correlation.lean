import Hermo.Rpc.Wire

/-!
# Every response finds its own call

A number is drawn once, its call stands in the map at most once, and what answered it is never replaced.  So the
response that completes a call is the first line that carried its id while it was pending, and a line touches no call
but the one with its id.
-/

namespace Hermo.Rpc

open Run Tasks

/-! ### The ids -/

theorem callId_injective {m n : Nat} (h : callId m = callId n) : m = n := by
  have hlist := congrArg String.toList h
  unfold callId at hlist
  rw [String.toList_append, String.toList_append, List.append_cancel_left_eq, Nat.toList_repr, Nat.toList_repr]
    at hlist
  have hvalue := congrArg (fun digits => Nat.ofDigitChars 10 digits 0) hlist
  simpa using hvalue

/-- The entry under an id is the pending call with this id. -/
theorem Shared.find_eq_some {s : Shared} {id : String} {n : Nat} : s.find id = some n ↔ n ∈ s.pending ∧ id = callId n := by
  unfold Shared.find
  constructor
  · intro h
    exact ⟨List.mem_of_find?_eq_some h, (beq_iff_eq.1 (List.find?_some (p := fun m => callId m == id) h)).symm⟩
  · rintro ⟨hmem, rfl⟩
    cases hfind : s.pending.find? fun m => callId m == callId n with
    | none => simpa using List.find?_eq_none.1 hfind n hmem
    | some m =>
      have hid : callId m = callId n := beq_iff_eq.1 (List.find?_some (p := fun m => callId m == callId n) hfind)
      rw [callId_injective hid]

/-- The answer to a ping finds no call. -/
theorem Shared.find_heartbeatId (s : Shared) (n : Nat) : s.find (heartbeatId n) = none := by
  cases h : s.find (heartbeatId n) with
  | none => rfl
  | some m =>
    have hlist := congrArg String.toList (Shared.find_eq_some.1 h).2
    unfold callId heartbeatId at hlist
    rw [String.toList_append, String.toList_append] at hlist
    simp at hlist

/-- An integer as id finds no call, whatever its digits. -/
theorem Shared.find_int (s : Shared) (k : Int) : s.find (toString k) = none := by
  cases h : s.find (toString k) with
  | none => rfl
  | some m =>
    have hlist := congrArg String.toList (Shared.find_eq_some.1 h).2
    unfold callId at hlist
    rw [String.toList_append] at hlist
    cases k with
    | ofNat n =>
      change n.repr.toList = _ at hlist
      rw [Nat.toList_repr] at hlist
      have hdigit : 'r' ∈ Nat.toDigits 10 n := by simp [hlist]
      exact absurd (Nat.isDigit_of_mem_toDigits (by decide) (by decide) hdigit) (by decide)
    | negSucc n =>
      change ("-" ++ n.succ.repr).toList = _ at hlist
      rw [String.toList_append] at hlist
      simp at hlist

/-! ### What a step does to the answers -/

/-- The call that an input of the reader answers. -/
def Input.answer : Input → Option (Nat × Outcome)
  | .result n value => some (n, .ok value)
  | .error n code detail => some (n, .error (.rpc code detail))
  | _ => none

theorem Input.fromLine_of_answer {input : Input} {n : Nat} {outcome : Outcome}
    (h : input.answer = some (n, outcome)) : input.fromLine = true := by
  cases input <;> first | rfl | cases h

/-- The step of a task, by what it does to the pending map and the answers. -/
inductive Answers (s s' : Shared) (input : Input) (t : Task) : Prop where
  | keeps (hpending : ∀ n ∈ s'.pending, n ∈ s.pending) (hanswers : s'.answers = s.answers)
  | inserts (n : Nat) (ht : t = .call (.inserting n)) (h : s' = { s with pending := s.pending.insert n })
  | resolves (n : Nat) (outcome : Outcome) (hinput : input.answer = some (n, outcome)) (h : s' = s.resolve n outcome)
  | drains (reason : String) (h : s' = s.failPending (.closed reason))

private theorem Shared.mem_remove {s : Shared} {n m : Nat} : m ∈ (s.remove n).pending ↔ m ∈ s.pending ∧ m ≠ n := by
  simp [Shared.remove]

private theorem answers_of_same {s s' : Shared} (h : Same s s') (input : Input) (t : Task) : Answers s s' input t :=
  .keeps (fun _ hn => h.pending ▸ hn) h.answers

private theorem call_answers {s s' : Shared} {point point' : CallPoint} {input : Input}
    (h : point.Step s input s' point') : Answers s s' input (.call point) := by
  cases h with
  | inserts => exact .inserts _ rfl rfl
  | queues _ => exact answers_of_same (s.same_send _) _ _
  | withdraws | expires => exact .keeps (fun n hn => (Shared.mem_remove.1 hn).1) rfl
  | _ => exact .keeps (fun _ hn => hn) rfl

private theorem reading_answers {s s' : Shared} {point' : ReaderPoint} {input : Input}
    (h : ReaderPoint.reading.next s input = some (s', point')) : Answers s s' input (.reader .reading) := by
  cases input with
  | result n value =>
    cases h
    exact .resolves n (.ok value) rfl rfl
  | error n code detail =>
    cases h
    exact .resolves n (.error (.rpc code detail)) rfl rfl
  | ready | closeFrame _ | lost =>
    cases h
    exact .keeps (fun _ hn => hn) rfl
  | _ => cases h

theorem task_answers {s s' : Shared} {t t' : Task} {input : Input} {spawns : List Task}
    (h : t.next s input = some (s', t', spawns)) : Answers s s' input t := by
  have heffect := task_effect h
  cases heffect with
  | closes hc hc' hclose hfinish hlost hdrain =>
    cases hclose with
    | drains => exact .drains _ rfl
    | finishes => exact answers_of_same (hfinish s) _ _
    | _ => exact .keeps (fun _ hn => hn) rfl
  | opens heq =>
    subst heq
    exact .keeps (fun _ hn => hn) rfl
  | resolves n outcome hanswer heq =>
    obtain ⟨⟨s₁, point₁⟩, hnext, hpair⟩ := Option.map_eq_some_iff.1 h
    cases hpair
    exact reading_answers hnext
  | calls hcall => exact call_answers hcall
  | quiet hsame hc hc' hcall hdrain => exact answers_of_same hsame _ _

/-! ### A number is answered once -/

/-- Nobody waits under this number, and nobody was answered under it. -/
def Shared.Unused (s : Shared) (n : Nat) : Prop := n ∉ s.pending ∧ s.answers n = none

/-- The numbers of a client: a number above the counter or of a call that has not inserted itself is unused, and a
pending call has no answer. -/
structure Numbered (s : System) : Prop where
  ids : Program.Distinct Task.id Shared.nextId s
  above : ∀ n, s.shared.nextId ≤ n → s.shared.Unused n
  inserting : ∀ (i n : Nat), s.tasks[i]? = some (.call (.inserting n)) → s.shared.Unused n
  pending : ∀ n ∈ s.shared.pending, s.shared.answers n = none

private theorem answers_resolve (s : Shared) (n m : Nat) (outcome : Outcome) :
    (s.resolve n outcome).answers m = if n ∈ s.pending ∧ m = n then some outcome else s.answers m := by
  unfold Shared.resolve
  split
  · rename_i hmem
    by_cases hm : m = n <;> simp [hm, hmem]
  · rename_i hmem
    simp [hmem]

private theorem mem_resolve {s : Shared} {n m : Nat} {outcome : Outcome} :
    m ∈ (s.resolve n outcome).pending ↔ m ∈ s.pending ∧ m ≠ n := by
  unfold Shared.resolve
  split
  · exact Shared.mem_remove
  · rename_i hmem
    exact ⟨fun hm => ⟨hm, fun heq => hmem (heq ▸ hm)⟩, fun hm => hm.1⟩

/-- A number that no call is about to insert stays unused. -/
private theorem unused_step {s s' : Shared} {input : Input} {t : Task} (h : Answers s s' input t) {n : Nat}
    (ht : t ≠ .call (.inserting n)) (hn : s.Unused n) : s'.Unused n := by
  cases h with
  | keeps hpending hanswers => exact ⟨fun hmem => hn.1 (hpending n hmem), hanswers ▸ hn.2⟩
  | inserts m heq hs =>
    subst hs
    refine ⟨?_, hn.2⟩
    intro hmem
    rcases List.mem_insert_iff.1 hmem with rfl | hold
    · exact ht heq
    · exact hn.1 hold
  | resolves m outcome hinput hs =>
    subst hs
    refine ⟨fun hmem => hn.1 (mem_resolve.1 hmem).1, ?_⟩
    rw [answers_resolve, if_neg (by rintro ⟨hmem, rfl⟩; exact hn.1 hmem)]
    exact hn.2
  | drains reason hs =>
    subst hs
    refine ⟨List.not_mem_nil, ?_⟩
    change (if n ∈ s.pending then _ else s.answers n) = none
    rw [if_neg hn.1]
    exact hn.2

/-- A pending call that was pending before has no answer still. -/
private theorem pending_step {s s' : Shared} {input : Input} {t : Task} (h : Answers s s' input t)
    (hinserting : ∀ n, t = .call (.inserting n) → s.Unused n) (hs : ∀ n ∈ s.pending, s.answers n = none) :
    ∀ n ∈ s'.pending, s'.answers n = none := by
  cases h with
  | keeps hpending hanswers => exact fun n hn => hanswers ▸ hs n (hpending n hn)
  | inserts m heq hs' =>
    subst hs'
    intro n hn
    rcases List.mem_insert_iff.1 hn with rfl | hold
    · exact (hinserting n heq).2
    · exact hs n hold
  | resolves m outcome hinput hs' =>
    subst hs'
    intro n hn
    obtain ⟨hold, hne⟩ := mem_resolve.1 hn
    rw [answers_resolve, if_neg (fun h => hne h.2)]
    exact hs n hold
  | drains reason hs' =>
    subst hs'
    rintro n ⟨⟩

private theorem id_inserting (n : Nat) : (Task.call (.inserting n)).id = some n := rfl

theorem numbered_step {s s' : System} {l : Label} (h : Numbered s) (hstep : program.step s l = some s') :
    Numbered s' := by
  have hids := ids_step h.ids hstep
  cases l with
  | start t =>
    obtain ⟨hentry, rfl⟩ := Program.step_start hstep
    refine ⟨hids, h.above, ?_, h.pending⟩
    intro i n hi
    rcases List.mem_append.1 (List.mem_of_getElem? hi) with hmem | hmem
    · obtain ⟨j, hj⟩ := List.mem_iff_getElem?.1 hmem
      exact h.inserting j n hj
    · cases List.mem_singleton.1 hmem
      cases entry_isCall hentry
  | task i input =>
    obtain ⟨t, shared, t', spawns, ht, hnext, rfl⟩ := Program.step_task hstep
    have hanswers := task_answers hnext
    obtain ⟨hle, -⟩ := task_id hnext
    have hown : ∀ n, t = .call (.inserting n) → s.shared.Unused n := fun n heq => h.inserting i n (heq ▸ ht)
    refine ⟨hids, ?_, ?_, pending_step hanswers hown h.pending⟩
    · intro n hn
      refine unused_step hanswers ?_ (h.above n (Nat.le_trans hle hn))
      rintro rfl
      exact absurd (h.ids.below i _ n ht (id_inserting n)) (Nat.not_lt.2 (Nat.le_trans hle hn))
    · intro j n hj
      rcases Program.lookup_after hj with ⟨rfl, rfl⟩ | ⟨hij, hold⟩ | hspawn
      · -- the call that just drew its number
        cases task_moves hnext with
        | call hcall =>
          cases hcall
          exact h.above _ (Nat.le_refl _)
      · refine unused_step hanswers ?_ (h.inserting j n hold)
        rintro rfl
        exact hij (h.ids.unique j i _ _ n hold ht (id_inserting n) (id_inserting n))
      · cases task_spawns hnext _ hspawn
  | env e => exact e.elim

theorem numbered_start : Numbered Rpc.start := by
  refine ⟨orderly_start.ids, fun n _ => ⟨List.not_mem_nil, rfl⟩, ?_, by rintro n ⟨⟩⟩
  intro i n hi
  have hmem := List.mem_of_getElem? hi
  simp [Rpc.start] at hmem

/-- An answer is never replaced. -/
theorem answered_step {s s' : System} {l : Label} (h : Numbered s) (hstep : program.step s l = some s') {n : Nat}
    {outcome : Outcome} (ha : s.shared.answers n = some outcome) : s'.shared.answers n = some outcome := by
  have hnot : n ∉ s.shared.pending := by
    intro hmem
    rw [h.pending n hmem] at ha
    cases ha
  cases l with
  | start t =>
    obtain ⟨-, rfl⟩ := Program.step_start hstep
    exact ha
  | task i input =>
    obtain ⟨t, shared, t', spawns, -, hnext, rfl⟩ := Program.step_task hstep
    cases task_answers hnext with
    | keeps hpending hanswers => exact hanswers ▸ ha
    | inserts m heq hs =>
      subst hs
      exact ha
    | resolves m other hinput hs =>
      subst hs
      change (s.shared.resolve m other).answers n = _
      rw [answers_resolve, if_neg (by rintro ⟨hmem, rfl⟩; exact hnot hmem)]
      exact ha
    | drains reason hs =>
      subst hs
      change (if n ∈ s.shared.pending then _ else s.shared.answers n) = _
      rw [if_neg hnot]
      exact ha
  | env e => exact e.elim

/-- A new answer is what the reader was given for a pending call, or the reason of a close. -/
theorem answer_from {s s' : System} {l : Label} (hstep : program.step s l = some s') {n : Nat} {outcome : Outcome}
    (hbefore : s.shared.answers n = none) (hafter : s'.shared.answers n = some outcome) :
    (∃ i input, l = .task i input ∧ input.answer = some (n, outcome)) ∨ ∃ reason, outcome = .error (.closed reason) := by
  cases l with
  | start t =>
    obtain ⟨-, rfl⟩ := Program.step_start hstep
    rw [hbefore] at hafter
    cases hafter
  | task i input =>
    obtain ⟨t, shared, t', spawns, -, hnext, rfl⟩ := Program.step_task hstep
    change shared.answers n = _ at hafter
    cases task_answers hnext with
    | keeps hpending hanswers =>
      rw [hanswers, hbefore] at hafter
      cases hafter
    | inserts m heq hs =>
      subst hs
      change s.shared.answers n = _ at hafter
      rw [hbefore] at hafter
      cases hafter
    | resolves m other hinput hs =>
      subst hs
      rw [answers_resolve] at hafter
      split at hafter
      · rename_i hm
        cases hafter
        exact .inl ⟨i, input, rfl, hm.2 ▸ hinput⟩
      · rw [hbefore] at hafter
        cases hafter
    | drains reason hs =>
      subst hs
      change (if n ∈ s.shared.pending then some _ else s.shared.answers n) = _ at hafter
      split at hafter
      · cases hafter
        exact .inr ⟨reason, rfl⟩
      · rw [hbefore] at hafter
        cases hafter
  | env e => exact e.elim

/-! ### What a line does -/

/-- An outcome that is a response of the server. -/
def isResponse : Outcome → Bool
  | .ok _ | .error (.rpc _ _) => true
  | .error _ => false

private theorem reading_step {c : System} {reader : Nat} {input : Input} {shared : Shared}
    (hreading : c.tasks[reader]? = some (.reader .reading))
    (hnext : (Task.reader .reading).next c.shared input = some (shared, .reader .reading, [])) :
    program.step c (.task reader input) = some ⟨shared, c.tasks⟩ := by
  obtain ⟨hlt, hget⟩ := List.getElem?_eq_some_iff.1 hreading
  have htasks : c.tasks.set reader (.reader .reading) ++ [] = c.tasks := by
    rw [List.append_nil, ← hget, List.set_getElem_self]
  rw [Program.task_step hreading hnext, htasks]

/-- A call that has returned stays returned. -/
private theorem returned_step {s s' : System} {l : Label} (hstep : program.step s l = some s') {i : Nat}
    {outcome : Outcome} (hi : s.tasks[i]? = some (.call (.returned outcome))) :
    s'.tasks[i]? = some (.call (.returned outcome)) := by
  cases l with
  | start t =>
    obtain ⟨-, rfl⟩ := Program.step_start hstep
    exact (List.getElem?_append_left (List.getElem?_eq_some_iff.1 hi).1).trans hi
  | task j input =>
    obtain ⟨t, shared, t', spawns, ht, hnext, rfl⟩ := Program.step_task hstep
    change (s.tasks.set j t' ++ spawns)[i]? = _
    rw [Program.getElem?_after hi]
    refine if_neg ?_
    rintro rfl
    rw [hi] at ht
    cases ht
    cases hnext
  | env e => exact e.elim

/-- A call returns a response from its place in the queue of answers. -/
private theorem returns_answer {s s' : System} {l : Label} (hstep : program.step s l = some s') {i : Nat}
    {outcome : Outcome} (hbefore : s.tasks[i]? ≠ some (.call (.returned outcome)))
    (hafter : s'.tasks[i]? = some (.call (.returned outcome))) (hresponse : isResponse outcome = true) :
    ∃ n, s.tasks[i]? = some (.call (.waiting n)) ∧ s'.shared.answers n = some outcome := by
  cases l with
  | start t =>
    obtain ⟨hentry, rfl⟩ := Program.step_start hstep
    have hcall := entry_isCall hentry
    by_cases hlt : i < s.tasks.length
    · rw [List.getElem?_append_left hlt] at hafter
      exact absurd hafter hbefore
    · rw [List.getElem?_append_right (Nat.le_of_not_lt hlt)] at hafter
      rw [← List.mem_singleton.1 (List.mem_of_getElem? hafter)] at hcall
      cases hcall
  | task j input =>
    obtain ⟨t, shared, t', spawns, ht, hnext, rfl⟩ := Program.step_task hstep
    rcases Program.lookup_after hafter with ⟨rfl, rfl⟩ | ⟨-, hold⟩ | hspawn
    · cases task_moves hnext with
      | call hcall =>
        cases hcall with
        | answered ha => exact ⟨_, ht, ha⟩
        | refused _ | withdraws | expires => cases hresponse
    · exact absurd hold hbefore
    · cases task_spawns hnext _ hspawn
  | env e => exact e.elim

section

variable [JsonReader]

/-- The reader handled a line: an event is broadcast, and only a pending call whose id the line carries is answered. -/
structure Handled (s : Wire) (line : String) (s' : Wire) : Prop where
  broadcast : s'.broadcast = s.broadcast ++ (eventOf line).toList
  tasks : s'.client.tasks = s.client.tasks
  pending : ∀ n, n ∈ s'.client.shared.pending ↔
    n ∈ s.client.shared.pending ∧ ∀ outcome, responseOf line ≠ some (callId n, outcome)
  answered : ∀ n outcome, n ∈ s.client.shared.pending → responseOf line = some (callId n, outcome) →
    s'.client.shared.answers n = some outcome
  others : ∀ n, (n ∈ s.client.shared.pending → ∀ outcome, responseOf line ≠ some (callId n, outcome)) →
    s'.client.shared.answers n = s.client.shared.answers n

/-- A line that answers nobody. -/
private theorem handled_quiet {s s' : Wire} {line : String}
    (hbroadcast : s'.broadcast = s.broadcast ++ (eventOf line).toList) (htasks : s'.client.tasks = s.client.tasks)
    (hpending : s'.client.shared.pending = s.client.shared.pending)
    (hanswers : s'.client.shared.answers = s.client.shared.answers)
    (hno : ∀ n ∈ s.client.shared.pending, ∀ outcome, responseOf line ≠ some (callId n, outcome)) :
    Handled s line s' := by
  refine ⟨hbroadcast, htasks, ?_, ?_, ?_⟩
  · intro n
    rw [hpending]
    exact ⟨fun hn => ⟨hn, hno n hn⟩, fun hn => hn.1⟩
  · exact fun n outcome hn hresponse => absurd hresponse (hno n hn outcome)
  · exact fun n _ => by rw [hanswers]

/-- A line that answers the call `n`. -/
private theorem handled_answer {s s' : Wire} {line : String} {n : Nat} {outcome : Outcome}
    (hbroadcast : s'.broadcast = s.broadcast ++ (eventOf line).toList)
    (htasks : s'.client.tasks = s.client.tasks) (hn : n ∈ s.client.shared.pending)
    (hshared : s'.client.shared = s.client.shared.resolve n outcome)
    (hresponse : responseOf line = some (callId n, outcome)) : Handled s line s' := by
  have hid : ∀ m, (∀ other, responseOf line ≠ some (callId m, other)) ↔ m ≠ n := by
    intro m
    rw [hresponse]
    constructor
    · rintro hne rfl
      exact hne outcome rfl
    · intro hne other heq
      exact hne (callId_injective (Prod.mk.inj (Option.some.inj heq)).1).symm
  refine ⟨hbroadcast, htasks, ?_, ?_, ?_⟩
  · intro m
    rw [hshared, mem_resolve, hid m]
  · intro m other hm hother
    rw [hresponse] at hother
    obtain ⟨hm', rfl⟩ := Prod.mk.inj (Option.some.inj hother)
    rw [hshared, answers_resolve, if_pos ⟨hn, (callId_injective hm').symm⟩]
  · intro m hm
    rw [hshared, answers_resolve, if_neg]
    rintro ⟨-, rfl⟩
    exact (hid _).1 (hm hn) rfl

/-- A line that is a response: its id finds a pending call, or nobody. -/
private theorem handle_response {s s' : Wire} {reader : Nat} {line : String} {decoded : Decoded} {id : String}
    {outcome : Outcome} {f : Nat → Input} (hreading : s.client.tasks[reader]? = some (.reader .reading))
    (hline : decode line = some decoded) (hevent : decoded.event? = none)
    (hresponse : decoded.response = some (id, outcome))
    (hinput : decoded.input s.client.shared = (s.client.shared.find id).map f)
    (hanswer : ∀ n, (Task.reader .reading).next s.client.shared (f n) =
      some (s.client.shared.resolve n outcome, .reader .reading, []))
    (h : s.handle reader line = some s') : s'.unread = s.unread ∧ Handled s line s' := by
  have hresponse : responseOf line = some (id, outcome) := by simp [responseOf, hline, hresponse]
  have hbroadcast : s.broadcast = s.broadcast ++ (eventOf line).toList := by simp [eventOf, hline, hevent]
  unfold Wire.handle at h
  rw [hline] at h
  dsimp only at h
  rw [hevent] at h
  dsimp only at h
  rw [hinput] at h
  cases hfind : s.client.shared.find id with
  | none =>
    rw [hfind] at h
    cases h
    refine ⟨rfl, handled_quiet hbroadcast rfl rfl rfl ?_⟩
    intro n hn other heq
    rw [hresponse] at heq
    rw [Shared.find_eq_some.2 ⟨hn, (Prod.mk.inj (Option.some.inj heq)).1⟩] at hfind
    cases hfind
  | some n =>
    obtain ⟨hn, rfl⟩ := Shared.find_eq_some.1 hfind
    rw [hfind] at h
    dsimp only [Option.map_some] at h
    rw [reading_step hreading (hanswer n)] at h
    cases h
    exact ⟨rfl, handled_answer hbroadcast rfl hn rfl hresponse⟩

theorem handle_spec {s s' : Wire} {reader : Nat} {line : String}
    (hreading : s.client.tasks[reader]? = some (.reader .reading)) (h : s.handle reader line = some s') :
    s'.unread = s.unread ∧ Handled s line s' := by
  cases hline : decode line with
  | none =>
    unfold Wire.handle at h
    rw [hline] at h
    cases h
    exact ⟨rfl, handled_quiet (by simp [eventOf, hline]) rfl rfl rfl (by simp [responseOf, hline])⟩
  | some decoded =>
    cases decoded with
    | result id value =>
      exact handle_response (f := fun n => .result n value) hreading hline rfl rfl rfl (fun _ => rfl) h
    | error id err =>
      exact handle_response (f := fun n => .error n err.code err.message) hreading hline rfl rfl rfl
        (fun _ => rfl) h
    | event ev =>
      have hbroadcast : s.broadcast ++ [ev] = s.broadcast ++ (eventOf line).toList := by
        simp [eventOf, hline, Decoded.event?]
      have hno : ∀ n ∈ s.client.shared.pending, ∀ outcome, responseOf line ≠ some (callId n, outcome) := by
        simp [responseOf, hline, Decoded.response]
      unfold Wire.handle at h
      rw [hline] at h
      dsimp only [Decoded.event?, Decoded.input] at h
      by_cases hready : ev.eventType = "gateway.ready"
      · rw [if_pos hready] at h
        dsimp only at h
        rw [reading_step hreading rfl] at h
        cases h
        exact ⟨rfl, handled_quiet hbroadcast rfl rfl rfl hno⟩
      · rw [if_neg hready] at h
        cases h
        exact ⟨rfl, handled_quiet hbroadcast rfl rfl rfl hno⟩
    | ignored =>
      unfold Wire.handle at h
      rw [hline] at h
      cases h
      refine ⟨rfl, handled_quiet ?_ rfl rfl rfl ?_⟩
      · simp [eventOf, hline, Decoded.event?]
      · simp [responseOf, hline, Decoded.response]

namespace Wire

theorem line_step {s s' : Wire} {reader : Nat} (h : s.step (.line reader) = some s') :
    ∃ line, s.unread = line :: s'.unread ∧ Handled s line s' := by
  unfold step at h
  dsimp only at h
  split at h
  · rename_i line rest hreading hunread
    obtain ⟨hrest, hhandled⟩ := handle_spec (s := { s with unread := rest }) hreading h
    refine ⟨line, ?_, hhandled.1, hhandled.2, hhandled.3, hhandled.4, hhandled.5⟩
    rw [hunread, hrest]
  · cases h

theorem frame_step {s s' : Wire} {reader : Nat} {text : String} (h : s.step (.frame reader text) = some s') :
    s.unread = [] ∧ s' = { s with unread := splitLines text } := by
  unfold step at h
  dsimp only at h
  split at h
  · rename_i hunread
    cases h
    exact ⟨hunread, rfl⟩
  · cases h

/-- A step of a party is one of the client, with an input that no line carries. -/
theorem client_step {s s' : Wire} {l : Label} (h : s.step (.client l) = some s') :
    (∀ i input, l = .task i input → input.fromLine = false) ∧
      ∃ client, program.step s.client l = some client ∧ s' = { s with client := client } := by
  cases l with
  | task i input =>
    unfold step at h
    dsimp only at h
    split at h
    · cases h
    · rename_i hinput
      obtain ⟨client, hstep, rfl⟩ := Option.map_eq_some_iff.1 h
      refine ⟨?_, client, hstep, rfl⟩
      rintro _ _ ⟨⟩
      simp only [Bool.or_eq_true, not_or, Bool.not_eq_true] at hinput
      exact hinput.1
  | start t =>
    obtain ⟨client, hstep, rfl⟩ := Option.map_eq_some_iff.1 h
    exact ⟨by rintro _ _ ⟨⟩, client, hstep, rfl⟩
  | env e => exact e.elim

private theorem handle_moves {s s' : Wire} {reader : Nat} {line : String} (h : s.handle reader line = some s') :
    s'.client = s.client ∨ ∃ l, program.step s.client l = some s'.client := by
  unfold handle at h
  cases hline : decode line with
  | none =>
    rw [hline] at h
    cases h
    exact .inl rfl
  | some decoded =>
    rw [hline] at h
    -- the broadcast leaves the client alone, so the input is the same with and without it
    cases hevent : decoded.event? <;> cases hinput : decoded.input s.client.shared <;>
      simp only [hevent, hinput] at h
    · cases h
      exact .inl rfl
    · obtain ⟨client, hstep, rfl⟩ := Option.map_eq_some_iff.1 h
      exact .inr ⟨_, hstep⟩
    · cases h
      exact .inl rfl
    · obtain ⟨client, hstep, rfl⟩ := Option.map_eq_some_iff.1 h
      exact .inr ⟨_, hstep⟩

/-- The client takes a step of its own, or none. -/
theorem moves {s s' : Wire} {l : WireLabel} (h : s.step l = some s') :
    s'.client = s.client ∨ ∃ l', program.step s.client l' = some s'.client := by
  cases l with
  | client l =>
    obtain ⟨-, client, hstep, rfl⟩ := client_step h
    exact .inr ⟨l, hstep⟩
  | frame reader text =>
    obtain ⟨-, rfl⟩ := frame_step h
    exact .inl rfl
  | line reader =>
    unfold step at h
    dsimp only at h
    split at h
    · rename_i line rest hreading hunread
      exact handle_moves (s := { s with unread := rest }) h
    · cases h

end Wire

/-! ### Every run -/

theorem numbered_run {labels : List WireLabel} {s : Wire} (h : exec Wire.step Wire.start labels = some s) :
    Numbered s.client := by
  refine exec_preserves Wire.step (P := fun s => Numbered s.client) ?_ numbered_start h
  intro s l s' hs hstep
  rcases Wire.moves hstep with heq | ⟨l', hclient⟩
  · exact heq ▸ hs
  · exact numbered_step hs hclient

/-- An answer stays until the end of the run. -/
theorem answered_run {labels : List WireLabel} {s s' : Wire} (hs : Numbered s.client)
    (h : exec Wire.step s labels = some s') {n : Nat} {outcome : Outcome}
    (ha : s.client.shared.answers n = some outcome) : s'.client.shared.answers n = some outcome := by
  have hboth : Numbered s'.client ∧ s'.client.shared.answers n = some outcome := by
    refine exec_preserves Wire.step
      (P := fun s => Numbered s.client ∧ s.client.shared.answers n = some outcome) ?_ ⟨hs, ha⟩ h
    rintro s l s' ⟨hs, ha⟩ hstep
    rcases Wire.moves hstep with heq | ⟨l', hclient⟩
    · exact heq ▸ ⟨hs, ha⟩
    · exact ⟨numbered_step hs hclient, answered_step hs hclient ha⟩
  exact hboth.2

/-- Behind the steps `before` a line reached the call `n` while it was pending: a response with the id of the call. -/
def Reached (labels : List WireLabel) (n : Nat) (outcome : Outcome) (before : List WireLabel) : Prop :=
  ∃ reader after s line rest, labels = before ++ .line reader :: after ∧
    exec Wire.step Wire.start before = some s ∧ s.unread = line :: rest ∧ n ∈ s.client.shared.pending ∧
      responseOf line = some (callId n, outcome)

private theorem Reached.snoc {labels before : List WireLabel} {n : Nat} {outcome : Outcome}
    (h : Reached labels n outcome before) (l : WireLabel) : Reached (labels ++ [l]) n outcome before := by
  obtain ⟨reader, after, s, line, rest, rfl, hfacts⟩ := h
  exact ⟨reader, after ++ [l], s, line, rest, by simp, hfacts⟩

/-- A line that reached a call was the last step, or an earlier one. -/
private theorem Reached.of_snoc {labels before : List WireLabel} {l : WireLabel} {n : Nat} {outcome : Outcome}
    (h : Reached (labels ++ [l]) n outcome before) : before = labels ∨ Reached labels n outcome before := by
  obtain ⟨reader, after, s, line, rest, heq, hfacts⟩ := h
  rcases List.eq_nil_or_concat after with rfl | ⟨after', l', rfl⟩
  · exact .inl (List.append_inj' heq rfl).1.symm
  · rw [List.concat_eq_append, ← List.cons_append, ← List.append_assoc] at heq
    exact .inr ⟨reader, after', s, line, rest, (List.append_inj' heq rfl).1, hfacts⟩

/-- What reached a call is its answer. -/
private theorem Reached.answered {labels before : List WireLabel} {s : Wire} {n : Nat} {outcome : Outcome}
    (h : Reached labels n outcome before) (hrun : exec Wire.step Wire.start labels = some s) :
    s.client.shared.answers n = some outcome := by
  obtain ⟨reader, after, s₁, line, rest, rfl, hbefore, hunread, hpending, hresponse⟩ := h
  obtain ⟨t, s₂, ht, hstep, hafter⟩ := exec_cut Wire.step hrun
  rw [hbefore] at ht
  cases ht
  obtain ⟨line', hunread', hhandled⟩ := Wire.line_step hstep
  rw [hunread] at hunread'
  cases hunread'
  have hnumbered : Numbered s₂.client := numbered_run ((exec_snoc Wire.step).2 ⟨s₁, hbefore, hstep⟩)
  exact answered_run hnumbered hafter (hhandled.answered n outcome hpending hresponse)

/-- A call is reached at most once: it is not pending any more. -/
private theorem Reached.unanswered {labels : List WireLabel} {s : Wire} {n : Nat} {outcome : Outcome}
    (h : Reached (labels ++ [l]) n outcome labels) (hrun : exec Wire.step Wire.start labels = some s) :
    s.client.shared.answers n = none := by
  obtain ⟨reader, after, s₁, line, rest, -, hbefore, -, hpending, -⟩ := h
  rw [hrun] at hbefore
  cases hbefore
  exact (numbered_run hrun).pending n hpending

/-- A call that a response answered was reached by one line, with this response. -/
theorem reached_once {labels : List WireLabel} {s : Wire} (hrun : exec Wire.step Wire.start labels = some s) (n : Nat)
    (outcome : Outcome) (hresponse : isResponse outcome = true) (ha : s.client.shared.answers n = some outcome) :
    ∃ before, Reached labels n outcome before ∧ ∀ before' outcome', Reached labels n outcome' before' → before' = before := by
  revert n outcome
  refine exec_history Wire.step (P := fun labels s => ∀ n outcome, isResponse outcome = true →
    s.client.shared.answers n = some outcome → ∃ before, Reached labels n outcome before ∧
      ∀ before' outcome', Reached labels n outcome' before' → before' = before) ?_ ?_ hrun
  · rintro n outcome - ⟨⟩
  intro labels s l s' hrun ih hstep n outcome hresponse ha
  cases hold : s.client.shared.answers n with
  | some outcome' =>
    -- the call was answered before: the last step did not reach it
    have hsame : outcome' = outcome := by
      have hone : exec Wire.step s [l] = some s' := by simpa [exec] using hstep
      have hnew := answered_run (numbered_run hrun) hone hold
      rw [ha] at hnew
      exact (Option.some.inj hnew).symm
    subst hsame
    obtain ⟨before, hreached, honly⟩ := ih n outcome' hresponse hold
    refine ⟨before, hreached.snoc l, ?_⟩
    intro before' other hother
    rcases hother.of_snoc with rfl | hearlier
    · rw [hother.unanswered hrun] at hold
      cases hold
    · exact honly before' other hearlier
  | none =>
    -- the last step answered it: a line with its id
    cases l with
    | client l =>
      obtain ⟨hinput, client, hclient, rfl⟩ := Wire.client_step hstep
      rcases answer_from hclient hold ha with ⟨i, input, rfl, hanswer⟩ | ⟨reason, rfl⟩
      · have hline := hinput i input rfl
        rw [Input.fromLine_of_answer hanswer] at hline
        cases hline
      · cases hresponse
    | frame reader text =>
      obtain ⟨-, rfl⟩ := Wire.frame_step hstep
      rw [hold] at ha
      cases ha
    | line reader =>
      obtain ⟨line, hunread, hhandled⟩ := Wire.line_step hstep
      have hcarried : n ∈ s.client.shared.pending ∧ ∃ other, responseOf line = some (callId n, other) := by
        by_contra hnot
        have hsame := hhandled.others n (fun hpending other heq => hnot ⟨hpending, other, heq⟩)
        rw [hold, ha] at hsame
        cases hsame
      obtain ⟨hpending, other, heq⟩ := hcarried
      have hother := hhandled.answered n other hpending heq
      rw [ha] at hother
      cases hother
      refine ⟨labels, ⟨reader, [], s, line, s'.unread, rfl, hrun, hunread, hpending, heq⟩, ?_⟩
      intro before' other hreached
      rcases hreached.of_snoc with rfl | hearlier
      · rfl
      · rw [hearlier.answered hrun] at hold
        cases hold

/-- A call that returned a response waited under a number, and the response is what this number was answered. -/
theorem returned_waited {labels : List WireLabel} {s : Wire} (hrun : exec Wire.step Wire.start labels = some s) (i : Nat)
    (outcome : Outcome) (hresponse : isResponse outcome = true)
    (hi : s.client.tasks[i]? = some (.call (.returned outcome))) :
    ∃ n before after s₁, labels = before ++ after ∧ exec Wire.step Wire.start before = some s₁ ∧
      s₁.client.tasks[i]? = some (.call (.waiting n)) ∧ s.client.shared.answers n = some outcome := by
  revert i outcome
  refine exec_history Wire.step (P := fun labels s => ∀ (i : Nat) outcome, isResponse outcome = true →
    s.client.tasks[i]? = some (.call (.returned outcome)) → ∃ n before after s₁, labels = before ++ after ∧
      exec Wire.step Wire.start before = some s₁ ∧ s₁.client.tasks[i]? = some (.call (.waiting n)) ∧
        s.client.shared.answers n = some outcome) ?_ ?_ hrun
  · rintro i outcome - hi
    have hmem := List.mem_of_getElem? hi
    simp [Wire.start, Rpc.start] at hmem
  intro labels s l s' hrun ih hstep i outcome hresponse hi
  have hold : s.client.tasks[i]? = some (.call (.returned outcome)) → ∃ n before after s₁,
      labels ++ [l] = before ++ after ∧ exec Wire.step Wire.start before = some s₁ ∧
        s₁.client.tasks[i]? = some (.call (.waiting n)) ∧ s'.client.shared.answers n = some outcome := by
    intro hi
    obtain ⟨n, before, after, s₁, rfl, hbefore, hwaiting, ha⟩ := ih i outcome hresponse hi
    have hone : exec Wire.step s [l] = some s' := by simpa [exec] using hstep
    exact ⟨n, before, after ++ [l], s₁, by simp, hbefore, hwaiting, answered_run (numbered_run hrun) hone ha⟩
  rcases Wire.moves hstep with heq | ⟨l', hclient⟩
  · exact hold (heq ▸ hi)
  · by_cases hbefore : s.client.tasks[i]? = some (.call (.returned outcome))
    · exact hold hbefore
    · obtain ⟨n, hwaiting, ha⟩ := returns_answer hclient hbefore hi hresponse
      exact ⟨n, labels, [l], s, rfl, hrun, hwaiting, ha⟩

/-- The lines of the frames of a run, in wire order. -/
def wireLines (labels : List WireLabel) : List String :=
  labels.flatMap fun
    | .frame _ text => splitLines text
    | _ => []

/-- Every event is sent once, in wire order. -/
theorem broadcast_run {labels : List WireLabel} {s : Wire} (hrun : exec Wire.step Wire.start labels = some s) :
    s.broadcast ++ s.unread.filterMap eventOf = (wireLines labels).filterMap eventOf := by
  refine exec_history Wire.step (P := fun labels s =>
    s.broadcast ++ s.unread.filterMap eventOf = (wireLines labels).filterMap eventOf) rfl ?_ hrun
  intro labels s l s' _ ih hstep
  have hlines : ∀ l, wireLines (labels ++ [l]) = wireLines labels ++ wireLines [l] := by simp [wireLines]
  rw [hlines, List.filterMap_append, ← ih]
  cases l with
  | client l =>
    obtain ⟨-, client, -, rfl⟩ := Wire.client_step hstep
    simp [wireLines]
  | frame reader text =>
    obtain ⟨hunread, rfl⟩ := Wire.frame_step hstep
    simp [wireLines, hunread]
  | line reader =>
    obtain ⟨line, hunread, hhandled⟩ := Wire.line_step hstep
    rw [hhandled.broadcast, hunread, List.filterMap_cons]
    cases eventOf line <;> simp [wireLines]

/-- The first response that carried the id of the call while it was pending. -/
def FirstResponse (labels : List WireLabel) (n : Nat) (outcome : Outcome) : Prop :=
  ∃ before, Reached labels n outcome before ∧
    ∀ before' outcome', Reached labels n outcome' before' → before.length ≤ before'.length

/-- The calls and the events of a run of the client. -/
structure Correlated (labels : List WireLabel) (s : Wire) : Prop where
  /-- A call completes at most once. -/
  once : ∀ before after s₁ (i : Nat) outcome, labels = before ++ after → exec Wire.step Wire.start before = some s₁ →
    s₁.client.tasks[i]? = some (.call (.returned outcome)) → s.client.tasks[i]? = some (.call (.returned outcome))
  /-- A call that completes with a response waited under its number `n`, which is its own. -/
  first : ∀ (i : Nat) outcome, s.client.tasks[i]? = some (.call (.returned outcome)) → isResponse outcome = true →
    ∃ n, FirstResponse labels n outcome ∧ ∃ before after s₁, labels = before ++ after ∧
      exec Wire.step Wire.start before = some s₁ ∧ s₁.client.tasks[i]? = some (.call (.waiting n)) ∧
        ∀ (j : Nat) t, s₁.client.tasks[j]? = some t → t.id = some n → j = i
  /-- A line answers no call but the one whose id it carries. -/
  others : ∀ before reader after s₁ s₂, labels = before ++ .line reader :: after →
    exec Wire.step Wire.start before = some s₁ → s₁.step (.line reader) = some s₂ →
      ∃ line, s₁.unread = line :: s₂.unread ∧ Handled s₁ line s₂
  /-- Every event of the wire is broadcast once, in wire order, but for those in the lines not yet handled. -/
  broadcast : s.broadcast ++ s.unread.filterMap eventOf = (wireLines labels).filterMap eventOf

end

/-- A reader for the texts of these values. -/
@[reducible] def JsonReader.ofValues (values : List Value) : JsonReader :=
  ⟨fun text => values.find? fun v => v.print == text, fun _ => "0.0"⟩

def readyFrame : Value := .object
  [("jsonrpc", .string "2.0"), ("method", .string "event"),
    ("params", .object [("type", .string "gateway.ready")])]

def answerFrame : Value := .object [("jsonrpc", .string "2.0"), ("id", .string "r1"), ("result", .bool true)]

/-- A client connects, calls, and is answered twice. -/
def answeredTwice : List WireLabel :=
  [.frame 1 readyFrame.print, .line 1, .client (.task 0 .run), .client (.task 0 .run), .client (.task 0 .run),
    .client (.start (.call .checking)), .client (.task 4 .run), .client (.task 4 .run), .client (.task 4 .run),
    .client (.task 4 .run), .frame 1 answerFrame.print, .line 1, .frame 1 answerFrame.print, .line 1,
    .client (.task 4 .run)]

/-- A call that was answered with a result. -/
def hasResult : Option Task → Bool
  | some (.call (.returned (.ok _))) => true
  | _ => false

end Hermo.Rpc
