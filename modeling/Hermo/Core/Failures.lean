import Hermo.Core.Operations
import Hermo.Library.Absent

/-!
# Operations that fail

Every operation makes all its changes in one lock section and returns `Ok` behind it, so one that returns an error has
changed nothing and might as well not have been called: its steps are silent, and the run without it comes to the same
state.  The exception is `clear_sessions`, which empties the tabs before it saves and returns the error of the save.
-/

namespace Hermo.Operations

open Run Tasks Rpc

/-- Behind the changes of the operation. -/
def Point.settled : Point → Bool
  | .marking | .returned (.ok _) => true
  | _ => false

/-- Before the changes, and before any result. -/
def Point.pending : Point → Bool
  | .marking | .returned _ => false
  | _ => true

private theorem pending_of_settled {p : Point} (h : p.settled = true) : p.pending = false := by
  cases p with
  | marking => rfl
  | returned result => rfl
  | _ => cases h

/-- There is no tab, and nothing that belongs to one. -/
structure NoTabs (s : CoreState) : Prop where
  sessions : s.sessions = ∅
  sidIndex : s.sidIndex = ∅
  emittedApprovals : s.emittedApprovals = ∅
  registry : s.registry = {}

theorem clearSessions_eq_self_iff (s : CoreState) : s.clearSessions = s ↔ NoTabs s := by
  constructor
  · intro h
    exact ⟨(congrArg CoreState.sessions h).symm, (congrArg CoreState.sidIndex h).symm,
      (congrArg CoreState.emittedApprovals h).symm, (congrArg CoreState.registry h).symm⟩
  · rintro ⟨hsessions, hindex, happrovals, hregistry⟩
    obtain ⟨sidIndex, sessions, registry, emittedApprovals, historyEpoch⟩ := s
    dsimp only at hsessions hindex happrovals hregistry
    subst hsessions hindex happrovals hregistry
    rfl

/-- The operation has not begun. -/
def Point.isCall : Point → Bool
  | .call _ => true
  | _ => false

private theorem isCall_openWith (s : Shared) (storedId profile : Option String) (cols : Int) :
    (Point.openWith s storedId profile cols).isCall = false := by
  unfold Point.openWith
  split
  · rfl
  · cases storedId <;> rfl

private theorem isCall_withSession {s : Shared} {key : String} {next : LiveSession → Point}
    (h : ∀ live, (next live).isCall = false) : (Point.withSession s key next).isCall = false := by
  unfold Point.withSession
  split
  · rfl
  · split
    · rfl
    · exact h _

section

variable [Serializer]

/-- What a step of an operation does: nothing, or all its changes; `clear_sessions` may fail behind them. -/
private theorem point_next {s s' : Shared} {p p' : Point} {input : Input} (h : p.next s input = some (s', p')) :
    p'.isCall = false ∧
      (s' = s ∨ p'.settled = true ∨ (p = .call .clearSessions ∧ ∃ e, p' = .returned (.error e))) := by
  unfold Point.next at h
  split at h
  · rename_i op written
    cases op with
    | closeSession key =>
      cases h
      exact ⟨rfl, .inr (.inl rfl)⟩
    | clearSessions =>
      cases h
      cases written with
      | true => exact ⟨rfl, .inr (.inl rfl)⟩
      | false => exact ⟨rfl, .inr (.inr ⟨rfl, _, rfl⟩)⟩
    | openBotChat profile cols =>
      cases h
      refine ⟨?_, .inl rfl⟩
      split <;> rfl
    | setSessionTitle key title =>
      cases h
      refine ⟨?_, .inl rfl⟩
      split <;> rfl
    | openSession storedId cols =>
      cases h
      exact ⟨isCall_openWith .., .inl rfl⟩
    | _ =>
      cases h
      exact ⟨isCall_withSession fun _ => rfl, .inl rfl⟩
  · split at h <;> cases h <;> exact ⟨rfl, .inl rfl⟩
  · cases h
    exact ⟨rfl, .inl rfl⟩
  · cases h
    exact ⟨isCall_openWith .., .inl rfl⟩
  · rename_i profile cols reply written
    cases reply with
    | error e =>
      cases h
      exact ⟨rfl, .inl rfl⟩
    | ok reply =>
      cases h
      exact ⟨rfl, .inr (.inl rfl)⟩
  · rename_i storedId profile cols reply written
    cases reply with
    | error e =>
      cases h
      exact ⟨rfl, .inl rfl⟩
    | ok reply =>
      cases h
      exact ⟨rfl, .inr (.inl rfl)⟩
  · cases h
    split <;> exact ⟨rfl, .inr (.inl rfl)⟩
  · cases h
    exact ⟨rfl, .inl rfl⟩
  · cases h
    exact ⟨rfl, .inr (.inl rfl)⟩
  · split at h <;> cases h
    · exact ⟨rfl, .inr (.inl rfl)⟩
    · exact ⟨rfl, .inl rfl⟩
  · cases h
    exact ⟨rfl, .inl rfl⟩
  · cases h
    exact ⟨isCall_withSession fun _ => rfl, .inl rfl⟩
  · rename_i key command hop reply
    cases h
    refine ⟨?_, .inl rfl⟩
    rcases planAfterSlashExec command reply with e | _ | _ | _ <;> rfl
  · rename_i key hop outcome
    cases h
    refine ⟨?_, .inl rfl⟩
    unfold Point.afterDispatch
    split
    case h_5 => split <;> rfl
    all_goals rfl
  · cases h
    exact ⟨rfl, .inl rfl⟩
  · cases h
    refine ⟨?_, .inl rfl⟩
    split <;> rfl
  · rename_i key requestId reply
    cases reply with
    | error e =>
      cases h
      exact ⟨rfl, .inl rfl⟩
    | ok _ =>
      cases h
      exact ⟨rfl, .inr (.inl rfl)⟩
  · rename_i key requestId reply
    cases reply with
    | error e =>
      cases h
      exact ⟨rfl, .inl rfl⟩
    | ok _ =>
      cases h
      exact ⟨rfl, .inr (.inl rfl)⟩
  · cases h

private theorem settled_next {s s' : Shared} {p p' : Point} {input : Input} (h : p.next s input = some (s', p'))
    (hp : p.settled = true) : p'.settled = true := by
  cases p with
  | marking =>
    cases input <;> cases h
    rfl
  | returned result => cases h
  | _ => cases hp

private theorem op_next {s s' : Shared} {p : Point} {t' : Task} {input : Input} {spawned : List Task}
    (h : program.next s (.op p) input = some (s', t', spawned)) :
    ∃ p', t' = .op p' ∧ spawned = [] ∧ p.next s input = some (s', p') := by
  obtain ⟨⟨after, p'⟩, hpoint, heq⟩ := Option.map_eq_some_iff.1 h
  cases heq
  exact ⟨p', rfl, rfl, hpoint⟩

/-- Only an operation becomes an operation. -/
private theorem op_of_next {s s' : Shared} {t : Task} {p' : Point} {input : Input} {spawned : List Task}
    (h : program.next s t input = some (s', .op p', spawned)) : ∃ p, t = .op p := by
  cases t with
  | op p => exact ⟨p, rfl⟩
  | store t =>
    cases input with
    | store input =>
      obtain ⟨x, -, hx⟩ := Option.map_eq_some_iff.1 h
      cases hx
    | _ => cases h

/-- The operation at place `i` is still to come to its changes. -/
def PendingAt (i : Nat) (s : System) : Prop := ∃ p, s.tasks[i]? = some (.op p) ∧ p.pending = true

/-- What the operation at place `i` is, when it has just been called. -/
def CalledAt (i : Nat) (op : Operation) (s : System) : Prop := s.tasks[i]? = some (.op (.call op))

/-- A step after which the operation at place `i` is still to come to its changes was silent, if it was its step. -/
private theorem pending_back {i : Nat} {s s' : System} {l : Label} (hi : i < s.tasks.length)
    (hstep : program.step s l = some s') (h : PendingAt i s') :
    PendingAt i s ∧ program.Silent i s l ∧ ∀ op, CalledAt i op s' → CalledAt i op s := by
  obtain ⟨p', hp', hpending⟩ := h
  cases l with
  | start t =>
    obtain ⟨-, rfl⟩ := Program.step_start hstep
    have hsame : (s.tasks ++ [t])[i]? = s.tasks[i]? := List.getElem?_append_left hi
    rw [hsame] at hp'
    exact ⟨⟨p', hp', hpending⟩, by rintro _ _ ⟨⟩, fun op hop => hsame.symm.trans hop⟩
  | env e =>
    obtain ⟨shared, -, rfl⟩ := Program.step_env hstep
    exact ⟨⟨p', hp', hpending⟩, by rintro _ _ ⟨⟩, fun op hop => hop⟩
  | task j input =>
    obtain ⟨t, shared, t', spawned, ht, hnext, heq⟩ := Program.step_task hstep
    by_cases hij : j = i
    · subst hij
      have hafter := Program.getElem?_after (i := j) ht t' spawned
      rw [if_pos rfl] at hafter
      rw [heq] at hp'
      obtain rfl : t' = .op p' := Option.some.inj (hafter.symm.trans hp')
      obtain ⟨p, rfl⟩ := op_of_next hnext
      obtain ⟨q, hq, rfl, hpoint⟩ := op_next hnext
      cases hq
      obtain ⟨hcall, hchange⟩ := point_next hpoint
      have hshared : shared = s.shared := by
        rcases hchange with hsame | hsettled | ⟨-, e, rfl⟩
        · exact hsame
        · rw [pending_of_settled hsettled] at hpending
          cases hpending
        · cases hpending
      refine ⟨⟨p, ht, ?_⟩, ?_, ?_⟩
      · cases p with
        | marking =>
          rw [pending_of_settled (settled_next hpoint rfl)] at hpending
          cases hpending
        | returned result => cases hpoint
        | _ => rfl
      · rintro input' u ⟨⟩ hu
        rw [heq] at hstep
        rw [hstep, Option.some_inj] at hu
        subst hu
        exact ⟨hshared, by simp⟩
      · intro op hop
        unfold CalledAt at hop
        rw [heq] at hop
        have hpoint : p' = .call op := by
          have := hp'.symm.trans hop
          simpa using this
        rw [hpoint] at hcall
        cases hcall
    · have hsame : s'.tasks[i]? = s.tasks[i]? := by
        rw [heq]
        dsimp only
        rw [List.getElem?_append_left (by simpa using hi), List.getElem?_set_ne hij]
      rw [hsame] at hp'
      refine ⟨⟨p', hp', hpending⟩, ?_, fun op hop => hsame.symm.trans hop⟩
      rintro input' u ⟨⟩
      exact absurd rfl hij

/-- All steps before the changes of an operation are silent. -/
private theorem pending_run {i : Nat} {s s' : System} {labels : List Label} (hi : i < s.tasks.length)
    (hrun : exec program.step s labels = some s') (h : PendingAt i s') :
    PendingAt i s ∧ Meets program.step (program.Silent i) s labels ∧ ∀ op, CalledAt i op s' → CalledAt i op s := by
  induction labels generalizing s with
  | nil =>
    cases hrun
    exact ⟨h, trivial, fun _ hop => hop⟩
  | cons l labels ih =>
    obtain ⟨t, hstep, hrest⟩ := Option.bind_eq_some_iff.1 hrun
    obtain ⟨hpending, hmeets, hcalled⟩ := ih (Nat.lt_of_lt_of_le hi (Program.length_step hstep)) hrest
    obtain ⟨hbefore, hsilent, hback⟩ := pending_back hi hstep hpending
    exact ⟨hbefore, hmeets.cons program.step hstep hsilent, fun op hop => hback op (hcalled op hop)⟩

/-- `clear_sessions` has one step. -/
private theorem clearing_step {i : Nat} {s s' : System} {l : Label}
    (h : CalledAt i .clearSessions s ∨ ∃ r, s.tasks[i]? = some (.op (.returned r)))
    (hstep : program.step s l = some s') :
    CalledAt i .clearSessions s' ∨ ∃ r, s'.tasks[i]? = some (.op (.returned r)) := by
  have hi : i < s.tasks.length := by
    rcases h with h | ⟨r, h⟩
    · exact (List.getElem?_eq_some_iff.1 h).1
    · exact (List.getElem?_eq_some_iff.1 h).1
  cases l with
  | start t =>
    obtain ⟨-, rfl⟩ := Program.step_start hstep
    unfold CalledAt
    dsimp only
    rwa [List.getElem?_append_left hi]
  | env e =>
    obtain ⟨shared, -, rfl⟩ := Program.step_env hstep
    exact h
  | task j input =>
    obtain ⟨t, shared, t', spawned, ht, hnext, rfl⟩ := Program.step_task hstep
    by_cases hij : j = i
    · subst hij
      have hafter := Program.getElem?_after (i := j) ht t' spawned
      rw [if_pos rfl] at hafter
      refine .inr ?_
      rcases h with h | ⟨r, h⟩
      · obtain rfl := Option.some.inj (ht.symm.trans h)
        obtain ⟨q, rfl, rfl, hpoint⟩ := op_next hnext
        cases input with
        | disk written =>
          cases hpoint
          refine ⟨if written then .ok .done else .error .io, ?_⟩
          rw [hafter]
          cases written <;> rfl
        | _ => cases hpoint
      · obtain rfl := Option.some.inj (ht.symm.trans h)
        obtain ⟨q, -, -, hpoint⟩ := op_next hnext
        cases hpoint
    · unfold CalledAt
      dsimp only
      rwa [List.getElem?_append_left (by simpa using hi), List.getElem?_set_ne hij]

/-- At the step with which an operation returns an error, the state is the one the run comes to without the operation;
but for a `clear_sessions` that finds a tab. -/
theorem failed_changes_nothing_iff [JsonReader] {file : Option String} {before mid : List Label} {op : Operation}
    {i : Nat} {input : Input} {e : CoreError} {s : System}
    (hrun : exec program.step (start file) (before ++ .start (.op (.call op)) :: (mid ++ [.task i input])) = some s)
    (hplace : ∀ t, exec program.step (start file) before = some t → t.tasks.length = i)
    (hfails : s.tasks[i]? = some (.op (.returned (.error e)))) :
    (∃ s', exec program.step (start file) (before ++ mid.filterMap (Label.without i)) = some s' ∧
        s'.shared = s.shared) ↔
      (op = .clearSessions → ∀ t, exec program.step (start file) (before ++ .start (.op (.call op)) :: mid) = some t →
        NoTabs t.shared.store.core) := by
  obtain ⟨t₀, t₁, hbefore, hcall, hrest⟩ := exec_cut program.step hrun
  obtain ⟨t₂, hmid, hreturn⟩ := (exec_snoc program.step).1 hrest
  obtain rfl := hplace t₀ hbefore
  obtain ⟨-, rfl⟩ := Program.step_start hcall
  have hi : t₀.tasks.length < (t₀.tasks ++ [Task.op (.call op)]).length := by simp
  have hcalled : CalledAt t₀.tasks.length op ⟨t₀.shared, t₀.tasks ++ [.op (.call op)]⟩ :=
    List.getElem?_concat_length
  -- the operation at its last step
  obtain ⟨t, shared, t', spawned, ht, hnext, rfl⟩ := Program.step_task hreturn
  have hafter := Program.getElem?_after (i := t₀.tasks.length) ht t' spawned
  rw [if_pos rfl] at hafter
  obtain rfl : t' = .op (.returned (.error e)) := Option.some.inj (hafter.symm.trans hfails)
  obtain ⟨p, rfl⟩ := op_of_next hnext
  obtain ⟨q, hq, rfl, hpoint⟩ := op_next hnext
  cases hq
  have hpending : p.pending = true := by
    cases p with
    | marking => cases settled_next hpoint rfl
    | returned result => cases hpoint
    | _ => rfl
  obtain ⟨-, hsilent, hback⟩ := pending_run hi hmid ⟨p, ht, hpending⟩
  have hwithout := Program.exec_without hi hsilent hmid
  have herase : System.without ⟨t₀.shared, t₀.tasks ++ [Task.op (.call op)]⟩ t₀.tasks.length = t₀ := by
    unfold System.without
    simp [List.eraseIdx_append_of_length_le]
  rw [herase] at hwithout
  have hiff : (∃ s', exec program.step (start file) (before ++ mid.filterMap (Label.without t₀.tasks.length)) = some s' ∧
      s'.shared = shared) ↔ t₂.shared = shared := by
    rw [exec_append, hbefore, Option.bind_some, hwithout]
    simp [System.without]
  refine hiff.trans ?_
  have hreach : exec program.step (start file) (before ++ .start (.op (.call op)) :: mid) = some t₂ := by
    rw [exec_append, hbefore, Option.bind_some]
    unfold exec
    rw [hcall]
    exact hmid
  by_cases hop : op = .clearSessions
  · subst hop
    have hclearing := exec_preserves program.step (fun _ _ _ h hstep => clearing_step h hstep) (.inl hcalled) hmid
    obtain rfl : p = .call .clearSessions := by
      rcases hclearing with hclear | ⟨r, hr⟩
      · simpa using ht.symm.trans hclear
      · have hp : p = .returned r := by simpa using ht.symm.trans hr
        rw [hp] at hpending
        cases hpending
    have hshared : shared = { t₂.shared with store := t₂.shared.store.act .clearSessions } := by
      cases input with
      | disk written =>
        cases written with
        | true => cases hpoint
        | false =>
          cases hpoint
          rfl
      | _ => cases hpoint
    have hsame : t₂.shared = shared ↔ t₂.shared.store.core.clearSessions = t₂.shared.store.core := by
      rw [hshared]
      constructor
      · exact fun h => (congrArg (fun s => s.store.core) h).symm
      · intro h
        unfold Storage.Shared.act CoreState.act
        dsimp only
        rw [h]
    rw [hsame, clearSessions_eq_self_iff]
    constructor
    · intro h _ t ht
      rw [hreach, Option.some_inj] at ht
      exact ht ▸ h
    · exact fun h => h rfl t₂ hreach
  · refine iff_of_true ?_ (fun h => absurd h hop)
    rcases (point_next hpoint).2 with hsame | hsettled | ⟨rfl, -⟩
    · exact hsame.symm
    · cases hsettled
    · have hclear : CalledAt t₀.tasks.length op _ := hcalled
      have := hclear.symm.trans (hback .clearSessions ht)
      simp at this
      exact absurd this hop

end

/-- A chat is opened, and the tab list is cleared on a disk that takes no writes. -/
def clearedChat : List Label :=
  [.env (.client true), .start (.op (.call (.openSession none 80))), .task 0 (.disk true),
    .task 0 (.created (.ok ⟨"live", "chat", ""⟩) true)]

/-- A message whose submit times out. -/
def sentMessage : List Label :=
  clearedChat ++ .start (.op (.call (.send "chat" "hi"))) ::
    ([.task 1 (.disk true)] ++ [.task 1 (.submitted (.error .timeout))])

theorem failed_changes_nothing_send :
    letI := Serializer.compact
    letI := JsonReader.compact
    ∃ s s', exec program.step (start none) sentMessage = some s ∧
      s.tasks[1]? = some (.op (.returned (.error .timeout))) ∧
        exec program.step (start none) clearedChat = some s' ∧ s'.shared = s.shared := by
  let printer := Serializer.compact
  let reader := JsonReader.compact
  have hplace : ∀ t, exec program.step (start none) clearedChat = some t → t.tasks.length = 1 := by
    intro t ht
    cases ht
    rfl
  obtain ⟨s, hrun, hfails⟩ : ∃ s, exec program.step (start none) sentMessage = some s ∧
      s.tasks[1]? = some (.op (.returned (.error .timeout))) := ⟨_, rfl, rfl⟩
  obtain ⟨s', hrun', hshared⟩ := (failed_changes_nothing_iff hrun hplace hfails).2 fun h => by cases h
  exact ⟨s, s', hrun, hfails, hrun', hshared⟩

/-- The app is told that the clear failed, and the tabs are gone. -/
theorem clear_fails_and_clears :
    letI := Serializer.compact
    letI := JsonReader.compact
    ∃ s s', exec program.step (start none) (clearedChat ++
        [.start (.op (.call .clearSessions)), .task 1 (.disk false)]) = some s ∧
      s.tasks[1]? = some (.op (.returned (.error .io))) ∧
        exec program.step (start none) clearedChat = some s' ∧ s'.shared.store.core.registry.sessions.length = 1 ∧
          s.shared.store.core.registry.sessions.length = 0 ∧ s'.shared.store.file = s.shared.store.file := by
  let printer := Serializer.compact
  let reader := JsonReader.compact
  exact ⟨_, _, rfl, rfl, rfl, rfl, rfl, rfl⟩

end Hermo.Operations
