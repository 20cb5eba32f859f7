import Hermo.App.Intake

/-!
# The history of a session that is being opened

Changes that come before their key is known wait in one bounded queue.  `history_kept` says when nothing is lost:
whenever the stream is drained, every tab shows the rows of the core.  The queue is the weak point: a history of more
rows than it holds, delivered before its open completes, is never shown in full.
-/

namespace Hermo

open Tasks Run

namespace Intake

namespace Open

/-- The open counts in `inFlightOpens`. -/
def inFlight : Open → Bool
  | asked _ | answered _ _ _ | refused => true
  | _ => false

/-- The open is to register `key`. -/
def Holds (key : String) : Open → Prop
  | answered _ _ key' => key' = key
  | _ => False

theorem Holds.inFlight {key : String} {t : Open} (h : t.Holds key) : t.inFlight = true := by
  cases t with
  | answered worker profile key' => rfl
  | _ => cases h

end Open

/-- A live session that is no tab. -/
def Unopened (s : Intake) (key : String) : Prop := (s.core.state.tab key).live ≠ none ∧ key ∉ s.app.tabs.keys

section

variable [Serializer]

/-- No transcript outgrows an `Int`. -/
def Fits (s : Intake) (a : Action) : Prop := ∀ key, ((s.core.state.act a).1.rowsOf key).length ≤ intLimit

/-- Transcripts fit an `Int`, a session that is opened without a history had no rows, the sink is called in the order
of the lock sections, and a change that finds the queue full pushes out one that can be spared. -/
def Lossless (p : Platform) (w : System Intake Open) : Tasks.Label Open Input Event → Prop
  | .task _ (.answer _ reply profile cols) =>
    w.shared.Fits (.openSession reply profile cols) ∧
      (reply.messages = [] → w.shared.core.state.rowsOf reply.key = [])
  | .env (.act _ a) => w.shared.Fits a
  | .env (.sink worker) => Outbox.Oldest w.shared.core (.call worker : Outbox.Label String Action)
  | .env .deliver =>
    ∀ c, w.shared.core.received[w.shared.taken]? = some c → c.change.key ∉ w.shared.app.tabs.keys →
      parkedChangesMax ≤ w.shared.app.parkedChanges.length → w.shared.app.OldestSpared p
  | _ => True

/-- The invariant of a run: a live session that is no tab belongs to an open in flight. -/
structure Sound (p : Platform) (w : System Intake Open) : Prop where
  mirrors : Mirrors p w.shared
  count : w.shared.app.inFlightOpens = w.tasks.countP Open.inFlight
  unopened : ∀ key, w.shared.Unopened key → ∃ t ∈ w.tasks, t.Holds key

theorem sound_start (p : Platform) (registry : SessionRegistry) (phase : AppPhase) (endpointText : String) :
    Sound p (start registry phase endpointText) :=
  ⟨mirrors_start p registry phase endpointText, rfl, fun _ hkey => absurd rfl hkey.1⟩

omit [Serializer] in
private theorem closes_of_stays {a : Action} (h : a.stays = true) (key : String) :
    a.closes key = false ∧ a.opens key = false := by
  cases a <;> first | exact ⟨rfl, rfl⟩ | cases h

namespace Sound

variable {p : Platform} {w : System Intake Open}

/-- With one open in flight, only its key can have anything parked. -/
theorem quiet (h : Sound p w) {i : Nat} {t : Open} (ht : w.tasks[i]? = some t) (hflight : t.inFlight = true)
    (hlast : p.countDown w.shared.app.inFlightOpens = 0) {key : String} (hkey : ¬ t.Holds key) :
    w.shared.app.early key = [] := by
  by_contra hearly
  have hlive : (w.shared.core.state.tab key).live ≠ none := fun hdead => hearly (h.mirrors.dead key hdead).1
  have hmem : key ∉ w.shared.app.tabs.keys := fun htab => hearly (h.mirrors.settled key htab)
  obtain ⟨u, hu, hholds⟩ := h.unopened key ⟨hlive, hmem⟩
  obtain ⟨j, hj⟩ := List.mem_iff_getElem?.1 hu
  have hij : j ≠ i := by
    rintro rfl
    rw [ht, Option.some_inj] at hj
    exact hkey (hj ▸ hholds)
  -- the other open is counted as well
  have hother : u ∈ w.tasks.set i .ended := by
    have hmem := Program.other_mem hij hj .ended []
    rwa [List.append_nil] at hmem
  have hpos : 0 < (w.tasks.set i .ended).countP Open.inFlight := List.countP_pos_iff.2 ⟨u, hother, hholds.inFlight⟩
  obtain ⟨hlt, hget⟩ := List.getElem?_eq_some_iff.1 ht
  rw [List.countP_set hlt, hget, if_pos hflight] at hpos
  have hcount := h.count
  unfold Platform.countDown at hlast
  cases p with
  | android =>
    dsimp only at hlast
    simp [Open.inFlight] at hpos
    omega
  | ios =>
    dsimp only at hlast
    simp [Open.inFlight] at hpos
    split at hlast <;> omega

/-- What is on its way to a key that is no tab finds an open in flight. -/
theorem parks (h : Sound p w) {c : Outbox.Outgoing String TranscriptChangeDto}
    (hc : w.shared.core.received[w.shared.taken]? = some c) (hmem : c.change.key ∉ w.shared.app.tabs.keys) :
    w.shared.app.inFlightOpens > 0 := by
  have hlive : (w.shared.core.state.tab c.change.key).live ≠ none := by
    intro hdead
    have hnone := (h.mirrors.dead _ hdead).2
    unfold streamOf at hnone
    rw [h.mirrors.stream_head hc, List.filter_cons_of_pos (by simp)] at hnone
    cases hnone
  obtain ⟨t, ht, hholds⟩ := h.unopened _ ⟨hlive, hmem⟩
  have hpos : 0 < w.tasks.countP Open.inFlight := List.countP_pos_iff.2 ⟨t, ht, hholds.inFlight⟩
  have hcount := h.count
  omega

/-! ### One step -/

private theorem lock_unopened {s : Intake} {a : Action} {core : Outbox.System CoreState String TranscriptChangeDto}
    (hstate : core.state = (s.core.state.act a).1) {key : String} (hcloses : a.closes key = false)
    (hkey : Unopened { s with core := core } key) : a.opens key = true ∨ s.Unopened key := by
  obtain ⟨hlive, hmem⟩ := hkey
  cases hopens : a.opens key with
  | true => exact .inl rfl
  | false =>
    refine .inr ⟨fun hdead => hlive ?_, hmem⟩
    change (core.state.tab key).live = none
    rw [hstate]
    exact CoreState.dead_after hdead hopens hcloses

variable [HeaderReader]

/-- A step of an open. -/
theorem next_spec (h : Sound p w) {i : Nat} {t t' : Open} {input : Input} {s' : Intake} {spawned : List Open}
    (ht : w.tasks[i]? = some t) (hok : Lossless p w (.task i input))
    (hnext : next p w.shared t input = some (s', t', spawned)) :
    Mirrors p s' ∧ spawned = [] ∧
      s'.app.inFlightOpens + t.inFlight.toNat = w.shared.app.inFlightOpens + t'.inFlight.toNat ∧
      ∀ key, s'.Unopened key → t'.Holds key ∨ (w.shared.Unopened key ∧ ¬ t.Holds key) := by
  have hcounted : t.inFlight = true → p.countDown w.shared.app.inFlightOpens = w.shared.app.inFlightOpens - 1 := by
    intro hflight
    have hpos : 0 < w.tasks.countP Open.inFlight := List.countP_pos_iff.2 ⟨t, List.mem_of_getElem? ht, hflight⟩
    have hcount := h.count
    cases p with
    | android => rfl
    | ios => exact if_pos (by omega)
  cases t with
  | called profile =>
    cases input with
    | run =>
      cases hnext
      have hmirrors := h.mirrors.app w.shared.app.beginOpen (fun _ => rfl) h.mirrors.settled (fun _ he => he)
        h.mirrors.pending h.mirrors.bounded
      refine ⟨hmirrors, rfl, ?_, fun key hkey => .inr ⟨hkey, id⟩⟩
      simp [Open.inFlight, AppState.beginOpen]
    | _ => cases hnext
  | asked profile =>
    cases input with
    | answer worker reply owner cols =>
      obtain ⟨core, hlock, heq⟩ := Option.map_eq_some_iff.1 hnext
      cases heq
      obtain ⟨hfits, hclear⟩ := hok
      obtain ⟨hmirrors, hstate⟩ := h.mirrors.lock hlock (fun _ => rfl) hfits (by
        rintro _ _ _ heq hempty
        cases heq
        exact hclear hempty)
      refine ⟨hmirrors, rfl, rfl, ?_⟩
      intro key hkey
      rcases lock_unopened hstate rfl hkey with hopens | hold
      · have hreply : reply.key = key := by simpa [Action.opens] using hopens
        exact .inl hreply
      · exact .inr ⟨hold, id⟩
    | refuse =>
      cases hnext
      exact ⟨h.mirrors, rfl, rfl, fun key hkey => .inr ⟨hkey, id⟩⟩
    | _ => cases hnext
  | answered worker profile opened =>
    cases input with
    | complete =>
      simp only [next, Option.ite_none_left_eq_some] at hnext
      obtain ⟨-, hnext⟩ := hnext
      obtain ⟨app, happ, heq⟩ := Option.map_eq_some_iff.1 hnext
      cases heq
      obtain ⟨app', happ', hmirrors, htabs, hcount⟩ := h.mirrors.complete opened profile fun hlast k hk =>
        h.quiet ht rfl hlast (Ne.symm hk)
      rw [happ, Option.some_inj] at happ'
      subst happ'
      refine ⟨hmirrors, rfl, ?_, ?_⟩
      · dsimp only
        rw [hcount, hcounted rfl]
        simp [Open.inFlight]
      · rintro key ⟨hlive, hmem⟩
        change key ∉ app.tabs.keys at hmem
        rw [htabs, TabSet.mem_add, not_or] at hmem
        exact .inr ⟨⟨hlive, hmem.1⟩, Ne.symm hmem.2⟩
    | _ => cases hnext
  | refused =>
    cases input with
    | complete =>
      cases hnext
      have hmirrors := h.mirrors.finish fun hlast key => h.quiet ht rfl hlast id
      refine ⟨hmirrors, rfl, ?_, fun key hkey => .inr ⟨hkey, id⟩⟩
      change p.countDown w.shared.app.inFlightOpens + _ = _
      rw [hcounted rfl]
      simp [Open.inFlight]
    | _ => cases hnext
  | ended => cases input <;> cases hnext

/-- A step of the core, or of the main thread between two completions. -/
theorem env_spec (h : Sound p w) {e : Event} {s' : Intake} (hok : Lossless p w (.env e))
    (henv : env p w.shared e = some s') :
    Mirrors p s' ∧ ∀ key, s'.Unopened key → w.shared.Unopened key := by
  cases e with
  | act worker a =>
    simp only [env, Option.ite_none_right_eq_some] at henv
    obtain ⟨hstays, hsection⟩ := henv
    obtain ⟨core, hlock, rfl⟩ := Option.map_eq_some_iff.1 hsection
    obtain ⟨hmirrors, hstate⟩ := h.mirrors.lock hlock (fun key => (closes_of_stays hstays key).1) hok (by
      rintro _ _ _ rfl
      cases hstays)
    refine ⟨hmirrors, ?_⟩
    intro key hkey
    obtain ⟨hcloses, hopens⟩ := closes_of_stays hstays key
    refine (lock_unopened hstate hcloses hkey).resolve_left ?_
    rw [hopens]
    exact Bool.false_ne_true
  | sink worker =>
    obtain ⟨core, hsink, rfl⟩ := Option.map_eq_some_iff.1 henv
    obtain ⟨hmirrors, hstate⟩ := h.mirrors.sink hok hsink
    refine ⟨hmirrors, ?_⟩
    rintro key ⟨hlive, hmem⟩
    change (core.state.tab key).live ≠ none at hlive
    rw [hstate] at hlive
    exact ⟨hlive, hmem⟩
  | deliver =>
    unfold env at henv
    dsimp only at henv
    cases hc : w.shared.core.received[w.shared.taken]? with
    | none =>
      rw [hc] at henv
      cases henv
    | some c =>
      rw [hc] at henv
      obtain ⟨app, happ, rfl⟩ := Option.map_eq_some_iff.1 henv
      by_cases hmem : c.change.key ∈ w.shared.app.tabs.keys
      · obtain ⟨sessions, hknown, hmirrors⟩ := h.mirrors.deliver_known hc hmem
        rw [happ, Option.some_inj] at hknown
        subst hknown
        exact ⟨hmirrors, fun key hkey => hkey⟩
      · obtain ⟨hparked, hmirrors⟩ := h.mirrors.deliver_unknown hc hmem (h.parks hc hmem) (hok c hc hmem)
        rw [happ, Option.some_inj] at hparked
        subst hparked
        obtain ⟨-, htabs, -, -⟩ := w.shared.app.park_frame c.change
        refine ⟨hmirrors, ?_⟩
        rintro key ⟨hlive, htab⟩
        change key ∉ (w.shared.app.park c.change).tabs.keys at htab
        rw [htabs] at htab
        exact ⟨hlive, htab⟩
  | header key summary =>
    cases henv
    obtain ⟨model, sessions, hafter⟩ := w.shared.app.afterOpen_eq p key summary
    have hrows : ∀ k, (w.shared.app.afterOpen p key summary).rowsOf k = w.shared.app.rowsOf k :=
      w.shared.app.rowsOf_afterOpen p key summary
    rw [hafter] at hrows ⊢
    refine ⟨h.mirrors.app _ ?_ h.mirrors.settled (fun _ he => he) h.mirrors.pending h.mirrors.bounded,
      fun k hk => hk⟩
    intro k
    rw [hrows]
    rfl

/-- Only opens move the count. -/
theorem env_count {s s' : Intake} {e : Event} (henv : env p s e = some s') :
    s'.app.inFlightOpens = s.app.inFlightOpens := by
  cases e with
  | act worker a =>
    simp only [env, Option.ite_none_right_eq_some] at henv
    obtain ⟨core, -, rfl⟩ := Option.map_eq_some_iff.1 henv.2
    rfl
  | sink worker =>
    obtain ⟨core, -, rfl⟩ := Option.map_eq_some_iff.1 henv
    rfl
  | deliver =>
    unfold env at henv
    dsimp only at henv
    cases hc : s.core.received[s.taken]? with
    | none =>
      rw [hc] at henv
      cases henv
    | some c =>
      rw [hc] at henv
      obtain ⟨app, happ, rfl⟩ := Option.map_eq_some_iff.1 henv
      rcases AppState.onTranscriptChange_eq happ with ⟨-, rfl⟩ | ⟨-, sessions, rfl, -⟩
      · dsimp only
        split
        · exact (s.app.park_frame c.change).2.2.2
        · rfl
      · rfl
  | header key summary =>
    cases henv
    obtain ⟨model, sessions, hafter⟩ := s.app.afterOpen_eq p key summary
    rw [hafter]

/-! ### Runs -/

theorem step (h : Sound p w) {w' : System Intake Open} {l : Tasks.Label Open Input Event} (hok : Lossless p w l)
    (hstep : (program p).step w l = some w') : Sound p w' := by
  refine ⟨?_, ?_, ?_⟩
  · cases l with
    | start t =>
      obtain ⟨-, rfl⟩ := Program.step_start hstep
      exact h.mirrors
    | task i input =>
      obtain ⟨t, s', t', spawned, ht, hnext, rfl⟩ := Program.step_task hstep
      exact (h.next_spec ht hok hnext).1
    | env e =>
      obtain ⟨s', henv, rfl⟩ := Program.step_env hstep
      exact (h.env_spec hok henv).1
  · refine Program.balance_step (f := fun s => s.app.inFlightOpens) hstep h.count ?_ ?_ ?_
    · intro t ht
      cases t with
      | called profile => rfl
      | _ => cases ht
    · rintro i input t s' t' spawned rfl ht hnext
      obtain ⟨-, rfl, hmoves, -⟩ := h.next_spec ht hok hnext
      rw [hmoves, List.countP_nil]
      exact (Int.add_zero _).symm
    · exact fun e s' henv => env_count henv
  · refine Program.exists_step (N := Unopened) (G := Open.Holds) hstep h.unopened ?_ ?_
    · rintro i input t s' t' spawned rfl ht hnext key hkey
      obtain ⟨-, -, -, hunopened⟩ := h.next_spec ht hok hnext
      exact (hunopened key hkey).imp_right .inr
    · rintro e s' rfl henv key hkey
      exact (h.env_spec hok henv).2 key hkey

end Sound

/-- What the main thread keeps: whenever the stream is drained, every tab shows the rows of the core; the next change
can be processed; and an open that completes makes its session a tab. -/
structure Kept [HeaderReader] (p : Platform) (s : Intake) : Prop where
  rows : s.core.waiting = [] → s.taken = s.core.received.length →
    ∀ key ∈ s.app.tabs.keys, s.app.rowsOf key = (s.core.state.rowsOf key).map rowText
  goesOn : ∀ c, s.core.received[s.taken]? = some c → (s.app.onTranscriptChange p c.change).isSome
  registers : ∀ key profile, ∃ app, s.app.openCompleted p key profile = some app ∧ key ∈ app.tabs.keys

theorem Mirrors.kept [HeaderReader] {p : Platform} {s : Intake} (h : Mirrors p s) : Kept p s := by
  refine ⟨?_, ?_, ?_⟩
  · intro hwaiting htaken key hmem
    have hdrained : s.streamOf key = [] := by
      have hchanges := h.queued.changes
      rw [hwaiting, List.append_nil] at hchanges
      unfold streamOf stream
      rw [htaken, ← hchanges, List.drop_of_length_le (by rw [List.length_map])]
      rfl
    have hrows := h.rows key
    rw [h.settled key hmem, hdrained] at hrows
    exact Option.some_inj.1 hrows
  · intro c hc
    by_cases hmem : c.change.key ∈ s.app.tabs.keys
    · obtain ⟨sessions, happ, -⟩ := h.deliver_known hc hmem
      rw [happ]
      rfl
    · have hclosed : ¬ s.app.isOpenOrRestoring c.change.key := fun hopen => hmem (h.open_iff.1 hopen)
      unfold AppState.onTranscriptChange
      rw [if_pos hclosed]
      rfl
  · intro key profile
    obtain ⟨rows, hrows⟩ := h.drains key
    obtain ⟨mid, sessions, heq, hmid, -⟩ := AppState.openCompleted_eq hrows profile
    refine ⟨_, heq, ?_⟩
    change key ∈ mid.tabs.keys
    rw [hmid.tabs]
    exact TabSet.mem_add.2 (.inr rfl)

/-- In every run of the core and either app in which no step loses anything, with any opens in flight and whatever
order the changes and the completions are processed in: whenever the stream is drained every tab shows the rows of the
core, no change ends the app, and every open that is answered can be registered. -/
theorem history_kept [HeaderReader] (p : Platform) (registry : SessionRegistry) (phase : AppPhase)
    (endpointText : String) {labels : List (Tasks.Label Open Input Event)} {w : System Intake Open}
    (hok : Meets (program p).step (Lossless p) (start registry phase endpointText) labels)
    (hrun : exec (program p).step (start registry phase endpointText) labels = some w) : Kept p w.shared :=
  (exec_invariant (program p).step (fun _ _ _ h ha hs => Sound.step h ha hs)
    (sound_start p registry phase endpointText) hok hrun).mirrors.kept

end

section

attribute [local instance] Serializer.compact HeaderReader.blank

private def line : Value := .object [("role", .string "user"), ("text", .string "hi")]

private def short : OpenReply := .resumed "chat" ⟨"live", [line], ""⟩

/-- A picker open with a history of one row, whose first change comes before the completion and whose second after. -/
private def opened : List (Tasks.Label Open Input Event) :=
  [.start (.called ""), .task 0 .run, .task 0 (.answer "ui" short none 80), .env (.sink "ui"), .env .deliver,
    .env (.sink "ui"), .task 0 .complete, .env .deliver]

private theorem fits_short (s : Intake) (h : s.core.state = CoreState.new {}) :
    Fits s (.openSession short none 80) := by
  intro key
  rw [h, CoreState.rowsOf_eq, CoreState.tab_act, CoreState.onTab]
  split
  · exact (by decide : 1 ≤ intLimit)
  · exact Nat.zero_le _

/-- The row is shown on both platforms. -/
theorem history_kept_opened :
    (∃ w, exec (program .android).step (start {} .connecting "Home") opened = some w ∧ Kept .android w.shared ∧
      w.shared.app.rowsOf "chat" = [rowText ⟨0, .user "hi"⟩]) ∧
    ∃ w, exec (program .ios).step (start {} .connecting "Home") opened = some w ∧ Kept .ios w.shared ∧
      w.shared.app.rowsOf "chat" = [rowText ⟨0, .user "hi"⟩] := by
  have hok : ∀ p, Meets (program p).step (Lossless p) (start {} .connecting "Home") opened := by
    intro p
    have hroom : ∀ parked : List TranscriptChangeDto, parked.length < 2 → ¬ parkedChangesMax ≤ parked.length := by
      intro parked hfew hfull
      unfold parkedChangesMax at hfull
      omega
    cases p with
    | android =>
      refine .cons _ rfl trivial <| .cons _ rfl trivial <| .cons _ rfl ⟨fits_short _ rfl, fun he => (nomatch he)⟩ <|
        .cons _ rfl ⟨_, _, rfl, rfl⟩ <| .cons _ rfl ?_ <| .cons _ rfl ⟨_, _, rfl, rfl⟩ <| .cons _ rfl trivial <|
        .cons _ rfl ?_ trivial
      · exact fun _ _ _ hfull => absurd hfull (hroom _ (by decide))
      · exact fun _ _ _ hfull => absurd hfull (hroom _ (by decide))
    | ios =>
      refine .cons _ rfl trivial <| .cons _ rfl trivial <| .cons _ rfl ⟨fits_short _ rfl, fun he => (nomatch he)⟩ <|
        .cons _ rfl ⟨_, _, rfl, rfl⟩ <| .cons _ rfl ?_ <| .cons _ rfl ⟨_, _, rfl, rfl⟩ <| .cons _ rfl trivial <|
        .cons _ rfl ?_ trivial
      · exact fun _ _ _ hfull => absurd hfull (hroom _ (by decide))
      · exact fun _ _ _ hfull => absurd hfull (hroom _ (by decide))
  exact ⟨⟨_, rfl, history_kept .android {} .connecting "Home" (hok .android) rfl, by decide⟩,
    _, rfl, history_kept .ios {} .connecting "Home" (hok .ios) rfl, by decide⟩

end

/-! ### A history that is longer than the queue -/

section

variable [Serializer] [HeaderReader]

/-- The sink calls of a task, one after the other. -/
private theorem exec_sinks (p : Platform) {worker : String} (core : Outbox.System CoreState String TranscriptChangeDto)
    (hown : ∀ c ∈ core.waiting, c.task = worker) (taken : Nat) (app : AppState) (tasks : List Open) :
    exec (program p).step ⟨⟨core, taken, app⟩, tasks⟩
        (List.replicate core.waiting.length (.env (.sink worker))) =
      some ⟨⟨{ core with waiting := [], received := core.received ++ core.waiting }, taken, app⟩, tasks⟩ := by
  obtain ⟨state, applied, waiting, received⟩ := core
  dsimp only at hown ⊢
  induction waiting generalizing received with
  | nil =>
    rw [List.append_nil]
    rfl
  | cons c waiting ih =>
    obtain ⟨hc, hrest⟩ := List.forall_mem_cons.1 hown
    have hsink : (program p).step ⟨⟨⟨state, applied, c :: waiting, received⟩, taken, app⟩, tasks⟩
        (.env (.sink worker)) = some ⟨⟨⟨state, applied, waiting, received ++ [c]⟩, taken, app⟩, tasks⟩ := by
      simp [program, Program.step, env, Outbox.step, hc]
    rw [List.length_cons, List.replicate_succ]
    unfold exec
    rw [hsink, Option.bind_some, ih _ hrest, List.append_assoc, List.singleton_append]

/-- The changes of keys that are not known, one after the other, with an open in flight. -/
private theorem exec_delivers (p : Platform) (core : Outbox.System CoreState String TranscriptChangeDto) {app : AppState}
    (hparks : app.inFlightOpens > 0) (hbounded : app.parkedChanges.length ≤ parkedChangesMax) (tasks : List Open)
    {n taken : Nat} (hlen : taken + n = core.received.length)
    (hunknown : ∀ c ∈ core.received, ¬ app.isOpenOrRestoring c.change.key) :
    ∃ parked, parked.length ≤ parkedChangesMax ∧
      (∀ d ∈ parked, d ∈ app.parkedChanges ∨ d ∈ core.received.map Outbox.Outgoing.change) ∧
      exec (program p).step ⟨⟨core, taken, app⟩, tasks⟩ (List.replicate n (.env .deliver)) =
        some ⟨⟨core, core.received.length, { app with parkedChanges := parked }⟩, tasks⟩ := by
  induction n generalizing taken app with
  | zero =>
    rw [Nat.add_zero] at hlen
    subst hlen
    exact ⟨app.parkedChanges, hbounded, fun d hd => .inl hd, rfl⟩
  | succ n ih =>
    have hlt : taken < core.received.length := by omega
    obtain ⟨c, hc⟩ : ∃ c, core.received[taken]? = some c := ⟨_, List.getElem?_eq_getElem hlt⟩
    have hmem : c ∈ core.received := List.mem_of_getElem? hc
    obtain ⟨parkedNow, hpark⟩ := app.park_eq c.change
    have hqueue : parkedNow = (app.park c.change).parkedChanges := by rw [hpark]
    have hstep : (program p).step ⟨⟨core, taken, app⟩, tasks⟩ (.env .deliver) =
        some ⟨⟨core, taken + 1, app.park c.change⟩, tasks⟩ := by
      have hchange : app.onTranscriptChange p c.change = some (app.park c.change) := by
        unfold AppState.onTranscriptChange
        rw [if_pos (hunknown c hmem), if_pos hparks]
      simp [program, Program.step, env, hc, hchange]
    have hbounded' : parkedNow.length ≤ parkedChangesMax := by
      rw [hqueue]
      exact app.park_length hbounded c.change
    let later : AppState := { app with parkedChanges := parkedNow }
    have hparks' : later.inFlightOpens > 0 := hparks
    have hunknown' : ∀ c ∈ core.received, ¬ later.isOpenOrRestoring c.change.key := hunknown
    have hlen' : taken + 1 + n = core.received.length := by omega
    obtain ⟨parked, hshort, hfrom, hrun⟩ := ih hparks' hbounded' hlen' hunknown'
    refine ⟨parked, hshort, ?_, ?_⟩
    · intro d hd
      rcases hfrom d hd with hold | hnew
      · have hold' : d ∈ (app.park c.change).parkedChanges := by
          rw [← hqueue]
          exact hold
        rcases app.mem_park hold' with hold | rfl
        · exact .inl hold
        · exact .inr (List.mem_map_of_mem hmem)
      · exact .inr hnew
    · rw [List.replicate_succ]
      unfold exec
      rw [hstep, Option.bind_some, hpark]
      exact hrun

/-- An open is answered with a history, all of it is delivered, and the open completes. -/
def delivered (reply : OpenReply) : List (Tasks.Label Open Input Event) :=
  [.start (.called ""), .task 0 .run, .task 0 (.answer "ui" reply none 80)] ++
    (List.replicate (openReducer reply).2.length (.env (.sink "ui")) ++
      (List.replicate (openReducer reply).2.length (.env .deliver) ++ [.task 0 .complete]))

/-- A history of more rows than the queue holds: when it is delivered before its open completes, the app shows fewer
rows with a text than the core has. -/
theorem history_overflows (p : Platform) (registry : SessionRegistry) (phase : AppPhase) (endpointText : String)
    {reply : OpenReply} (hlong : parkedChangesMax < (openReducer reply).1.state.rows.length)
    (hfits : (openReducer reply).1.state.rows.length ≤ intLimit)
    (htext : ∀ row ∈ (openReducer reply).1.state.rows, rowText row ≠ "") :
    ∃ w, exec (program p).step (start registry phase endpointText) (delivered reply) = some w ∧
      w.shared.core.waiting = [] ∧ w.shared.taken = w.shared.core.received.length ∧
      reply.key ∈ w.shared.app.tabs.keys ∧
      w.shared.app.rowsOf reply.key ≠ (w.shared.core.state.rowsOf reply.key).map rowText := by
  let opened := (CoreState.new registry).act (.openSession reply none 80)
  let waiting := Outbox.outgoing "ui" 0 opened.2
  let app : AppState := AppState.beginOpen { phase := phase, endpointText := endpointText }
  have hlength : waiting.length = (openReducer reply).2.length := by
    simp [waiting, opened, Outbox.outgoing, CoreState.act, CoreState.openSession, changesToDtos]
  have hchanges : waiting.map Outbox.Outgoing.change = opened.2 := by
    exact Outbox.outgoing_change "ui" 0 opened.2
  have hrows : (opened.1.rowsOf reply.key) = (openReducer reply).1.state.rows := by
    rw [CoreState.rowsOf_eq, CoreState.tab_act, CoreState.onTab, if_pos rfl]
    rfl
  have hown : ∀ c ∈ waiting, c.task = "ui" := by
    intro c hc
    obtain ⟨⟨change, number⟩, -, rfl⟩ := List.mem_map.1 hc
    rfl
  have hclosed : ∀ c ∈ waiting, ¬ app.isOpenOrRestoring c.change.key := by
    rintro c - (htab | hpending)
    · cases htab
    · exact absurd hpending (Finset.notMem_empty _)
  -- the three parts of the run
  have hasked : exec (program p).step (start registry phase endpointText)
      [.start (.called ""), .task 0 .run, .task 0 (.answer "ui" reply none 80)] =
        some ⟨⟨⟨opened.1, opened.2, waiting, []⟩, 0, app⟩, [.answered "ui" "" reply.key]⟩ := rfl
  have hsinks := exec_sinks p ⟨opened.1, opened.2, waiting, []⟩ hown 0 app [.answered "ui" "" reply.key]
  rw [hlength] at hsinks
  have hone : app.inFlightOpens > 0 := Int.zero_lt_one
  have hnone : app.parkedChanges.length ≤ parkedChangesMax := Nat.zero_le _
  have hall : 0 + (openReducer reply).2.length = waiting.length := (Nat.zero_add _).trans hlength.symm
  obtain ⟨parked, hshort, hfrom, hdelivers⟩ := exec_delivers p ⟨opened.1, opened.2, [], waiting⟩ hone hnone
    [.answered "ui" "" reply.key] hall hclosed
  -- what is left for the completion
  let late : AppState := { app with parkedChanges := parked }
  have hearly : ∀ change ∈ late.early reply.key, change.FitsInt := by
    intro change hchange
    obtain ⟨hmem, hkey⟩ := List.mem_filter.1 hchange
    have hsent : change ∈ opened.2 := by
      rcases hfrom change hmem with hold | hnew
      · cases hold
      · rwa [← hchanges]
    have hreceive := CoreState.receive_act (CoreState.wellFormed_new registry) .android reply.key
      (a := .openSession reply none 80) rfl (by rw [hrows]; exact hfits) fun _ _ _ _ _ _ => rfl
    exact fits_of_receive hreceive change (List.mem_filter.2 ⟨hsent, hkey⟩)
  obtain ⟨rows, hreceived⟩ := Platform.receive_isSome (p := p) hearly []
  obtain ⟨mid, sessions, hcompleted, hmid, hshown, -⟩ := AppState.openCompleted_eq (p := p) (s := late) hreceived ""
  let final : System Intake Open := ⟨⟨⟨opened.1, opened.2, [], waiting⟩, waiting.length,
    { mid.finishInFlightOpen p with sessions := sessions, currentKey := some reply.key }⟩, [.ended]⟩
  have hcomplete : (program p).step ⟨⟨⟨opened.1, opened.2, [], waiting⟩, waiting.length, late⟩,
      [.answered "ui" "" reply.key]⟩ (.task 0 .complete) = some final := by
    simp [program, Program.step, next, hcompleted, final]
  refine ⟨final, ?_, rfl, rfl, ?_, ?_⟩
  · unfold delivered
    rw [exec_append, hasked, Option.bind_some, exec_append, hsinks, Option.bind_some, exec_append]
    dsimp only
    rw [List.nil_append, hdelivers, Option.bind_some]
    unfold exec
    dsimp only
    rw [hcomplete]
    rfl
  · change reply.key ∈ mid.tabs.keys
    rw [hmid.tabs]
    exact TabSet.mem_add.2 (.inr rfl)
  · intro heq
    have hfew := Platform.filled_receive hreceived
    have htexts : filled ((openReducer reply).1.state.rows.map rowText) = (openReducer reply).1.state.rows.length := by
      unfold filled
      rw [List.countP_eq_length.2, List.length_map]
      intro text hmem
      obtain ⟨row, hrow, rfl⟩ := List.mem_map.1 hmem
      exact decide_eq_true (htext row hrow)
    have hqueue : (late.early reply.key).length ≤ parkedChangesMax := (List.length_filter_le _ _).trans hshort
    change rowsUnder sessions reply.key = (opened.1.rowsOf reply.key).map rowText at heq
    rw [hshown, hrows] at heq
    rw [heq, htexts] at hfew
    have hempty : filled [] = 0 := rfl
    omega

end

section

attribute [local instance] Serializer.compact HeaderReader.blank

/-- A chat with a history of `n` messages. -/
private def chat (n : Nat) : OpenReply := .resumed "chat" ⟨"live", List.replicate n line, ""⟩

private theorem kinds_replicate {msg : Value} (h : msg.isObject = true) (n : Nat)
    (acc : Reducer × List TranscriptChange) :
    ((List.replicate n msg).foldl Reducer.ingestMessage acc).1.state.rows.map Row.kind =
      acc.1.state.rows.map Row.kind ++ List.replicate n (Reducer.messageKind msg) := by
  induction n generalizing acc with
  | zero => simp
  | succ n ih =>
    have hpush : (Reducer.ingestMessage acc msg).1.state.rows.map Row.kind =
        acc.1.state.rows.map Row.kind ++ [Reducer.messageKind msg] := by
      simp [Reducer.ingestMessage, h, Transcript.push]
    rw [List.replicate_succ, List.foldl_cons, ih, hpush, List.append_assoc]
    rfl

private theorem kinds_chat {n : Nat} (hpos : 0 < n) :
    (openReducer (chat n)).1.state.rows.map Row.kind = List.replicate n (.user "hi") := by
  have hkinds := kinds_replicate (rfl : line.isObject = true) n ({}, [.reset])
  have hsome : List.replicate n line ≠ [] := fun hnil => Nat.ne_of_gt hpos ((List.replicate_eq_nil_iff line).1 hnil)
  have hopen : openReducer (chat n) = Reducer.ingestResumeMessages {} "chat" (List.replicate n line) := if_neg hsome
  rw [hopen]
  exact hkinds

/-- A chat with 513 messages is opened from the picker and all of its history is delivered before the open completes:
neither app shows the rows of the core. -/
theorem long_history_lost :
    (∃ w, exec (program .android).step (start {} .connecting "Home") (delivered (chat 513)) = some w ∧
      w.shared.core.waiting = [] ∧ w.shared.taken = w.shared.core.received.length ∧
      "chat" ∈ w.shared.app.tabs.keys ∧
      w.shared.app.rowsOf "chat" ≠ (w.shared.core.state.rowsOf "chat").map rowText) ∧
    ∃ w, exec (program .ios).step (start {} .connecting "Home") (delivered (chat 513)) = some w ∧
      w.shared.core.waiting = [] ∧ w.shared.taken = w.shared.core.received.length ∧
      "chat" ∈ w.shared.app.tabs.keys ∧
      w.shared.app.rowsOf "chat" ≠ (w.shared.core.state.rowsOf "chat").map rowText := by
  have hlength : (openReducer (chat 513)).1.state.rows.length = 513 := by
    rw [← List.length_map (f := Row.kind), kinds_chat (by decide), List.length_replicate]
  have htext : ∀ row ∈ (openReducer (chat 513)).1.state.rows, rowText row ≠ "" := by
    intro row hrow
    have hkind := List.mem_map_of_mem (f := Row.kind) hrow
    rw [kinds_chat (by decide)] at hkind
    change toCompactString (rowValue row.kind) ≠ ""
    rw [(List.mem_replicate.1 hkind).2]
    decide
  have hlong : parkedChangesMax < (openReducer (chat 513)).1.state.rows.length := by
    rw [hlength]
    decide
  have hfits : (openReducer (chat 513)).1.state.rows.length ≤ intLimit := by
    rw [hlength]
    decide
  exact ⟨history_overflows .android {} .connecting "Home" hlong hfits htext,
    history_overflows .ios {} .connecting "Home" hlong hfits htext⟩

end

end Intake

end Hermo
