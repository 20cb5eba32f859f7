import Hermo.Core.World

/-!
# Nothing is lost behind the watermark

The watermark is the seq the next `session.events.since` asks from, so an event at or below it that is neither in the
transcript nor in the history below it never comes again.  `Joins` is the condition under which a frame, a replay or
a history connects to what the session has; `covered_run` shows that as long as every input joins, the watermark of
every open session is covered, whatever fails, drops out or is rebuilt in between.
-/

namespace Hermo

/-- What the next event of a replay follows: the event before it, or everything up to `latestSeq`. -/
def replayStart (events : List ReplayedEvent) (latestSeq : Int) : Int :=
  match events with
  | [] => latestSeq
  | ev :: _ => ev.seq - 1

/-- The sessions whose gap the supervisor is filling, and what they have to hold for it. -/
def Supervisor.starts (freshEpoch : String) : Supervisor → List (String × Int)
  | .answered key record _ replay _ =>
    if rebuilds freshEpoch record replay then [] else [(key, replayStart replay.events replay.latestSeq)]
  | .replaying key events replay _ => [(key, replayStart events replay.latestSeq)]
  | .catchUp key (ev :: _) _ => [(key, ev.seq - 1)]
  | _ => []

/-- What the supervisor holds was sent by the gateway. -/
def Supervisor.Sent (log : EventLog) (owner : String → String) (freshEpoch : String) : Supervisor → Prop
  | .resumed key _ reply _ => owner reply.sessionId = key
  | .answered key record _ replay _ =>
    owner key = key ∧ (rebuilds freshEpoch record replay = false →
      ∃ start upTo : Nat, replay.events = log.since freshEpoch key start upTo ∧ replay.latestSeq ≤ upTo)
  | .replaying key events replay _ =>
    owner key = key ∧ ∃ start upTo : Nat, events = log.since freshEpoch key start upTo ∧ replay.latestSeq ≤ upTo
  | .catchUp key events _ => owner key = key ∧ ∃ start upTo, events = log.since freshEpoch key start upTo
  | _ => True

namespace World

/-- Event `n` is below the watermark, taken under the epoch of the connection, or in the history. -/
def Reaches (w : World) (key : String) (n : Int) : Prop :=
  n ≤ 0 ∨
  (w.taken key = w.sys.freshEpoch ∧ ∃ r, w.sys.core.registry.get key = some r ∧ n ≤ r.lastSeenSeq) ∨
  ((w.ledger key).snapshot.epoch = w.sys.freshEpoch ∧ n ≤ (w.ledger key).snapshot.upTo)

/-- The input connects to what the session has: a live frame that moves the watermark follows on it, a replay starts
where it was reached, and a session opened in the middle of a replay is opened from a history that reaches its start. -/
def Joins (w : World) (i : Input) : Prop :=
  match i.label, w.sys.supervisor with
  | .live ev, _ => ∀ key seq r, w.sys.core.resolve ev.sessionId = some key → key ∈ w.sys.core.sessions →
      ev.seq = some seq → w.sys.core.registry.get key = some r → r.lastSeenSeq < seq → w.Reaches key (seq - 1)
  | .sinceReply (some replay), .asking key record _ _ =>
    key ∈ w.sys.core.sessions → rebuilds w.sys.freshEpoch record replay = false → w.Reaches key record.lastSeenSeq
  | .sinceReply (some replay), .catchUpCall key lastSeen _ =>
    key ∈ w.sys.core.sessions → replay.events ≠ [] →
      w.Reaches key (if replay.truncated then replayStart replay.events 0 else lastSeen)
  | .task (.openSession reply _ _), supervisor =>
    ∀ m, (reply.key, m) ∈ supervisor.starts w.sys.freshEpoch →
      m ≤ 0 ∨ (i.snapshot.epoch = w.sys.freshEpoch ∧ m ≤ i.snapshot.upTo)
  | _, _ => True

/-- No event at or below the watermark of an open session is missing: its transcript is what the ledger says, and
the ledger holds every event up to the watermark. -/
def NoneLost [Serializer] (log : EventLog) (w : World) : Prop :=
  ∀ key live r, (w.sys.core.tab key).live = some live → w.sys.core.registry.get key = some r →
    live.reducer = (w.ledger key).reducer key ∧
      ∀ n : Nat, 1 ≤ n → (n : Int) ≤ r.lastSeenSeq → (w.ledger key).has log (w.taken key) key n

end World

/-! ### One session -/

/-- The watermark of an open session is covered. -/
def Ledger.Holds (l : Ledger) (t : Tab) (log : EventLog) (key taken : String) : Prop :=
  ∀ live r, t.live = some live → t.record = some r → l.covers log taken key r.lastSeenSeq

/-- A tab action moves the watermark only over events that are there. -/
def TabAction.Fits (l : Ledger) (t : Tab) (log : EventLog) (key epoch : String) : TabAction → Prop
  | .deliver ev => ∀ seq r, ev.seq = some seq → t.record = some r → r.lastSeenSeq < seq →
      ∃ n : Nat, seq = n ∧ log.Records epoch key n ev ∧ l.covers log epoch key (n - 1)
  | .touch seq _ => l.covers log epoch key seq
  | _ => True

section

variable [Serializer]

theorem Ledger.Holds.act {l : Ledger} {t : Tab} {log : EventLog} {key taken epoch : String} {snapshot : Snapshot}
    (h : l.Holds t log key taken) {a : TabAction} (hfits : t.live.isSome → a.Fits l t log key epoch) :
    (l.note t key epoch snapshot a).Holds (t.act key a).1 log key
      (if ((t.act key a).1.record.map (·.lastSeenSeq)) = (t.record.map (·.lastSeenSeq)) then taken else epoch) := by
  intro live' r' hlive hrecord
  by_cases hk : a.keeps
  · cases hl : t.live with
    | none =>
      rw [(Tab.act_none hl key hk).1] at hlive
      cases hlive
    | some live =>
      obtain ⟨f, hf, hseq⟩ := Tab.record_act hl key hk
      rw [hf, Option.map_eq_some_iff] at hrecord
      obtain ⟨r, hr, rfl⟩ := hrecord
      have hfits := hfits (by rw [hl]; rfl)
      have hold := h live r hl hr
      rw [hf, hr, Option.map_some, Option.map_some, Option.map_some, (hseq r).1]
      simp only [Option.some.injEq]
      cases a with
      | openSession => cases hk
      | close => cases hk
      | rebuildSession =>
        exact Ledger.covers_of_le_zero _ _ _ _ (Int.le_refl 0)
      | deliver ev =>
        cases hs : ev.seq with
        | none =>
          rw [TabAction.recordSeq_unsequenced hs, if_pos rfl]
          exact hold.note t epoch snapshot rfl fun _ _ _ => by simp
        | some seq =>
          rw [TabAction.recordSeq_sequenced hs]
          -- an event at or below the watermark leaves it where it is
          by_cases hlt : r.lastSeenSeq < seq
          · obtain ⟨n, rfl, hrec, hcov⟩ := hfits seq r hs hr hlt
            rw [if_pos hlt, if_neg (by omega)]
            exact hcov.deliver hrec hl snapshot
          · rw [if_neg hlt, if_pos rfl]
            exact hold.note t epoch snapshot rfl fun _ _ _ => by simp
      -- a touch moves the watermark forwards only
      | touch seq replayEpoch =>
        rw [TabAction.recordSeq_touch]
        by_cases hlt : r.lastSeenSeq < seq
        · rw [if_pos hlt, if_neg (by omega)]
          exact hfits.note t epoch snapshot rfl fun _ _ _ => by simp
        · rw [if_neg hlt, if_pos rfl]
          exact hold.note t epoch snapshot rfl fun _ _ _ => by simp
      | _ =>
        rw [if_pos (by rfl)]
        exact hold.note t epoch snapshot rfl fun _ _ _ => by simp
  · cases a with
    | openSession reply profile cols historyEpoch =>
      cases hrecord
      exact Ledger.covers_of_le_zero _ _ _ _ (Int.le_refl 0)
    | close => cases hlive
    | _ => exact absurd rfl hk

end

/-! ### The books of the whole core -/

/-- Routing, ledgers and watermarks agree. -/
structure Books [Serializer] (log : EventLog) (owner : String → String) (core : CoreState) (ledger : String → Ledger)
    (taken : String → String) : Prop where
  routed : core.Routed owner
  explains : ∀ key, (ledger key).Explains (core.tab key) key
  holds : ∀ key, (ledger key).Holds (core.tab key) log key (taken key)

/-- Only deliveries and touches move a watermark up. -/
private theorem fits_of_other {s : CoreState} {key : String} {a : Action} {b : TabAction} (hon : s.onTab key a = some b)
    (hd : ∀ ev, a ≠ .deliver ev) (ht : ∀ key seq epoch, a ≠ .touch key seq epoch) {l : Ledger} {t : Tab}
    {log : EventLog} {epoch : String} : b.Fits l t log key epoch := by
  cases a <;> simp only [CoreState.onTab, Option.ite_none_right_eq_some, Option.some.injEq] at hon
  case deliver ev => exact absurd rfl (hd ev)
  case touch => exact absurd rfl (ht _ _ _)
  case clearSessions =>
    subst hon
    trivial
  case forgetGateway =>
    subst hon
    trivial
  all_goals
    obtain ⟨-, rfl⟩ := hon
    trivial

private theorem replayStart_since (log : EventLog) (epoch key : String) (start upTo : Nat) (latestSeq : Int) :
    replayStart (log.since epoch key start upTo) latestSeq = if start < upTo then (start : Int) else latestSeq := by
  by_cases h : start < upTo
  · rw [log.since_cons epoch key h, if_pos h]
    unfold replayStart
    dsimp only
    omega
  · rw [log.since_nil epoch key (by omega), if_neg h]
    rfl

private theorem since_head {log : EventLog} {epoch key : String} {start upTo : Nat} {ev : ReplayedEvent}
    {events : List ReplayedEvent} (h : ev :: events = log.since epoch key start upTo) :
    start < upTo ∧ ev.seq - 1 = start ∧ events = log.since epoch key (start + 1) upTo := by
  have hlt : start < upTo := by
    by_contra hge
    rw [log.since_nil _ _ (by omega)] at h
    cases h
  rw [log.since_cons _ _ hlt, List.cons.injEq] at h
  obtain ⟨rfl, hrest⟩ := h
  refine ⟨hlt, ?_, hrest⟩
  dsimp only
  omega

section

variable [Serializer]

theorem Books.act {log : EventLog} {owner : String → String} {w : World}
    (h : Books log owner w.sys.core w.ledger w.taken) {a : Action} (ha : a.Named owner)
    (hfits : ∀ key b, w.sys.core.onTab key a = some b → key ∈ w.sys.core.sessions →
      b.Fits (w.ledger key) (w.sys.core.tab key) log key w.sys.freshEpoch) (snapshot : Snapshot) :
    Books log owner (w.sys.core.act a).1 (w.note snapshot a) (w.take a) where
  routed := h.routed.act ha
  explains := by
    intro key
    unfold World.note
    rw [CoreState.tab_act]
    cases hon : w.sys.core.onTab key a with
    | none => exact h.explains key
    | some b =>
      refine (h.explains key).act w.sys.freshEpoch snapshot b ?_
      rintro reply profile cols historyEpoch rfl
      exact (CoreState.onTab_open hon).2
  holds := by
    intro key
    unfold World.note World.take
    rw [CoreState.tab_act]
    cases hon : w.sys.core.onTab key a with
    | none =>
      unfold Tab.actOption
      rw [if_pos rfl]
      exact h.holds key
    | some b =>
      exact (h.holds key).act fun hopen => hfits key b hon ((CoreState.mem_sessions_iff _ _).2 hopen)

theorem Books.reaches {log : EventLog} {owner : String → String} {w : World}
    (h : Books log owner w.sys.core w.ledger w.taken) {key : String} (hopen : key ∈ w.sys.core.sessions) {m : Int}
    (hm : w.Reaches key m) : (w.ledger key).covers log w.sys.freshEpoch key m := by
  rcases hm with hzero | ⟨htaken, r, hr, hle⟩ | ⟨hepoch, hle⟩
  · exact Ledger.covers_of_le_zero _ _ _ _ hzero
  · rw [CoreState.mem_sessions_iff, Option.isSome_iff_exists] at hopen
    obtain ⟨live, hl⟩ := hopen
    exact htaken ▸ (h.holds key live r hl hr).mono hle
  · intro n hn
    exact .inr (.inl ⟨hepoch, by omega⟩)

/-- What a session holds it keeps holding, as long as no other history is installed. -/
private theorem covers_note {log : EventLog} {w : World} {a : Action} {snapshot : Snapshot} {key epoch : String}
    {m : Int} (h : (w.ledger key).covers log epoch key m) (hopen : key ∈ (w.sys.core.act a).1.sessions)
    (ho : ∀ reply profile cols, a = .openSession reply profile cols → reply.key ≠ key)
    (hr : ∀ messages replayEpoch, a ≠ .rebuildSession key messages replayEpoch) :
    (w.note snapshot a key).covers log epoch key m := by
  unfold World.note
  rw [CoreState.mem_sessions_iff, CoreState.tab_act] at hopen
  cases hon : w.sys.core.onTab key a with
  | none => exact h
  | some b =>
    rw [hon] at hopen
    refine Ledger.covers.note h _ _ snapshot ?_ ?_
    · cases b with
      | openSession reply profile cols historyEpoch =>
        obtain ⟨rfl, hkey⟩ := CoreState.onTab_open hon
        exact absurd hkey (ho _ _ _ rfl)
      | close => cases hopen
      | _ => rfl
    · rintro messages replayEpoch historyEpoch rfl
      exact hr _ _ (CoreState.onTab_rebuild hon)

/-! ### One event of a replay -/

/-- The first event of the rest of a replay closes up to the events before it. -/
private theorem replay_step {log : EventLog} {owner : String → String} {w : World}
    (h : Books log owner w.sys.core w.ledger w.taken) {key : String} (hkey : owner key = key) {ev : ReplayedEvent}
    {events : List ReplayedEvent} {start upTo : Nat}
    (hev : ev :: events = log.since w.sys.freshEpoch key start upTo)
    (hcov : key ∈ w.sys.core.sessions → (w.ledger key).covers log w.sys.freshEpoch key start) (snapshot : Snapshot) :
    Books log owner (w.sys.core.act (.deliver ev.params)).1 (w.note snapshot (.deliver ev.params))
        (w.take (.deliver ev.params)) ∧
      (key ∈ (w.sys.core.act (.deliver ev.params)).1.sessions →
        (w.note snapshot (.deliver ev.params) key).covers log w.sys.freshEpoch key ((start + 1 : Nat) : Int)) := by
  obtain ⟨hlt, -, -⟩ := since_head hev
  rw [log.since_cons _ _ hlt, List.cons.injEq] at hev
  obtain ⟨rfl, -⟩ := hev
  have hrec : log.Records w.sys.freshEpoch key (start + 1)
      (ReplayedEvent.params ⟨(log w.sys.freshEpoch key (start + 1)).1, key, (start + 1 : Nat),
        (log w.sys.freshEpoch key (start + 1)).2⟩) := ⟨by omega, rfl, rfl⟩
  refine ⟨h.act (by exact trivial) ?_ snapshot, ?_⟩
  · intro key' b hon hopen
    simp only [CoreState.onTab, Option.ite_none_right_eq_some, Option.some.injEq] at hon
    obtain ⟨hres, rfl⟩ := hon
    have howner : owner key = key' := h.routed.resolve hres
    rw [hkey] at howner
    subst howner
    intro seq r hseq hr hmoves
    cases hseq
    refine ⟨start + 1, rfl, hrec, (hcov hopen).mono (by omega)⟩
  · intro hopen
    have hbefore : key ∈ w.sys.core.sessions := by
      rcases CoreState.open_of_act hopen with hbefore | ⟨_, _, _, habs, -⟩
      · exact hbefore
      · cases habs
    unfold World.note
    have hon : w.sys.core.onTab key (.deliver (ReplayedEvent.params ⟨(log w.sys.freshEpoch key (start + 1)).1, key,
        (start + 1 : Nat), (log w.sys.freshEpoch key (start + 1)).2⟩)) = some (.deliver _) :=
      if_pos (h.routed.resolve_key hbefore)
    rw [hon]
    rw [CoreState.mem_sessions_iff, Option.isSome_iff_exists] at hbefore
    obtain ⟨live, hl⟩ := hbefore
    exact Ledger.covers.deliver ((hcov ((CoreState.mem_sessions_iff _ _).2 (by rw [hl]; rfl))).mono (by omega)) hrec
      hl snapshot

/-! ### Every step -/

/-- The invariant of the runs: the books agree, and a replay that is under way connects. -/
structure World.Covered (log : EventLog) (owner : String → String) (w : World) : Prop where
  books : Books log owner w.sys.core w.ledger w.taken
  starts : ∀ key m, (key, m) ∈ w.sys.supervisor.starts w.sys.freshEpoch → key ∈ w.sys.core.sessions →
    (w.ledger key).covers log w.sys.freshEpoch key m
  sent : w.sys.supervisor.Sent log owner w.sys.freshEpoch

namespace World

/-- A step of the supervisor that neither runs a lock section nor has a replay in hand. -/
private theorem covered_quiet {log : EventLog} {owner : String → String} {w : World} (h : w.Covered log owner)
    (i : Input) {supervisor : Supervisor} {epoch : String} (hs : supervisor.starts epoch = [])
    (hsent : supervisor.Sent log owner epoch) : (w.after i none supervisor epoch).Covered log owner where
  books := h.books
  starts := by
    intro key m hm
    change (key, m) ∈ supervisor.starts epoch at hm
    rw [hs] at hm
    cases hm
  sent := hsent

/-- A reply of `session.events.since` in `resume_all`. -/
private theorem covered_answered {log : EventLog} {owner : String → String} {w : World} (h : w.Covered log owner)
    (i : Input) {key : String} {record : SessionRecord} (reply : ResumedSession) {replay : EventsSince}
    (rest : List String) (hkey : owner key = key)
    (hreplay : log.Answers w.sys.freshEpoch key record.lastSeenSeq replay)
    (hj : key ∈ w.sys.core.sessions → rebuilds w.sys.freshEpoch record replay = false →
      w.Reaches key record.lastSeenSeq) :
    (w.after i none (.answered key record reply replay rest) w.sys.freshEpoch).Covered log owner := by
  -- a gap is filled only from an answer that is complete
  have hanswer : rebuilds w.sys.freshEpoch record replay = false → ∃ upTo : Nat,
      replay.events = log.since w.sys.freshEpoch key record.lastSeenSeq.toNat upTo ∧ replay.latestSeq = upTo := by
    intro hfill
    have htrunc : replay.truncated = false := by
      unfold rebuilds at hfill
      simp only [Bool.or_eq_false_iff] at hfill
      exact hfill.1.1
    unfold EventLog.Answers at hreplay
    rwa [htrunc, if_neg Bool.false_ne_true] at hreplay
  refine ⟨h.books, ?_, hkey, ?_⟩
  · intro key' m hm hopen
    change (key', m) ∈ (if rebuilds w.sys.freshEpoch record replay then []
      else [(key, replayStart replay.events replay.latestSeq)]) at hm
    cases hfill : rebuilds w.sys.freshEpoch record replay with
    | true =>
      rw [hfill, if_pos rfl] at hm
      cases hm
    | false =>
      rw [hfill, if_neg Bool.false_ne_true, List.mem_singleton, Prod.mk.injEq] at hm
      obtain ⟨rfl, rfl⟩ := hm
      obtain ⟨upTo, hevents, hlatest⟩ := hanswer hfill
      have hcov := h.books.reaches hopen (hj hopen hfill)
      rw [hevents, replayStart_since]
      intro n hn
      by_cases hle : (n : Int) ≤ record.lastSeenSeq
      · exact hcov n hle
      · refine .inl ?_
        split at hn <;> omega
  · intro hfill
    obtain ⟨upTo, hevents, hlatest⟩ := hanswer hfill
    exact ⟨_, upTo, hevents, Int.le_of_eq hlatest⟩

/-- A reply of `session.events.since` in `catch_up_all`. -/
private theorem covered_catchUp {log : EventLog} {owner : String → String} {w : World} (h : w.Covered log owner)
    (i : Input) {key : String} {lastSeen : Int} {replay : EventsSince} (rest : List (String × Int))
    (hkey : owner key = key) (hreplay : log.Answers w.sys.freshEpoch key lastSeen replay)
    (hj : key ∈ w.sys.core.sessions → replay.events ≠ [] →
      w.Reaches key (if replay.truncated then replayStart replay.events 0 else lastSeen)) :
    (w.after i none (.catchUp key replay.events rest) w.sys.freshEpoch).Covered log owner := by
  have hsince : ∃ start upTo, replay.events = log.since w.sys.freshEpoch key start upTo ∧
      (replay.truncated = false → start = lastSeen.toNat) := by
    unfold EventLog.Answers at hreplay
    cases htrunc : replay.truncated with
    | true =>
      rw [htrunc, if_pos rfl] at hreplay
      obtain ⟨start, upTo, hevents⟩ := hreplay
      exact ⟨start, upTo, hevents, by simp⟩
    | false =>
      rw [htrunc, if_neg Bool.false_ne_true] at hreplay
      obtain ⟨upTo, hevents, -⟩ := hreplay
      exact ⟨_, upTo, hevents, fun _ => rfl⟩
  obtain ⟨start, upTo, hevents, hstart⟩ := hsince
  refine ⟨h.books, ?_, hkey, start, upTo, hevents⟩
  intro key' m hm hopen
  change (key', m) ∈ Supervisor.starts w.sys.freshEpoch (.catchUp key replay.events rest) at hm
  rw [hevents] at hm hj
  by_cases hlt : start < upTo
  · rw [log.since_cons _ _ hlt] at hm
    simp only [Supervisor.starts, List.mem_singleton, Prod.mk.injEq] at hm
    obtain ⟨rfl, rfl⟩ := hm
    have hcov := h.books.reaches hopen (hj hopen (by rw [log.since_cons _ _ hlt]; simp))
    intro n hn
    cases htrunc : replay.truncated with
    | true =>
      rw [htrunc, if_pos rfl, replayStart_since, if_pos hlt] at hcov
      exact hcov n (by omega)
    | false =>
      rw [htrunc, if_neg Bool.false_ne_true] at hcov
      have heq := hstart htrunc
      by_cases hle : (n : Int) ≤ lastSeen
      · exact hcov n hle
      · exact .inl (by omega)
  · rw [log.since_nil _ _ (by omega)] at hm
    cases hm

/-- The next event of a replay of `resume_all` or `catch_up_all`. -/
private theorem covered_replay {log : EventLog} {owner : String → String} {w : World}
    (h : Books log owner w.sys.core w.ledger w.taken) (i : Input) {key : String} {ev : ReplayedEvent}
    {events : List ReplayedEvent} {start upTo : Nat} (hkey : owner key = key)
    (hev : ev :: events = log.since w.sys.freshEpoch key start upTo)
    (hcov : key ∈ w.sys.core.sessions → (w.ledger key).covers log w.sys.freshEpoch key (ev.seq - 1))
    {supervisor : Supervisor}
    (hs : ∀ key' m, (key', m) ∈ supervisor.starts w.sys.freshEpoch → key' = key ∧ m ≤ (start + 1 : Nat))
    (hsent : supervisor.Sent log owner w.sys.freshEpoch) :
    (w.after i (some (.deliver ev.params)) supervisor w.sys.freshEpoch).Covered log owner := by
  obtain ⟨-, hseq, -⟩ := since_head hev
  rw [hseq] at hcov
  obtain ⟨hbooks, hnext⟩ := replay_step h hkey hev hcov i.snapshot
  refine ⟨hbooks, ?_, hsent⟩
  intro key' m hm hopen
  obtain ⟨rfl, hle⟩ := hs key' m hm
  exact (hnext hopen).mono hle

/-- A lock section of another task. -/
private theorem covered_task {log : EventLog} {owner : String → String} {w : World} (h : w.Covered log owner)
    {i : Input} {a : Action} (htask : a.ofTask) (hnamed : a.Named owner)
    (hj : ∀ reply profile cols, a = .openSession reply profile cols →
      ∀ m, (reply.key, m) ∈ w.sys.supervisor.starts w.sys.freshEpoch →
        m ≤ 0 ∨ (i.snapshot.epoch = w.sys.freshEpoch ∧ m ≤ i.snapshot.upTo)) :
    (w.after i (some a) w.sys.supervisor w.sys.freshEpoch).Covered log owner := by
  refine ⟨?_, ?_, h.sent⟩
  · refine h.books.act hnamed ?_ _
    intro key b hon _
    by_cases hd : ∃ ev, a = .deliver ev
    · -- the title event of a rename has no seq
      obtain ⟨ev, rfl⟩ := hd
      simp only [CoreState.onTab, Option.ite_none_right_eq_some, Option.some.injEq] at hon
      obtain ⟨-, rfl⟩ := hon
      intro seq r hseq
      change (ev.eventType == "session.title" && ev.seq.isNone) = true at htask
      rw [hseq, Option.isNone_some, Bool.and_false] at htask
      cases htask
    · push Not at hd
      refine fits_of_other hon hd ?_
      rintro key seq epoch rfl
      cases htask
  · intro key m hm hopen
    by_cases ho : ∃ reply profile cols, a = .openSession reply profile cols ∧ reply.key = key
    · obtain ⟨reply, profile, cols, rfl, rfl⟩ := ho
      have hledger : w.note (w.installs i (.openSession reply profile cols)) (.openSession reply profile cols)
          reply.key = ⟨reply.messages, i.snapshot, []⟩ := by
        have hon : w.sys.core.onTab reply.key (.openSession reply profile cols) =
            some (.openSession reply profile cols (w.sys.core.historyEpoch + 1)) := if_pos rfl
        unfold note
        rw [hon]
        rfl
      change (w.note _ _ _).covers log w.sys.freshEpoch reply.key m
      rw [hledger]
      rcases hj reply profile cols rfl m hm with hzero | ⟨hepoch, hle⟩
      · exact Ledger.covers_of_le_zero _ _ _ _ hzero
      · intro n hn
        have hupTo : n ≤ i.snapshot.upTo := by omega
        exact .inr (.inl ⟨hepoch, hupTo⟩)
    · have hbefore : key ∈ w.sys.core.sessions := by
        rcases CoreState.open_of_act hopen with hbefore | ⟨reply, profile, cols, rfl, hkey⟩
        · exact hbefore
        · exact absurd ⟨reply, profile, cols, rfl, hkey⟩ ho
      refine covers_note (h.starts key m hm hbefore) hopen ?_ ?_
      · rintro reply profile cols rfl hkey
        exact ho ⟨reply, profile, cols, rfl, hkey⟩
      · rintro messages replayEpoch rfl
        cases htask

/-- A live frame. -/
private theorem covered_live {log : EventLog} {owner : String → String} {w : World} (h : w.Covered log owner)
    (i : Input) {ev : EventParams}
    (hg : ∀ seq, ev.seq = some seq → ∃ n, log.Records w.sys.freshEpoch (owner ev.sessionId) n ev)
    (hj : ∀ key seq r, w.sys.core.resolve ev.sessionId = some key → key ∈ w.sys.core.sessions → ev.seq = some seq →
      w.sys.core.registry.get key = some r → r.lastSeenSeq < seq → w.Reaches key (seq - 1)) :
    (w.after i (some (.deliver ev)) .idle w.sys.freshEpoch).Covered log owner := by
  refine ⟨h.books.act (by exact trivial) ?_ _, ?_, trivial⟩
  · intro key b hon hopen
    simp only [CoreState.onTab, Option.ite_none_right_eq_some, Option.some.injEq] at hon
    obtain ⟨hres, rfl⟩ := hon
    intro seq r hseq hr hmoves
    obtain ⟨n, hrec⟩ := hg seq hseq
    rw [h.books.routed.resolve hres] at hrec
    have hn : seq = n := Option.some_inj.1 (hseq.symm.trans hrec.2.1)
    subst hn
    exact ⟨n, rfl, hrec, h.books.reaches hopen (hj key n r hres hopen hseq hr hmoves)⟩
  · intro key m hm
    cases hm

/-- A lock section that delivers and touches nothing, behind which no replay is in hand. -/
private theorem covered_other {log : EventLog} {owner : String → String} {w : World} (h : w.Covered log owner)
    (i : Input) {a : Action} {supervisor : Supervisor} (hnamed : a.Named owner) (hd : ∀ ev, a ≠ .deliver ev)
    (ht : ∀ key seq epoch, a ≠ .touch key seq epoch) (hs : supervisor.starts w.sys.freshEpoch = [])
    (hsent : supervisor.Sent log owner w.sys.freshEpoch) :
    (w.after i (some a) supervisor w.sys.freshEpoch).Covered log owner := by
  refine ⟨h.books.act hnamed (fun key b hon _ => fits_of_other hon hd ht) _, ?_, hsent⟩
  intro key m hm
  change (key, m) ∈ supervisor.starts w.sys.freshEpoch at hm
  rw [hs] at hm
  cases hm

/-- The local steps of the supervisor. -/
private theorem covered_advance {log : EventLog} {owner : String → String} {w : World} (h : w.Covered log owner)
    (i : Input) {a : Option Action} {supervisor : Supervisor}
    (hadvances : w.sys.supervisor.Advances w.sys.core w.sys.freshEpoch a supervisor) :
    (w.after i a supervisor w.sys.freshEpoch).Covered log owner := by
  have hstarts := h.starts
  have hsent := h.sent
  generalize w.sys.supervisor = before at hadvances hstarts hsent
  cases hadvances with
  | repoint => exact covered_other h i hsent (by simp) (by simp) rfl trivial
  | rebuild hrebuilds => exact covered_other h i trivial (by simp) (by simp) rfl trivial
  | card => exact covered_other h i trivial (by simp) (by simp) rfl trivial
  -- the gap starts where the answer starts, behind the watermark that was asked for
  | @fill key record reply replay rest hfills =>
    obtain ⟨hkey, hfill⟩ := hsent
    refine ⟨h.books, ?_, hkey, hfill hfills⟩
    intro key' m hm
    refine hstarts key' m ?_
    change (key', m) ∈ (if rebuilds w.sys.freshEpoch record replay then []
      else [(key, replayStart replay.events replay.latestSeq)])
    rw [hfills, if_neg Bool.false_ne_true]
    exact hm
  | @replay key ev events replay rest =>
    obtain ⟨hkey, start, upTo, hevents, hlatest⟩ := hsent
    obtain ⟨hlt, -, rfl⟩ := since_head hevents
    refine covered_replay h.books i hkey hevents (hstarts key _ List.mem_cons_self) ?_
      ⟨hkey, start + 1, upTo, rfl, hlatest⟩
    intro key' m hm
    simp only [Supervisor.starts, replayStart_since, List.mem_singleton, Prod.mk.injEq] at hm
    obtain ⟨rfl, rfl⟩ := hm
    refine ⟨rfl, ?_⟩
    split <;> omega
  | @touch key replay rest =>
    -- the whole gap is delivered, so that the watermark covers what it is moved to
    refine ⟨h.books.act (by exact trivial) ?_ _, ?_, trivial⟩
    · intro key' b hon hopen
      simp only [CoreState.onTab, Option.ite_none_right_eq_some, Option.some.injEq] at hon
      obtain ⟨rfl, rfl⟩ := hon
      exact hstarts key replay.latestSeq List.mem_cons_self hopen
    · intro key m hm
      cases hm
  | @deliver key ev events rest =>
    obtain ⟨hkey, start, upTo, hevents⟩ := hsent
    obtain ⟨-, -, hrest⟩ := since_head hevents
    refine covered_replay h.books i hkey hevents (hstarts key _ List.mem_cons_self) ?_
      ⟨hkey, start + 1, upTo, hrest⟩
    intro key' m hm
    cases events with
    | nil => cases hm
    | cons next events =>
      obtain ⟨-, hseq, -⟩ := since_head hrest
      simp only [Supervisor.starts, List.mem_singleton, Prod.mk.injEq] at hm
      obtain ⟨rfl, rfl⟩ := hm
      exact ⟨rfl, Int.le_of_eq hseq⟩
  | _ => exact covered_quiet h i rfl trivial

/-- Every step whose input connects keeps the invariant. -/
theorem Covered.step {log : EventLog} {owner : String → String} {w w' : World} {i : Input} (h : w.Covered log owner)
    (hg : w.FromGateway log owner i) (hj : w.Joins i) (hs : w.step i = some w') : w'.Covered log owner := by
  obtain ⟨a, supervisor, epoch, hnext, rfl⟩ := step_eq hs
  have hsteps := Sys.steps_of_next hnext
  unfold FromGateway at hg
  unfold Joins at hj
  generalize i.label = label at hg hj hsteps
  cases hsteps with
  | live hsup => exact covered_live h i hg hj
  | resumed hsup =>
    simp only [hsup] at hg
    exact covered_quiet h i rfl hg
  | answered hsup =>
    simp only [hsup] at hg hj
    exact covered_answered h i _ _ hg.1 hg.2 hj
  | catchUp hsup =>
    simp only [hsup] at hg hj
    exact covered_catchUp h i _ hg.1 hg.2 hj
  | advance hadvances => exact covered_advance h i hadvances
  | task htask =>
    refine covered_task h htask hg ?_
    rintro reply profile cols rfl
    exact hj
  | _ => exact covered_quiet h i rfl trivial

private theorem covered_new (log : EventLog) (owner : String → String) (registry : SessionRegistry) :
    (new registry).Covered log owner := by
  refine ⟨⟨CoreState.routed_new owner registry, ?_, ?_⟩, ?_, trivial⟩
  · intro key live hlive
    cases hlive
  · intro key live r hlive
    cases hlive
  · intro key m hm
    cases hm

end World

end

/-! ### A lag that is not filled -/

section

attribute [local instance] Serializer.compact

/-- A session that gets one frame after the other. -/
private def deltas : EventLog := fun _ _ _ => ("message.frame", .object [("text", .string "ab")])

private def frame (seq : Int) : EventParams := ⟨"message.frame", "live", some seq, .object [("text", .string "ab")]⟩

private def chatOwner (sid : String) : String := if sid = "live" then "chat" else sid

/-- A connection without sessions, a new session and its first event, then a lag. -/
private def lag : List Input :=
  [⟨.connected "e1", {}⟩, ⟨.advance, {}⟩, ⟨.readKeys [], {}⟩, ⟨.advance, {}⟩,
    ⟨.task (.openSession (.created ⟨"live", "chat", ""⟩) none 80), {}⟩, ⟨.live (frame 1), {}⟩, ⟨.lagged, {}⟩,
    ⟨.advance, {}⟩]

/-- The catch-up brings event 2, and event 3 follows live. -/
private def fillingRun : List Input :=
  lag ++ [⟨.sinceReply (some ⟨deltas.since "e1" "chat" 1 2, 2, false, "e1"⟩), {}⟩, ⟨.advance, {}⟩, ⟨.advance, {}⟩,
    ⟨.advance, {}⟩, ⟨.live (frame 3), {}⟩]

/-- The catch-up fails, and event 3 follows live. -/
private def unfilled : List Input := lag ++ [⟨.sinceReply none, {}⟩, ⟨.advance, {}⟩, ⟨.live (frame 3), {}⟩]

/-- The frames of this gateway are recorded events. -/
private theorem records_frame (n : Nat) (h : 1 ≤ n) : deltas.Records "e1" "chat" n (frame n) := ⟨h, rfl, rfl⟩

private theorem live_frame {w : World} (h : w.sys.freshEpoch = "e1") (n : Nat) (hn : 1 ≤ n) :
    w.FromGateway deltas chatOwner ⟨.live (frame n), {}⟩ := by
  intro seq hseq
  cases hseq
  rw [h]
  exact ⟨n, records_frame n hn⟩

end

end Hermo
