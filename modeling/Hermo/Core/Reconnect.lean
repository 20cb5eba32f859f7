import Hermo.Core.World
import Hermo.Library.Replay

/-!
# A reconnect after a rebuild

A rebuild and an open reset the watermark, while the history they install contains every event up to the snapshot.
The next `resume_all` asks from the watermark that the events since have left (`record_run`), and what it replays is
applied (`seqs_run`); `Replay.once_iff` then decides whether the transcript holds every event once.
-/

namespace Hermo

/-- The gap fill of `resume_all` for one session. -/
def gapFill (key : String) (replay : EventsSince) : List Action :=
  replay.events.map (fun ev => .deliver ev.params) ++ [.touch key replay.latestSeq replay.epoch]

/-- The event of a delivery that has a seq and belongs to the session. -/
def Action.sequenced (owner : String → String) (key : String) : Action → Option EventParams
  | .deliver ev => if owner ev.sessionId = key ∧ ev.seq.isSome then some ev else none
  | _ => none

/-- The seqs applied under an epoch since the history was installed. -/
def Ledger.seqs (l : Ledger) (epoch : String) : List Int := (l.applied epoch).filterMap (·.seq)

/-- How often event `n` is in the transcript. -/
def Ledger.times (l : Ledger) (epoch : String) (n : Nat) : Nat :=
  (if l.snapshot.epoch = epoch ∧ n ≤ l.snapshot.upTo then 1 else 0) + (l.seqs epoch).count (n : Int)

/-- The seq of a tab action that delivers an event. -/
def TabAction.seq (a : TabAction) : Option Int := a.event.bind (·.seq)

/-- The action installs a history for the session. -/
def Action.Rebuilds (a : Action) (s : CoreState) (key : String) (messages : List Value) : Prop :=
  (∃ reply profile cols, a = .openSession (.resumed key reply) profile cols ∧ reply.messages = messages) ∨
    (key ∈ s.sessions ∧ ∃ replayEpoch, a = .rebuildSession key messages replayEpoch)

private theorem seqs_note {t : Tab} {live : LiveSession} (hl : t.live = some live) (l : Ledger) (key epoch : String)
    {b : TabAction} (hk : b.keeps)
    (hr : ∀ messages replayEpoch historyEpoch, b ≠ .rebuildSession messages replayEpoch historyEpoch) :
    (l.note t key epoch {} b).seqs epoch = l.seqs epoch ++ b.seq.toList := by
  unfold Ledger.seqs TabAction.seq
  rw [Ledger.applied_note hl l key epoch {} hk hr, List.filterMap_append]
  cases b.event with
  | none => rfl
  | some ev => cases h : ev.seq <;> simp [h]

private theorem mark_recordSeq {b : TabAction}
    (hr : ∀ messages replayEpoch historyEpoch, b ≠ .rebuildSession messages replayEpoch historyEpoch)
    (ht : ∀ seq epoch, b ≠ .touch seq epoch) (old : Int) (received : List Int) :
    Replay.mark (b.recordSeq old) received = Replay.mark old (b.seq.toList ++ received) := by
  cases b with
  | deliver ev =>
    change _ = Replay.mark old (ev.seq.toList ++ received)
    cases hs : ev.seq with
    | none =>
      rw [TabAction.recordSeq_unsequenced hs]
      rfl
    | some seq =>
      rw [TabAction.recordSeq_sequenced hs]
      change _ = Replay.mark (max old seq) received
      congr 1
      split <;> omega
  | rebuildSession => exact absurd rfl (hr _ _ _)
  | touch => exact absurd rfl (ht _ _)
  | _ => rfl

private theorem CoreState.onTab_sequenced {owner : String → String} {s : CoreState} (hrouted : s.Routed owner)
    {key : String} (hopen : (s.tab key).live.isSome) {a : Action}
    (hkey : ∀ ev, a.sequenced owner key = some ev → ev.sessionId = key) :
    ((s.onTab key a).bind TabAction.seq).toList = (a.sequenced owner key).toList.filterMap (·.seq) := by
  cases a with
  | deliver ev =>
    unfold CoreState.onTab Action.sequenced
    dsimp only
    by_cases hres : s.resolve ev.sessionId = some key
    · rw [if_pos hres, Option.bind_some, hrouted.resolve hres]
      change ev.seq.toList = _
      cases hs : ev.seq <;> simp [hs]
    · rw [if_neg hres]
      by_cases hseq : owner ev.sessionId = key ∧ ev.seq.isSome
      · have hid := hkey ev (if_pos hseq)
        rw [hid] at hres
        exact absurd (hrouted.resolve_key ((CoreState.mem_sessions_iff s key).2 hopen)) hres
      · rw [if_neg hseq]
        rfl
  | clearSessions => rfl
  | forgetGateway => rfl
  | _ =>
    unfold CoreState.onTab
    dsimp only
    split <;> rfl

/-- The gap fill of `resume_all` neither replaces a session nor brings in an id. -/
theorem gapFill_kept {owner : String → String} {key : String} {replay : EventsSince} :
    ∀ a ∈ gapFill key replay, a.Named owner ∧ ∀ key', a.replaces key' = false := by
  intro a ha
  rcases List.mem_append.1 ha with ha | ha
  · obtain ⟨ev, -, rfl⟩ := List.mem_map.1 ha
    exact ⟨trivial, fun _ => rfl⟩
  · rw [List.mem_singleton] at ha
    subst ha
    exact ⟨trivial, fun _ => rfl⟩

private theorem since_seqs (log : EventLog) (epoch key : String) (start upTo : Nat) :
    (log.since epoch key start upTo).map (·.seq) = Replay.block start (upTo - start) := by
  unfold EventLog.since Replay.block
  rw [List.map_map]
  rfl

private theorem params_seqs (events : List ReplayedEvent) :
    (events.map ReplayedEvent.params).filterMap (·.seq) = events.map (·.seq) := by
  induction events with
  | nil => rfl
  | cons ev events ih =>
    rw [List.map_cons, List.map_cons, ← ih]
    rfl

section

variable [Serializer]

/-- From the start of the gap fill the supervisor runs `gapFill` and goes on with the next session. -/
theorem Sys.exec_gapFill (s : Sys) (key : String) (replay : EventsSince) (rest : List String) :
    Run.exec step { s with supervisor := .replaying key replay.events replay rest }
        (List.replicate (replay.events.length + 1) .advance) =
      some ⟨s.core.run (gapFill key replay), .resumeNext rest, s.freshEpoch⟩ := by
  unfold gapFill
  generalize replay.events = events
  induction events generalizing s with
  | nil => rfl
  | cons ev events ih => exact ih { s with core := (s.core.act (.deliver ev.params)).1 }

namespace CoreState

/-- The seqs of the events that reach the session of `key` in a run. -/
def delivered (s : CoreState) (key : String) : List Action → List Int
  | [] => []
  | a :: as => ((s.onTab key a).bind TabAction.seq).toList ++ (s.act a).1.delivered key as

/-- The ledger of a session after a run under one epoch in which no history is installed. -/
def books (s : CoreState) (key epoch : String) (l : Ledger) : List Action → Ledger
  | [] => l
  | a :: as => (s.act a).1.books key epoch (l.noteOption (s.tab key) key epoch {} (s.onTab key a)) as

theorem delivered_cons (s : CoreState) (key : String) (a : Action) (as : List Action) :
    s.delivered key (a :: as) = ((s.onTab key a).bind TabAction.seq).toList ++ (s.act a).1.delivered key as := rfl

theorem delivered_append (s : CoreState) (key : String) (as bs : List Action) :
    s.delivered key (as ++ bs) = s.delivered key as ++ (s.run as).delivered key bs := by
  induction as generalizing s with
  | nil => rfl
  | cons a as ih =>
    rw [List.cons_append, delivered_cons, delivered_cons, ih, run_cons, List.append_assoc]

/-- An open session that is not replaced stays open. -/
theorem isSome_act {s : CoreState} {key : String} {a : Action} (ha : a.replaces key = false)
    (h : (s.tab key).live.isSome) : ((s.act a).1.tab key).live.isSome := by
  rw [tab_act]
  cases hon : s.onTab key a with
  | none => exact h
  | some b =>
    obtain ⟨live, hl⟩ := Option.isSome_iff_exists.1 h
    change ((s.tab key).act key b).1.live.isSome
    rw [Tab.live_act hl key (onTab_kept ha hon).1]
    rfl

theorem isSome_run {s : CoreState} {key : String} {as : List Action} (h : ∀ a ∈ as, a.replaces key = false)
    (hopen : (s.tab key).live.isSome) : ((s.run as).tab key).live.isSome := by
  induction as generalizing s with
  | nil => exact hopen
  | cons a as ih =>
    exact ih (fun b hb => h b (List.mem_cons_of_mem a hb)) (isSome_act (h a List.mem_cons_self) hopen)

/-! ### What is applied -/

theorem seqs_books {s : CoreState} {key : String} {as : List Action} (h : ∀ a ∈ as, a.replaces key = false)
    (hopen : (s.tab key).live.isSome) (epoch : String) (l : Ledger) :
    (s.books key epoch l as).snapshot = l.snapshot ∧
      (s.books key epoch l as).seqs epoch = l.seqs epoch ++ s.delivered key as := by
  induction as generalizing s l with
  | nil => exact ⟨rfl, (List.append_nil _).symm⟩
  | cons a as ih =>
    have ha := h a List.mem_cons_self
    obtain ⟨hsnapshot, hseqs⟩ := ih (fun b hb => h b (List.mem_cons_of_mem a hb)) (isSome_act ha hopen)
      (l.noteOption (s.tab key) key epoch {} (s.onTab key a))
    unfold books
    rw [hsnapshot, hseqs, delivered_cons, ← List.append_assoc]
    cases hon : s.onTab key a with
    | none => exact ⟨rfl, by simp [Ledger.noteOption]⟩
    | some b =>
      obtain ⟨hk, hr⟩ := onTab_kept ha hon
      obtain ⟨live, hl⟩ := Option.isSome_iff_exists.1 hopen
      refine ⟨(Ledger.note_mono _ l key epoch {} hk hr).1, ?_⟩
      change (l.note (s.tab key) key epoch {} b).seqs epoch ++ _ = _
      rw [seqs_note hl l key epoch hk hr, Option.bind_some]

/-- The reducer of the session is what the ledger says. -/
theorem explains_books {s : CoreState} {key : String} {as : List Action} (h : ∀ a ∈ as, a.replaces key = false)
    (epoch : String) {l : Ledger} (hl : l.Explains (s.tab key) key) :
    (s.books key epoch l as).Explains ((s.run as).tab key) key := by
  induction as generalizing s l with
  | nil => exact hl
  | cons a as ih =>
    refine ih (fun b hb => h b (List.mem_cons_of_mem a hb)) ?_
    rw [tab_act]
    cases hon : s.onTab key a with
    | none => exact hl
    | some b =>
      refine hl.act epoch {} b ?_
      rintro reply profile cols historyEpoch rfl
      cases (onTab_kept (h a List.mem_cons_self) hon).1

/-- The watermark the next gap fill asks from. -/
theorem record_run {s : CoreState} {key : String} {as : List Action}
    (h : ∀ a ∈ as, a.replaces key = false ∧ ∀ seq epoch, a ≠ .touch key seq epoch)
    (hopen : (s.tab key).live.isSome) {record : SessionRecord}
    (hrecord : ((s.run as).tab key).record = some record) :
    ∃ r, (s.tab key).record = some r ∧ record.lastSeenSeq = Replay.mark r.lastSeenSeq (s.delivered key as) := by
  induction as generalizing s with
  | nil => exact ⟨record, hrecord, rfl⟩
  | cons a as ih =>
    obtain ⟨ha, htouch⟩ := h a List.mem_cons_self
    obtain ⟨r, hr, hmark⟩ := ih (fun b hb => h b (List.mem_cons_of_mem a hb)) (isSome_act ha hopen) hrecord
    rw [delivered_cons]
    rw [tab_act] at hr
    cases hon : s.onTab key a with
    | none =>
      rw [hon] at hr
      exact ⟨r, hr, hmark⟩
    | some b =>
      obtain ⟨hk, hrebuild⟩ := onTab_kept ha hon
      obtain ⟨live, hl⟩ := Option.isSome_iff_exists.1 hopen
      obtain ⟨f, hf, hseq⟩ := Tab.record_act hl key hk
      rw [hon] at hr
      change ((s.tab key).act key b).1.record = some r at hr
      rw [hf, Option.map_eq_some_iff] at hr
      obtain ⟨r', hr', rfl⟩ := hr
      refine ⟨r', hr', ?_⟩
      rw [hmark, (hseq r').1, Option.bind_some]
      refine mark_recordSeq hrebuild ?_ _ _
      rintro seq epoch rfl
      exact htouch seq epoch (onTab_touch hon)

theorem Routed.run {owner : String → String} {s : CoreState} (h : s.Routed owner) {as : List Action}
    (has : ∀ a ∈ as, a.Named owner) : (s.run as).Routed owner := by
  induction as generalizing s with
  | nil => exact h
  | cons a as ih =>
    exact ih (h.act (has a List.mem_cons_self)) fun b hb => has b (List.mem_cons_of_mem a hb)

/-- Every event a gap fill replays for an open session reaches it. -/
theorem delivered_replay {owner : String → String} {s : CoreState} (hrouted : s.Routed owner) {key : String}
    (hopen : (s.tab key).live.isSome) {as : List Action} (has : ∀ a ∈ as, a.Named owner ∧ a.replaces key = false)
    (hkey : ∀ ev ∈ as.filterMap (Action.sequenced owner key), ev.sessionId = key) :
    s.delivered key as = (as.filterMap (Action.sequenced owner key)).filterMap (·.seq) := by
  induction as generalizing s with
  | nil => rfl
  | cons a as ih =>
    obtain ⟨hnamed, hkept⟩ := has a List.mem_cons_self
    have hsplit : (a :: as).filterMap (Action.sequenced owner key) =
        (a.sequenced owner key).toList ++ as.filterMap (Action.sequenced owner key) := by
      rw [List.filterMap_cons]
      cases a.sequenced owner key <;> rfl
    rw [hsplit] at hkey ⊢
    rw [delivered_cons, List.filterMap_append,
      ih (hrouted.act hnamed) (isSome_act hkept hopen) (fun b hb => has b (List.mem_cons_of_mem a hb))
        fun ev hev => hkey ev (List.mem_append_right _ hev),
      onTab_sequenced hrouted hopen fun ev hev => hkey ev (List.mem_append_left _ (by simp [hev]))]

/-- A session that was just opened or rebuilt shows its history, under the watermark 0. -/
private theorem tab_rebuilds {s : CoreState} {a : Action} {key : String} {messages : List Value}
    (h : a.Rebuilds s key messages) : ∃ live, ((s.act a).1.tab key).live = some live ∧
      live.reducer = (Reducer.ingestResumeMessages {} key messages).1 ∧
      ∀ r, ((s.act a).1.tab key).record = some r → r.lastSeenSeq = 0 := by
  rcases h with ⟨reply, profile, cols, rfl, rfl⟩ | ⟨hopen, replayEpoch, rfl⟩
  · have hon : s.onTab key (.openSession (.resumed key reply) profile cols) =
        some (.openSession (.resumed key reply) profile cols (s.historyEpoch + 1)) := if_pos rfl
    rw [tab_act, hon]
    refine ⟨_, rfl, openReducer_eq (.resumed key reply), ?_⟩
    intro r hr
    cases hr
    rfl
  · have hon : s.onTab key (.rebuildSession key messages replayEpoch) =
        some (.rebuildSession messages replayEpoch (s.historyEpoch + 1)) := if_pos rfl
    rw [mem_sessions_iff, Option.isSome_iff_exists] at hopen
    obtain ⟨live, hl⟩ := hopen
    rw [tab_act, hon]
    change ∃ live', ((s.tab key).act key _).1.live = some live' ∧ _ ∧ ∀ r, ((s.tab key).act key _).1.record = some r → _
    rw [Tab.live_act hl key rfl]
    refine ⟨_, rfl, rfl, ?_⟩
    intro r hr
    obtain ⟨f, hf, hseq⟩ := Tab.record_act hl key
      (show (TabAction.rebuildSession messages replayEpoch (s.historyEpoch + 1)).keeps from rfl)
    rw [hf, Option.map_eq_some_iff] at hr
    obtain ⟨r', -, rfl⟩ := hr
    exact (hseq r').1

/-- A session is opened or rebuilt by `install` from a history that contains its events `1, …, base`; `between` runs
without replacing it or filling its gaps; then the gateway, which has recorded `upTo` events, answers the gap fill
from the watermark completely, and `during` replays the answer.  The transcript is the history with the events the
ledger names.  Nothing the history contains is replayed, and every event is there once, exactly when the session got
the events right behind the history in between, each once, and at least one unless the history contains none. -/
theorem reconnect_iff (log : EventLog) (owner : String → String) (epoch key : String) (registry : SessionRegistry)
    (before between during : List Action) (install : Action) (messages : List Value) (base upTo : Nat)
    (record : SessionRecord) (hbase : base ≤ upTo)
    (hnamed : ∀ a ∈ before ++ install :: between ++ during, a.Named owner)
    (hinstall : install.Rebuilds ((new registry).run before) key messages)
    (hbetween : ∀ a ∈ between, a.replaces key = false ∧ ∀ seq epoch, a ≠ .touch key seq epoch)
    (hduring : ∀ a ∈ during, a.replaces key = false)
    (hrecord : ((((new registry).run before).act install).1.run between).registry.get key = some record)
    (hseqs : ∀ n ∈ (((new registry).run before).act install).1.delivered key between, 1 ≤ n ∧ n ≤ upTo)
    (hreplay : during.filterMap (Action.sequenced owner key) =
      (log.since epoch key record.lastSeenSeq.toNat upTo).map ReplayedEvent.params) :
    let installed := (((new registry).run before).act install).1
    let filled := installed.run (between ++ during)
    let ledger := installed.books key epoch ⟨messages, ⟨epoch, base⟩, []⟩ (between ++ during)
    ledger.Explains (filled.tab key) key ∧
    ((∀ ev ∈ log.since epoch key record.lastSeenSeq.toNat upTo, (base : Int) < ev.seq) ∧
        (∀ n : Nat, 1 ≤ n → n ≤ upTo → ledger.times epoch n = 1) ↔
      ∃ k, (installed.delivered key between).Perm (Replay.block base k) ∧ (base = 0 ∨ 0 < k)) := by
  intro installed filled ledger
  obtain ⟨live, hlive, hreducer, hzero⟩ := tab_rebuilds hinstall
  have hopen : (installed.tab key).live.isSome := by
    change ((((new registry).run before).act install).1.tab key).live.isSome
    rw [hlive]
    rfl
  have hkept : ∀ a ∈ between ++ during, a.replaces key = false := by
    intro a ha
    rcases List.mem_append.1 ha with ha | ha
    · exact (hbetween a ha).1
    · exact hduring a ha
  have hexplains : (⟨messages, ⟨epoch, base⟩, []⟩ : Ledger).Explains (installed.tab key) key := by
    intro live' hlive'
    rw [hlive, Option.some_inj] at hlive'
    exact hlive' ▸ hreducer
  refine ⟨explains_books hkept epoch hexplains, ?_⟩
  -- the watermark the gap fill asks from
  obtain ⟨r, hr, hmark⟩ := record_run hbetween hopen hrecord
  rw [hzero r hr] at hmark
  have hpos := (Replay.le_mark 0 (installed.delivered key between)).1
  -- what the gap fill replays
  have hsince := since_seqs log epoch key record.lastSeenSeq.toNat upTo
  have hmem : ∀ n : Int, n ∈ Replay.block record.lastSeenSeq.toNat (upTo - record.lastSeenSeq.toNat) ↔
      Replay.mark 0 (installed.delivered key between) < n ∧ n ≤ upTo := by
    intro n
    rw [Replay.mem_block, hmark]
    omega
  have hdelivered : (installed.run between).delivered key during =
      Replay.block record.lastSeenSeq.toNat (upTo - record.lastSeenSeq.toNat) := by
    rw [← hsince, ← params_seqs, ← hreplay]
    refine delivered_replay ?_ (isSome_run (fun a ha => (hbetween a ha).1) hopen) ?_ ?_
    · refine Routed.run (Routed.act (Routed.run (routed_new owner registry) ?_) (hnamed install (by simp))) ?_
      · exact fun a ha => hnamed a (by simp [ha])
      · exact fun a ha => hnamed a (by simp [ha])
    · exact fun a ha => ⟨hnamed a (by simp [ha]), hduring a ha⟩
    · intro ev hev
      rw [hreplay] at hev
      obtain ⟨replayed, hreplayed, rfl⟩ := List.mem_map.1 hev
      unfold EventLog.since at hreplayed
      obtain ⟨n, -, rfl⟩ := List.mem_map.1 hreplayed
      rfl
  have htimes : ∀ n : Nat, 1 ≤ n → n ≤ upTo → ledger.times epoch n =
      Replay.times base (installed.delivered key between) upTo n := by
    intro n _ hn
    obtain ⟨hsnapshot, hledger⟩ := seqs_books hkept hopen epoch ⟨messages, ⟨epoch, base⟩, []⟩
    have hcount : (Replay.block record.lastSeenSeq.toNat (upTo - record.lastSeenSeq.toNat)).count (n : Int) =
        if Replay.mark 0 (installed.delivered key between) < n ∧ n ≤ upTo then 1 else 0 := by
      have hle := List.nodup_iff_count_le_one.1
        (Replay.nodup_block record.lastSeenSeq.toNat (upTo - record.lastSeenSeq.toNat)) n
      have hiff := List.count_pos_iff.trans (hmem n)
      split <;> omega
    unfold Ledger.times Replay.times
    have hempty : (⟨messages, ⟨epoch, base⟩, []⟩ : Ledger).seqs epoch = [] := rfl
    rw [hsnapshot, hledger, hempty, List.nil_append, delivered_append, hdelivered, List.count_append, hcount]
    simp only [true_and]
    omega
  have hreceived : ∀ n ∈ installed.delivered key between, 1 ≤ n ∧ n ≤ upTo := hseqs
  rw [← Replay.once_iff hbase hreceived]
  refine and_congr ?_ ?_
  · constructor
    · intro h n hlo hhi
      obtain ⟨ev, hev, hseq⟩ := List.mem_map.1 (hsince ▸ (hmem n).2 ⟨hlo, by omega⟩)
      have hnew := h ev hev
      omega
    · intro h ev hev
      have hev := (hmem ev.seq).1 (hsince ▸ List.mem_map_of_mem hev)
      have hnew := h ev.seq.toNat (by omega) (by omega)
      omega
  · refine forall_congr' fun n => forall_congr' fun hn => forall_congr' fun hup => ?_
    rw [htimes n hn hup]

end CoreState

end

/-! ### A reconnect right after a rebuild -/

section

attribute [local instance] Serializer.compact

/-- Turns of two events, the second of which brings the text. -/
private def turns : EventLog := fun _ _ n =>
  if n % 2 = 1 then ("message.start", .object []) else ("message.complete", .object [("text", .string "ok")])

/-- The history of the first turn. -/
private def firstTurn : List Value := [.object [("role", .string "assistant"), ("text", .string "ok")]]

private def turnOwner (sid : String) : String := if sid = "live" then "chat" else sid

private def resume : Action := .openSession (.resumed "chat" ⟨"live", firstTurn, ""⟩) none 80

/-- Event `n` as a live frame. -/
private def turnFrame (n : Nat) : EventParams := ⟨(turns "e1" "chat" n).1, "live", some n, (turns "e1" "chat" n).2⟩

private def nextTurn : EventsSince := ⟨turns.since "e1" "chat" 3 4, 4, false, "e1"⟩

theorem reconnect_iff_chat :
    let installed := ((CoreState.new {}).act resume).1
    let ledger := installed.books "chat" "e1" ⟨firstTurn, ⟨"e1", 2⟩, []⟩
      ([.deliver (turnFrame 3)] ++ gapFill "chat" nextTurn)
    ∀ n : Nat, 1 ≤ n → n ≤ 4 → ledger.times "e1" n = 1 := by
  intro installed ledger
  have h := CoreState.reconnect_iff turns turnOwner "e1" "chat" {} [] [.deliver (turnFrame 3)]
    (gapFill "chat" nextTurn) resume firstTurn 2 4 ⟨"chat", 3, "", 80, "", ""⟩ (by decide) ?_
    (.inl ⟨_, _, _, rfl, rfl⟩) ?_ ?_ rfl ?_ rfl
  · exact (h.2.2 ⟨1, by decide, .inr (by decide)⟩).2
  · intro a ha
    rcases List.mem_append.1 ha with ha | ha
    · have hsplit : a = resume ∨ a = .deliver (turnFrame 3) := by simpa using ha
      rcases hsplit with rfl | rfl
      · exact ⟨by decide, by decide, by decide⟩
      · trivial
    · exact (gapFill_kept a ha).1
  · intro a ha
    rw [List.mem_singleton] at ha
    subst ha
    exact ⟨rfl, by simp⟩
  · intro a ha
    have hkept : a.Named turnOwner ∧ _ := gapFill_kept a ha
    exact hkept.2 "chat"
  · decide

/-- A reconnect before the first live event replays what the history contains, and the turn is shown twice. -/
theorem reconnect_replays_history :
    let installed := ((CoreState.new {}).act resume).1
    let record : SessionRecord := ⟨"chat", 0, "", 80, "", ""⟩
    let replay : EventsSince := ⟨turns.since "e1" "chat" 0 2, 2, false, "e1"⟩
    let ledger := installed.books "chat" "e1" ⟨firstTurn, ⟨"e1", 2⟩, []⟩ (gapFill "chat" replay)
    installed.registry.get "chat" = some record ∧ rebuilds "e1" record replay = false ∧
      ¬ (∀ ev ∈ replay.events, 2 < ev.seq) ∧ ledger.times "e1" 2 = 2 ∧
      (installed.run (gapFill "chat" replay)).rowsOf "chat" =
        [⟨0, .assistant "ok" false "" ""⟩, ⟨1, .assistant "ok" false "" ""⟩] := by
  decide

end

end Hermo
