import Hermo.Core.World

/-!
# Watermarks and replay epochs

A watermark counts the events of one replay epoch, and the record keeps the epoch next to it, so that `resume_all`
notices a restarted gateway.  Deliveries move the watermark and leave the epoch alone, so the two stay a pair only as
long as the record carries the epoch of the connection when the first event arrives: `Tracks` is this condition, and
`epoch_tracked` what holds in every run that meets it.
-/

namespace Hermo

/-- The record's epoch is the one its watermark was taken under. -/
def SessionRecord.Paired (record : SessionRecord) (taken : String) : Prop :=
  record.lastSeenSeq ≠ 0 → record.replayEpoch = taken ∧ record.replayEpoch ≠ ""

/-- The session whose gap the supervisor may still fill, because its record carried no other epoch. -/
def Supervisor.filling (freshEpoch : String) : Supervisor → Option String
  | .resuming key record _ | .resumed key record _ _ | .asking key record _ _ | .answered key record _ _ _ =>
    if record.replayEpoch = "" ∨ record.replayEpoch = freshEpoch then some key else none
  | .replaying key _ _ _ => some key
  | _ => none

/-- The epoch of the reply the supervisor works with. -/
def Supervisor.replyEpoch : Supervisor → Option String
  | .answered _ _ _ replay _ | .replaying _ _ replay _ => some replay.epoch
  | _ => none

namespace World

/-- An event that moves a watermark finds the epoch of the connection in the record, and the gateway sends this epoch
with its answer to a reconnect. -/
def Tracks (w : World) (i : Input) : Prop :=
  (∀ ev supervisor epoch, w.sys.next i.label = some (some (.deliver ev), supervisor, epoch) →
    ∀ key seq r, w.sys.core.resolve ev.sessionId = some key → key ∈ w.sys.core.sessions → ev.seq = some seq →
      w.sys.core.registry.get key = some r → r.lastSeenSeq < seq →
        r.replayEpoch = w.sys.freshEpoch ∧ w.sys.freshEpoch ≠ "") ∧
  (∀ replay key record reply rest, i.label = .sinceReply (some replay) →
    w.sys.supervisor = .asking key record reply rest → replay.epoch = w.sys.freshEpoch ∧ w.sys.freshEpoch ≠ "")

/-- The epochs are tracked: the pairs agree, a session whose watermark is of another epoch is rebuilt, and a session
rebuilt under the epoch of the connection is not rebuilt again for its epoch. -/
structure EpochTracked (w : World) : Prop where
  pair : ∀ key r, w.sys.core.registry.get key = some r → r.Paired (w.taken key)
  changed : ∀ key rest r replay, w.sys.supervisor = .resumeNext (key :: rest) →
    w.sys.core.registry.get key = some r → r.lastSeenSeq ≠ 0 → w.taken key ≠ w.sys.freshEpoch →
      rebuilds w.sys.freshEpoch r replay = true
  once : ∀ key rest r replay, w.sys.supervisor = .resumeNext (key :: rest) →
    w.sys.core.registry.get key = some r → w.rebuilt key = some w.sys.freshEpoch → replay.truncated = false →
      (replay.epoch = "" ∨ replay.epoch = w.sys.freshEpoch) → rebuilds w.sys.freshEpoch r replay = false

end World

/-! ### One record -/

/-- What the actions on a tab may do to its record: only with a live session, or by a touch. -/
private theorem record_act_closed [Serializer] {t : Tab} (h : t.live = none) (key : String) {a : TabAction}
    (hk : a.keeps) : (t.act key a).1.record = t.record ∨ ∃ seq epoch, a = .touch seq epoch := by
  cases a with
  | openSession => cases hk
  | close => cases hk
  | touch seq epoch => exact .inr ⟨seq, epoch, rfl⟩
  | deliver => exact .inl (by simp [Tab.act, h])
  | rebuildSession => exact .inl (by simp [Tab.act, h])
  | repointLiveSid => exact .inl (by simp [Tab.act])
  | appendUserRow => exact .inl (by simp [Tab.act, h])
  | respondApproval => exact .inl (by simp [Tab.act, Tab.editReducer, h])
  | respondClarify => exact .inl (by simp [Tab.act, Tab.editReducer, h])
  | reemitCard card =>
    refine .inl ?_
    unfold Tab.act Tab.reemitCard
    dsimp only
    split
    · rfl
    · split
      · rfl
      · rw [h]

/-- The epochs under one key: those of the watermark and of the last rebuild are the record's. -/
structure Tab.Tracked (t : Tab) (taken : String) (rebuilt : Option String) : Prop where
  recorded : t.live.isSome → t.record.isSome
  pair : ∀ r, t.record = some r → r.Paired taken
  once : ∀ epoch, rebuilt = some epoch → epoch ≠ "" ∧ ∃ r, t.record = some r ∧ r.replayEpoch = epoch

/-- What the epoch of the connection has to be for a tab action. -/
def TabAction.Tracks (t : Tab) (epoch : String) : TabAction → Prop
  | .deliver ev => ∀ seq r, t.live.isSome → ev.seq = some seq → t.record = some r → r.lastSeenSeq < seq →
      r.replayEpoch = epoch ∧ epoch ≠ ""
  | .touch _ replyEpoch => replyEpoch = epoch ∧ epoch ≠ "" ∧
      ∀ r, t.record = some r → r.replayEpoch = "" ∨ r.replayEpoch = epoch
  | .rebuildSession _ replayEpoch _ => replayEpoch = some epoch ∧ epoch ≠ ""
  | _ => True

private theorem tracked_open {t t' : Tab} {taken epoch : String} {rebuilt rebuilt' : Option String}
    (h : t.Tracked taken rebuilt) (hopen : t.live.isSome) {f : SessionRecord → SessionRecord}
    (hf : t'.record = t.record.map f)
    (hcases : ∀ r, t.record = some r →
      (rebuilt' = some epoch ∧ epoch ≠ "" ∧ (f r).replayEpoch = epoch ∧ (f r).lastSeenSeq = 0) ∨
      (rebuilt' = rebuilt ∧ (f r).replayEpoch = r.replayEpoch ∧ ((f r).lastSeenSeq = r.lastSeenSeq ∨
        ((f r).lastSeenSeq ≠ r.lastSeenSeq ∧ r.replayEpoch = epoch ∧ epoch ≠ "")))) :
    t'.Tracked (if ((t'.record.map (·.lastSeenSeq)) = (t.record.map (·.lastSeenSeq))) then taken else epoch)
      rebuilt' := by
  obtain ⟨r, hr⟩ := Option.isSome_iff_exists.1 (h.recorded hopen)
  have hr' : t'.record = some (f r) := by
    rw [hf, hr]
    rfl
  refine ⟨fun _ => by rw [hr']; rfl, ?_, ?_⟩
  · intro r' hrecord hzero
    rw [hr', Option.some_inj] at hrecord
    subst hrecord
    rw [hr', hr]
    simp only [Option.map_some, Option.some.injEq]
    rcases hcases r hr with ⟨-, -, -, hreset⟩ | ⟨-, hepoch, hsame | ⟨hmoved, hconn, hne⟩⟩
    · exact absurd hreset hzero
    · rw [if_pos hsame, hepoch]
      exact h.pair r hr (hsame ▸ hzero)
    · rw [if_neg hmoved, hepoch]
      exact ⟨hconn, hconn ▸ hne⟩
  · intro e he
    rcases hcases r hr with ⟨hrebuilt, hne, hepoch, -⟩ | ⟨hrebuilt, hepoch, -⟩
    · rw [hrebuilt, Option.some_inj] at he
      subst he
      exact ⟨hne, f r, hr', hepoch⟩
    · rw [hrebuilt] at he
      obtain ⟨hne, r', hrecord, hre⟩ := h.once e he
      rw [hr, Option.some_inj] at hrecord
      subst hrecord
      exact ⟨hne, f r, hr', hepoch.trans hre⟩

/-- Other than deliveries, touches and rebuilds need no epoch. -/
private theorem tracks_of_other {s : CoreState} {key : String} {a : Action} {b : TabAction}
    (hon : s.onTab key a = some b) (hd : ∀ ev, a ≠ .deliver ev) (ht : ∀ key seq epoch, a ≠ .touch key seq epoch)
    (hr : ∀ key messages epoch, a ≠ .rebuildSession key messages epoch) {t : Tab} {epoch : String} :
    b.Tracks t epoch := by
  cases b with
  | deliver ev =>
    cases a <;> simp only [CoreState.onTab, Option.ite_none_right_eq_some, Option.some.injEq, reduceCtorEq, and_false]
      at hon
    exact absurd rfl (hd _)
  | touch seq replyEpoch => exact absurd (CoreState.onTab_touch hon) (ht _ _ _)
  | rebuildSession messages replayEpoch historyEpoch => exact absurd (CoreState.onTab_rebuild hon) (hr _ _ _)
  | _ => trivial

private theorem tracks_deliver {w : World} {ev : EventParams}
    (ht : ∀ key seq r, w.sys.core.resolve ev.sessionId = some key → key ∈ w.sys.core.sessions → ev.seq = some seq →
      w.sys.core.registry.get key = some r → r.lastSeenSeq < seq →
        r.replayEpoch = w.sys.freshEpoch ∧ w.sys.freshEpoch ≠ "")
    (key : String) (b : TabAction) (hon : w.sys.core.onTab key (.deliver ev) = some b) :
    b.Tracks (w.sys.core.tab key) w.sys.freshEpoch := by
  simp only [CoreState.onTab, Option.ite_none_right_eq_some, Option.some.injEq] at hon
  obtain ⟨hres, rfl⟩ := hon
  intro seq r hlive hseq hr hlt
  exact ht key seq r hres ((CoreState.mem_sessions_iff _ _).2 hlive) hseq hr hlt

/-- A gap is filled only when the record carried no other epoch. -/
private theorem epoch_of_fill {freshEpoch : String} {record : SessionRecord} {replay : EventsSince}
    (h : rebuilds freshEpoch record replay = false) : record.replayEpoch = "" ∨ record.replayEpoch = freshEpoch := by
  unfold rebuilds at h
  simp only [Bool.or_eq_false_iff, Bool.and_eq_false_iff, bne_eq_false_iff_eq] at h
  exact h.1.2

section

variable [Serializer]

private theorem tracked_touch {t : Tab} {taken epoch : String} {rebuilt : Option String}
    (h : t.Tracked taken rebuilt) (key : String) {seq : Int} {replyEpoch : String}
    (ha : (TabAction.touch seq replyEpoch).Tracks t epoch) :
    (t.act key (.touch seq replyEpoch)).1.Tracked
      (if (((t.act key (.touch seq replyEpoch)).1.record.map (·.lastSeenSeq)) = (t.record.map (·.lastSeenSeq)))
        then taken else epoch) rebuilt := by
  obtain ⟨rfl, hne, hepoch⟩ := ha
  have hrecord : (t.act key (.touch seq replyEpoch)).1.record =
      t.record.map (SessionRegistry.touchRecord seq replyEpoch) := rfl
  have htouched : ∀ r, (SessionRegistry.touchRecord seq replyEpoch r).replayEpoch = replyEpoch :=
    fun r => if_neg hne
  refine ⟨?_, ?_, ?_⟩
  · intro hlive
    rw [hrecord, Option.isSome_map]
    exact h.recorded hlive
  · intro r' hr'
    rw [hrecord, Option.map_eq_some_iff] at hr'
    obtain ⟨r, hr, rfl⟩ := hr'
    intro hzero
    rw [htouched, hrecord, hr]
    refine ⟨?_, hne⟩
    split
    · -- the watermark stays, so it was taken under the epoch the record has
      rename_i hsame
      simp only [Option.map_some, Option.some.injEq] at hsame
      rw [hsame] at hzero
      obtain ⟨htaken, hnonempty⟩ := h.pair r hr hzero
      rcases hepoch r hr with hempty | heq
      · exact absurd hempty hnonempty
      · rw [← htaken, heq]
    · rfl
  · intro e he
    obtain ⟨hnonempty, r, hr, hre⟩ := h.once e he
    refine ⟨hnonempty, SessionRegistry.touchRecord seq replyEpoch r, ?_, ?_⟩
    · rw [hrecord, hr]
      rfl
    · rw [htouched]
      rcases hepoch r hr with hempty | heq
      · exact absurd (hre ▸ hempty) hnonempty
      · rw [← hre, heq]

/-- The record of a live session: a rebuild starts a new pair, a delivery may move the watermark of the old one. -/
private theorem record_act_open {t : Tab} {live : LiveSession} (hl : t.live = some live) (key : String)
    {a : TabAction} (hk : a.keeps) (htouch : ¬ ∃ seq replyEpoch, a = .touch seq replyEpoch) {epoch : String}
    (ha : a.Tracks t epoch) (rebuilt : Option String) :
    ∃ f : SessionRecord → SessionRecord, (t.act key a).1.record = t.record.map f ∧ ∀ r, t.record = some r →
      (a.remember t epoch rebuilt = some epoch ∧ epoch ≠ "" ∧ (f r).replayEpoch = epoch ∧ (f r).lastSeenSeq = 0) ∨
      (a.remember t epoch rebuilt = rebuilt ∧ (f r).replayEpoch = r.replayEpoch ∧
        ((f r).lastSeenSeq = r.lastSeenSeq ∨
          ((f r).lastSeenSeq ≠ r.lastSeenSeq ∧ r.replayEpoch = epoch ∧ epoch ≠ ""))) := by
  obtain ⟨f, hf, hseq⟩ := Tab.record_act hl key hk
  refine ⟨f, hf, ?_⟩
  intro r hr
  rw [(hseq r).1, (hseq r).2]
  cases a with
  | openSession => cases hk
  | close => cases hk
  | touch seq replyEpoch => exact absurd ⟨seq, replyEpoch, rfl⟩ htouch
  | rebuildSession messages replayEpoch historyEpoch =>
    obtain ⟨rfl, hne⟩ := ha
    refine .inl ⟨?_, hne, rfl, rfl⟩
    unfold TabAction.remember
    rw [hl]
    rfl
  | deliver ev =>
    refine .inr ⟨rfl, rfl, ?_⟩
    cases hs : ev.seq with
    | none => exact .inl (TabAction.recordSeq_unsequenced hs _)
    | some seq =>
      rw [TabAction.recordSeq_sequenced hs]
      split
      · rename_i hlt
        exact .inr ⟨by omega, ha seq r (by rw [hl]; rfl) hs hr hlt⟩
      · exact .inl rfl
  | _ => exact .inr ⟨rfl, rfl, .inl rfl⟩

theorem Tab.Tracked.act {t : Tab} {taken epoch : String} {rebuilt : Option String} (h : t.Tracked taken rebuilt)
    (key : String) {a : TabAction} (ha : a.Tracks t epoch) :
    (t.act key a).1.Tracked
      (if (((t.act key a).1.record.map (·.lastSeenSeq)) = (t.record.map (·.lastSeenSeq))) then taken else epoch)
      (a.remember t epoch rebuilt) := by
  by_cases hk : a.keeps
  · by_cases htouch : ∃ seq replyEpoch, a = .touch seq replyEpoch
    · obtain ⟨seq, replyEpoch, rfl⟩ := htouch
      exact tracked_touch h key ha
    · cases hl : t.live with
      | none =>
        have hrecord : (t.act key a).1.record = t.record := (record_act_closed hl key hk).resolve_right htouch
        have hrebuilt : a.remember t epoch rebuilt = rebuilt := by
          cases a with
          | close => cases hk
          | rebuildSession =>
            unfold TabAction.remember
            rw [hl]
            rfl
          | _ => rfl
        rw [hrebuilt, hrecord, if_pos rfl]
        refine ⟨?_, hrecord ▸ h.pair, hrecord ▸ h.once⟩
        rw [(Tab.act_none hl key hk).1]
        exact nofun
      | some live =>
        obtain ⟨f, hf, hcases⟩ := record_act_open hl key hk htouch ha rebuilt
        exact tracked_open h (by rw [hl]; rfl) hf hcases
  · cases a with
    | openSession reply profile cols historyEpoch =>
      refine ⟨fun _ => rfl, ?_, ?_⟩
      · intro r hr hzero
        cases hr
        exact absurd rfl hzero
      · intro e he
        obtain ⟨hne, r, hr, hre⟩ := h.once e he
        refine ⟨hne, _, rfl, ?_⟩
        unfold openRecord
        rw [hr]
        exact hre
    | close =>
      refine ⟨nofun, nofun, nofun⟩
    | _ => exact absurd rfl hk

/-- Only a touch and a rebuild write the epoch of a record. -/
private theorem epoch_act {t : Tab} {key : String} {a : TabAction} (htouch : ∀ seq replyEpoch, a ≠ .touch seq replyEpoch)
    (hrebuild : ∀ messages replayEpoch historyEpoch, a ≠ .rebuildSession messages replayEpoch historyEpoch)
    {r : SessionRecord} (hr : (t.act key a).1.record = some r) :
    r.replayEpoch = "" ∨ ∃ r', t.record = some r' ∧ r.replayEpoch = r'.replayEpoch := by
  by_cases hk : a.keeps
  · cases hl : t.live with
    | none =>
      rcases record_act_closed hl key hk with hsame | ⟨seq, replyEpoch, rfl⟩
      · exact .inr ⟨r, hsame ▸ hr, rfl⟩
      · exact absurd rfl (htouch _ _)
    | some live =>
      obtain ⟨f, hf, hseq⟩ := Tab.record_act hl key hk
      rw [hf, Option.map_eq_some_iff] at hr
      obtain ⟨r', hr', rfl⟩ := hr
      refine .inr ⟨r', hr', ?_⟩
      rw [(hseq r').2]
      cases a with
      | touch => exact absurd rfl (htouch _ _)
      | rebuildSession => exact absurd rfl (hrebuild _ _ _)
      | _ => rfl
  · cases a with
    | openSession reply profile cols historyEpoch =>
      cases hr
      cases hrecord : t.record with
      | none => exact .inl (by simp [openRecord])
      | some r' => exact .inr ⟨r', rfl, by simp [openRecord]⟩
    | close => cases hr
    | _ => exact absurd rfl hk

/-! ### Every step -/

namespace World

/-- The invariant of the runs: the tabs are tracked, and a gap that is being filled is one of this epoch. -/
structure Following (w : World) : Prop where
  tabs : ∀ key, (w.sys.core.tab key).Tracked (w.taken key) (w.rebuilt key)
  filling : ∀ key, w.sys.supervisor.filling w.sys.freshEpoch = some key → ∀ r, w.sys.core.registry.get key = some r →
    r.replayEpoch = "" ∨ r.replayEpoch = w.sys.freshEpoch
  reply : ∀ epoch, w.sys.supervisor.replyEpoch = some epoch → epoch = w.sys.freshEpoch ∧ w.sys.freshEpoch ≠ ""

/-- A step of the supervisor that runs no lock section. -/
private theorem following_quiet {w : World} (h : w.Following) (i : Input) {supervisor : Supervisor} {epoch : String}
    (hfilling : ∀ key, supervisor.filling epoch = some key → ∀ r, w.sys.core.registry.get key = some r →
      r.replayEpoch = "" ∨ r.replayEpoch = epoch)
    (hreply : ∀ e, supervisor.replyEpoch = some e → e = epoch ∧ epoch ≠ "") :
    (w.after i none supervisor epoch).Following :=
  ⟨h.tabs, hfilling, hreply⟩

/-- A step that runs a lock section. -/
private theorem following_act {w : World} (h : w.Following) (i : Input) {a : Action} {supervisor : Supervisor}
    (htracks : ∀ key b, w.sys.core.onTab key a = some b → b.Tracks (w.sys.core.tab key) w.sys.freshEpoch)
    (hfilling : ∀ key, supervisor.filling w.sys.freshEpoch = some key →
      (∀ r, w.sys.core.registry.get key = some r → r.replayEpoch = "" ∨ r.replayEpoch = w.sys.freshEpoch) ∧
        (∀ seq epoch, a ≠ .touch key seq epoch) ∧ ∀ messages epoch, a ≠ .rebuildSession key messages epoch)
    (hreply : ∀ e, supervisor.replyEpoch = some e → e = w.sys.freshEpoch ∧ w.sys.freshEpoch ≠ "") :
    (w.after i (some a) supervisor w.sys.freshEpoch).Following := by
  refine ⟨?_, ?_, hreply⟩
  · intro key
    change ((w.sys.core.act a).1.tab key).Tracked (w.take a key) (w.remember a key)
    unfold take remember
    rw [CoreState.tab_act]
    cases hon : w.sys.core.onTab key a with
    | none =>
      unfold Tab.actOption
      rw [if_pos rfl]
      exact h.tabs key
    | some b => exact (h.tabs key).act key (htracks key b hon)
  · intro key hkey r hr
    obtain ⟨hbefore, htouch, hrebuild⟩ := hfilling key hkey
    change ((w.sys.core.act a).1.tab key).record = some r at hr
    rw [CoreState.tab_act] at hr
    cases hon : w.sys.core.onTab key a with
    | none =>
      rw [hon] at hr
      exact hbefore r hr
    | some b =>
      rw [hon] at hr
      have hepoch : r.replayEpoch = "" ∨ ∃ r', (w.sys.core.tab key).record = some r' ∧
          r.replayEpoch = r'.replayEpoch := by
        refine epoch_act ?_ ?_ hr
        · rintro seq epoch rfl
          exact htouch seq epoch (CoreState.onTab_touch hon)
        · rintro messages epoch historyEpoch rfl
          exact hrebuild messages epoch (CoreState.onTab_rebuild hon)
      rcases hepoch with hempty | ⟨r', hr', heq⟩
      · exact .inl hempty
      · rw [heq]
        exact hbefore r' hr'

/-- A step of the supervisor that runs no lock section, behind which no gap is being filled. -/
private theorem following_idle {w : World} (h : w.Following) (i : Input) {supervisor : Supervisor} {epoch : String}
    (hfilling : supervisor.filling epoch = none) (hreply : supervisor.replyEpoch = none) :
    (w.after i none supervisor epoch).Following := by
  refine following_quiet h i ?_ ?_
  · intro key hkey
    rw [hfilling] at hkey
    cases hkey
  · intro e he
    rw [hreply] at he
    cases he

/-- A lock section behind which no gap is being filled. -/
private theorem following_done {w : World} (h : w.Following) (i : Input) {a : Action} {supervisor : Supervisor}
    (htracks : ∀ key b, w.sys.core.onTab key a = some b → b.Tracks (w.sys.core.tab key) w.sys.freshEpoch)
    (hfilling : supervisor.filling w.sys.freshEpoch = none) (hreply : supervisor.replyEpoch = none) :
    (w.after i (some a) supervisor w.sys.freshEpoch).Following := by
  refine following_act h i htracks ?_ ?_
  · intro key hkey
    rw [hfilling] at hkey
    cases hkey
  · intro e he
    rw [hreply] at he
    cases he

/-- A lock section that delivers, touches and rebuilds nothing. -/
private theorem following_other {w : World} (h : w.Following) (i : Input) {a : Action} {supervisor : Supervisor}
    (hd : ∀ ev, a ≠ .deliver ev) (ht : ∀ key seq epoch, a ≠ .touch key seq epoch)
    (hr : ∀ key messages epoch, a ≠ .rebuildSession key messages epoch)
    (hfilling : ∀ key, supervisor.filling w.sys.freshEpoch = some key →
      w.sys.supervisor.filling w.sys.freshEpoch = some key)
    (hreply : ∀ e, supervisor.replyEpoch = some e → w.sys.supervisor.replyEpoch = some e) :
    (w.after i (some a) supervisor w.sys.freshEpoch).Following := by
  refine following_act h i (fun key b hon => tracks_of_other hon hd ht hr) ?_ fun e he => h.reply e (hreply e he)
  intro key hkey
  exact ⟨h.filling key (hfilling key hkey), ht key, hr key⟩

/-- The local steps of the supervisor. -/
private theorem following_advance {w : World} (h : w.Following) (i : Input) {a : Option Action}
    {supervisor : Supervisor} (hadvances : w.sys.supervisor.Advances w.sys.core w.sys.freshEpoch a supervisor)
    (htracks : ∀ ev, a = some (.deliver ev) →
      ∀ key seq r, w.sys.core.resolve ev.sessionId = some key → key ∈ w.sys.core.sessions → ev.seq = some seq →
        w.sys.core.registry.get key = some r → r.lastSeenSeq < seq →
          r.replayEpoch = w.sys.freshEpoch ∧ w.sys.freshEpoch ≠ "") :
    (w.after i a supervisor w.sys.freshEpoch).Following := by
  have hfilling := h.filling
  have hreply := h.reply
  generalize hsup : w.sys.supervisor = before at hadvances hfilling hreply
  cases hadvances with
  | @resume key record rest hrecord =>
    refine following_quiet h i ?_ (by rintro _ ⟨⟩)
    intro key' hkey r hr
    simp only [Supervisor.filling, Option.ite_none_right_eq_some, Option.some.injEq] at hkey
    obtain ⟨hepoch, rfl⟩ := hkey
    have heq : record = r := Option.some_inj.1 (hrecord.symm.trans hr)
    exact heq ▸ hepoch
  | repoint =>
    refine following_other h i (by simp) (by simp) (by simp) ?_ (by rintro _ ⟨⟩)
    intro key' hkey
    rw [hsup]
    exact hkey
  -- a rebuild stores the epoch of the reply, and the gateway sends the one of the connection
  | @rebuild key record reply replay rest hrebuilds =>
    obtain ⟨heq, hne⟩ := hreply replay.epoch rfl
    refine following_done h i ?_ rfl rfl
    intro key' b hon
    cases b with
    | rebuildSession messages replayEpoch historyEpoch =>
      have haction := CoreState.onTab_rebuild hon
      rw [heq, if_neg hne] at haction
      cases haction
      exact ⟨rfl, hne⟩
    | deliver ev =>
      simp only [CoreState.onTab, Option.ite_none_right_eq_some] at hon
      cases hon.2
    | touch seq replyEpoch => cases CoreState.onTab_touch hon
    | _ => trivial
  -- the record carried the epoch of the connection or none, so the gap may be filled under it
  | @fill key record reply replay rest hfills =>
    refine following_quiet h i ?_ hreply
    intro key' hkey
    refine hfilling key' ?_
    change (if record.replayEpoch = "" ∨ record.replayEpoch = w.sys.freshEpoch then some key else none) = some key'
    rw [if_pos (epoch_of_fill hfills)]
    exact hkey
  | @replay key ev events replay rest =>
    refine following_act h i (tracks_deliver (htracks _ rfl)) ?_ hreply
    intro key' hkey
    exact ⟨hfilling key' hkey, by simp, by simp⟩
  | @touch key replay rest =>
    -- the watermark moves under the epoch of the reply, which is the one of the connection
    refine following_done h i ?_ rfl rfl
    intro key' b hon
    simp only [CoreState.onTab, Option.ite_none_right_eq_some, Option.some.injEq] at hon
    obtain ⟨rfl, rfl⟩ := hon
    exact ⟨(hreply replay.epoch rfl).1, (hreply replay.epoch rfl).2, hfilling key rfl⟩
  | card => exact following_done h i (fun key b hon => tracks_of_other hon (by simp) (by simp) (by simp)) rfl rfl
  | deliver => exact following_done h i (tracks_deliver (htracks _ rfl)) rfl rfl
  | _ => exact following_idle h i rfl rfl

/-- Every step that meets the condition keeps the invariant. -/
theorem Following.step {w w' : World} {i : Input} (h : w.Following) (ht : w.Tracks i) (hs : w.step i = some w') :
    w'.Following := by
  obtain ⟨a, supervisor, epoch, hnext, rfl⟩ := step_eq hs
  obtain ⟨hdeliver, hreply⟩ := ht
  have htracks : ∀ ev, a = some (.deliver ev) → ∀ key seq r, w.sys.core.resolve ev.sessionId = some key →
      key ∈ w.sys.core.sessions → ev.seq = some seq → w.sys.core.registry.get key = some r → r.lastSeenSeq < seq →
        r.replayEpoch = w.sys.freshEpoch ∧ w.sys.freshEpoch ≠ "" := by
    rintro ev rfl
    exact hdeliver ev supervisor epoch hnext
  have hsteps := Sys.steps_of_next hnext
  have hfilling := h.filling
  generalize i.label = label at hreply hsteps
  cases hsteps with
  | @live ev hsup => exact following_done h i (tracks_deliver (htracks ev rfl)) rfl rfl
  | resumed hsup =>
    rw [hsup] at hfilling
    exact following_quiet h i hfilling (by rintro _ ⟨⟩)
  | answered hsup =>
    rw [hsup] at hfilling
    refine following_quiet h i hfilling ?_
    intro e he
    cases he
    exact hreply _ _ _ _ _ rfl hsup
  | advance hadvances => exact following_advance h i hadvances htracks
  | @task a htask =>
    cases a with
    | deliver ev =>
      refine following_act h i (tracks_deliver (htracks ev rfl)) ?_ h.reply
      intro key hkey
      exact ⟨h.filling key hkey, by simp, by simp⟩
    | rebuildSession => cases htask
    | touch => cases htask
    | _ => exact following_other h i (by simp) (by simp) (by simp) (fun _ hkey => hkey) fun _ he => he
  | _ => exact following_idle h i rfl rfl

/-- In every run in which the events that move a watermark find the epoch of the connection in the record, starting
from records whose watermarks carry an epoch, the epochs are tracked in every state. -/
theorem epoch_tracked (registry : SessionRegistry) (inputs : List Input) (w : World)
    (hregistry : ∀ key r, registry.get key = some r → r.lastSeenSeq ≠ 0 → r.replayEpoch ≠ "")
    (hrun : Run.exec step (new registry) inputs = some w)
    (hinputs : Run.Meets step Tracks (new registry) inputs) : w.EpochTracked := by
  have hw : w.Following := by
    refine Run.exec_invariant step (fun w i w' h hok hs => h.step hok hs) ?_ hinputs hrun
    refine ⟨?_, nofun, nofun⟩
    intro key
    refine ⟨nofun, ?_, nofun⟩
    intro r hr hzero
    have hrecord : registry.get key = some r := hr
    refine ⟨?_, hregistry key r hr hzero⟩
    change _ = ((registry.get key).map (·.replayEpoch)).getD ""
    rw [hrecord]
    rfl
  refine ⟨fun key r hr => (hw.tabs key).pair r hr, ?_, ?_⟩
  · intro key rest r replay _ hr hzero hne
    obtain ⟨htaken, hnonempty⟩ := (hw.tabs key).pair r hr hzero
    unfold rebuilds
    simp only [Bool.or_eq_true, Bool.and_eq_true, bne_iff_ne]
    exact .inl (.inr ⟨hnonempty, htaken ▸ hne⟩)
  · intro key rest r replay _ hr hrebuilt htrunc hepoch
    obtain ⟨-, r', hr', hre⟩ := (hw.tabs key).once _ hrebuilt
    have heq : r = r' := Option.some_inj.1 (hr.symm.trans hr')
    subst heq
    unfold rebuilds
    rw [htrunc, hre]
    rcases hepoch with hempty | heq
    · simp [hempty]
    · simp [heq]

end World

end

/-! ### A new session -/

section

attribute [local instance] Serializer.compact

private def ready (seq : Int) : EventParams :=
  ⟨"status.update", "live", some seq, .object [("kind", .string "status"), ("text", .string "ready")]⟩

private def openNew : Input := ⟨.task (.openSession (.created ⟨"live", "chat", ""⟩) none 80), {}⟩

/-- A record on disk with the epoch of the gateway; its resume fails, and the chat is opened again. -/
private def onDisk : SessionRegistry := { sessions := [⟨"chat", 3, "e1", 80, "", ""⟩] }

private def reopened : List Input :=
  [⟨.connected "e1", {}⟩, ⟨.advance, {}⟩, ⟨.resumeReply none, {}⟩, ⟨.advance, {}⟩, ⟨.readKeys [], {}⟩, ⟨.advance, {}⟩,
    openNew, ⟨.live (ready 1), {}⟩, ⟨.connected "e2", {}⟩]

/-- The worlds before the chat is opened. -/
private def atRest (supervisor : Supervisor) (freshEpoch : String) : World :=
  { World.new onDisk with sys := ⟨.new onDisk, supervisor, freshEpoch⟩ }

private theorem tracks_quiet {w : World} {label : Label} {supervisor : Supervisor} {epoch : String}
    (h : w.sys.next label = some (none, supervisor, epoch)) (hl : ∀ replay, label ≠ .sinceReply replay) :
    w.Tracks ⟨label, {}⟩ := by
  refine ⟨?_, fun replay _ _ _ _ hreply => absurd hreply (hl _)⟩
  intro ev supervisor' epoch' hnext
  rw [h] at hnext
  cases hnext

/-- The operation of a task is no event. -/
private theorem tracks_task {w : World} {a : Action}
    (hnext : w.sys.next (.task a) = some (some a, w.sys.supervisor, w.sys.freshEpoch)) (ha : ∀ ev, a ≠ .deliver ev) :
    w.Tracks ⟨.task a, {}⟩ := by
  refine ⟨?_, by rintro replay key record reply rest ⟨⟩⟩
  intro ev supervisor epoch hev
  rw [hnext, Option.some_inj, Prod.mk.injEq, Option.some_inj] at hev
  exact absurd hev.1 (ha ev)

theorem epoch_tracked_reopened :
    ∃ w, Run.exec World.step (World.new onDisk) reopened = some w ∧ w.EpochTracked := by
  refine ⟨_, rfl, World.epoch_tracked onDisk reopened _ ?_ rfl ?_⟩
  · intro key r hr _
    have hmem := List.mem_of_find?_eq_some hr
    rw [show onDisk.sessions = [⟨"chat", 3, "e1", 80, "", ""⟩] from rfl, List.mem_singleton] at hmem
    subst hmem
    decide
  · have hconnected : World.step (World.new onDisk) ⟨.connected "e1", {}⟩ =
        some (atRest (.resumeNext ["chat"]) "e1") := rfl
    have hresuming : World.step (atRest (.resumeNext ["chat"]) "e1") ⟨.advance, {}⟩ =
        some (atRest (.resuming "chat" ⟨"chat", 3, "e1", 80, "", ""⟩ []) "e1") := rfl
    have hfailed : World.step (atRest (.resuming "chat" ⟨"chat", 3, "e1", 80, "", ""⟩ []) "e1")
        ⟨.resumeReply none, {}⟩ = some (atRest (.resumeNext []) "e1") := rfl
    have hkeys : World.step (atRest (.resumeNext []) "e1") ⟨.advance, {}⟩ = some (atRest .reemitKeys "e1") := rfl
    have hread : World.step (atRest .reemitKeys "e1") ⟨.readKeys [], {}⟩ = some (atRest (.reemitNext []) "e1") := rfl
    have hidle : World.step (atRest (.reemitNext []) "e1") ⟨.advance, {}⟩ = some (atRest .idle "e1") := rfl
    refine .cons _ hconnected (tracks_quiet rfl (by simp)) (.cons _ hresuming (tracks_quiet rfl (by simp))
      (.cons _ hfailed (tracks_quiet rfl (by simp)) (.cons _ hkeys (tracks_quiet rfl (by simp))
      (.cons _ hread (tracks_quiet rfl (by simp)) (.cons _ hidle (tracks_quiet rfl (by simp))
      (.cons _ rfl (tracks_task rfl (by simp)) (.cons _ rfl ⟨?_, nofun⟩
      (.cons _ rfl (tracks_quiet rfl (by simp)) trivial))))))))
    intro ev supervisor epoch hnext key seq r hkey _ _ hr _
    cases hnext
    have hchat : key = "chat" := Option.some_inj.1 (hkey.symm.trans (by rfl))
    subst hchat
    cases hr
    exact ⟨by decide, by decide⟩

/-- The first event of a new session moves the watermark next to an empty epoch, and when the gateway is restarted,
with events counted from 1 again, the session is not rebuilt. -/
theorem new_session_untracked : ∃ w r, Run.exec World.step (World.new {})
      [⟨.connected "e1", {}⟩, ⟨.advance, {}⟩, ⟨.readKeys [], {}⟩, ⟨.advance, {}⟩, openNew, ⟨.live (ready 1), {}⟩,
        ⟨.connected "e2", {}⟩] = some w ∧
    w.sys.supervisor = .resumeNext ["chat"] ∧ w.sys.freshEpoch = "e2" ∧ w.taken "chat" = "e1" ∧
    w.sys.core.registry.get "chat" = some r ∧ r.lastSeenSeq = 1 ∧ r.replayEpoch = "" ∧
    rebuilds "e2" r ⟨[], 1, false, "e2"⟩ = false ∧ ¬ w.EpochTracked := by
  refine ⟨_, ⟨"chat", 1, "", 80, "", ""⟩, rfl, rfl, rfl, by decide, rfl, rfl, rfl, by decide, ?_⟩
  intro h
  exact absurd (h.pair "chat" _ rfl (by decide)).2 (by decide)

end

end Hermo
