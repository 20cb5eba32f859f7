import Hermo.Core.TabOps

/-!
# What a transcript is made of

A `Ledger` is the history a session was last opened or rebuilt from, how much of the event log of the gateway that
history reflects, and the reducer operations since, each with the replay epoch of the connection it ran under.  It is
bookkeeping next to the core, updated by `Ledger.note` from the tab actions the core really runs: `Ledger.Explains`
says that the reducer of the session is exactly what the ledger says, and is kept by every action.  `has n` means
that event `n` is in the history or was applied.
-/

namespace Hermo

/-- The event log of the gateway: type and payload of event `n` of a session in a replay epoch, from 1 on. -/
abbrev EventLog := (epoch key : String) → Nat → String × Value

/-- `ev` is event `n` of the session. -/
def EventLog.Records (log : EventLog) (epoch key : String) (n : Nat) (ev : EventParams) : Prop :=
  1 ≤ n ∧ ev.seq = some (n : Int) ∧ (ev.eventType, ev.payload) = log epoch key n

/-- How much of the log a history reflects: the first `upTo` events of an epoch. -/
structure Snapshot where
  epoch : String := ""
  upTo : Nat := 0

structure Ledger where
  messages : List Value := []
  snapshot : Snapshot := {}
  ops : List (String × Op) := []

/-- The event a tab action delivers. -/
def TabAction.event : TabAction → Option EventParams
  | .deliver ev => some ev
  | _ => none

namespace Ledger

/-- The events that were applied under an epoch since the history was installed. -/
def applied (l : Ledger) (epoch : String) : List EventParams :=
  l.ops.filterMap fun
    | (e, .apply ev) => if e = epoch then some ev else none
    | _ => none

/-- Event `n` is contained in the history or was applied since. -/
def has (l : Ledger) (log : EventLog) (epoch key : String) (n : Nat) : Prop :=
  n = 0 ∨ (l.snapshot.epoch = epoch ∧ n ≤ l.snapshot.upTo) ∨ ∃ ev ∈ l.applied epoch, log.Records epoch key n ev

/-- No event up to `m` is missing. -/
def covers (l : Ledger) (log : EventLog) (epoch key : String) (m : Int) : Prop :=
  ∀ n : Nat, (n : Int) ≤ m → l.has log epoch key n

/-- Bookkeeping of one tab action under an epoch; `snapshot` belongs to the history it installs, if it installs one. -/
def note (l : Ledger) (t : Tab) (key epoch : String) (snapshot : Snapshot) : TabAction → Ledger
  | .openSession reply _ _ _ => ⟨reply.messages, snapshot, []⟩
  | .close => {}
  | .rebuildSession messages _ _ => if t.live.isSome then ⟨messages, snapshot, []⟩ else l
  | a =>
    match t.live.bind fun live => t.op live key a with
    | none => l
    | some o => { l with ops := l.ops ++ [(epoch, o)] }

def noteOption (l : Ledger) (t : Tab) (key epoch : String) (snapshot : Snapshot) : Option TabAction → Ledger
  | none => l
  | some a => l.note t key epoch snapshot a

theorem covers_of_le_zero (l : Ledger) (log : EventLog) (epoch key : String) {m : Int} (h : m ≤ 0) :
    l.covers log epoch key m := by
  intro n hn
  exact .inl (by omega)

theorem covers.mono {l : Ledger} {log : EventLog} {epoch key : String} {m m' : Int}
    (h : l.covers log epoch key m) (hle : m' ≤ m) : l.covers log epoch key m' :=
  fun n hn => h n (Int.le_trans hn hle)

private theorem note_keeps (t : Tab) (l : Ledger) (key epoch : String) (snapshot : Snapshot) {a : TabAction}
    (hk : a.keeps) (hr : ∀ messages replayEpoch historyEpoch, a ≠ .rebuildSession messages replayEpoch historyEpoch) :
    l.note t key epoch snapshot a =
      match t.live.bind fun live => t.op live key a with
      | none => l
      | some o => { l with ops := l.ops ++ [(epoch, o)] } := by
  cases a with
  | openSession => cases hk
  | close => cases hk
  | rebuildSession => exact absurd rfl (hr _ _ _)
  | _ => rfl

/-- A delivered event is applied. -/
theorem note_deliver {t : Tab} {live : LiveSession} (h : t.live = some live) (l : Ledger) (key epoch : String)
    (snapshot : Snapshot) (ev : EventParams) :
    l.note t key epoch snapshot (.deliver ev) = { l with ops := l.ops ++ [(epoch, .apply ev)] } := by
  unfold note
  rw [h]
  rfl

/-- Only deliveries apply events. -/
private theorem op_ne_apply {t : Tab} {live : LiveSession} {key : String} {a : TabAction} {o : Op}
    (h : t.op live key a = some o) (hd : a.event = none) (ev : EventParams) : o ≠ .apply ev := by
  rintro rfl
  cases a <;> simp only [Tab.op, reduceCtorEq] at h
  case deliver => cases hd
  case reemitCard => split at h <;> simp at h
  case appendUserRow => split at h <;> simp at h
  all_goals simp at h

/-- The events that are applied after an action that installs no history. -/
theorem applied_note {t : Tab} {live : LiveSession} (hl : t.live = some live) (l : Ledger) (key epoch : String)
    (snapshot : Snapshot) {a : TabAction} (hk : a.keeps)
    (hr : ∀ messages replayEpoch historyEpoch, a ≠ .rebuildSession messages replayEpoch historyEpoch) :
    (l.note t key epoch snapshot a).applied epoch = l.applied epoch ++ a.event.toList := by
  cases hd : a.event with
  | some ev =>
    cases a with
    | deliver ev' =>
      cases hd
      rw [note_deliver hl]
      unfold applied
      rw [List.filterMap_append]
      simp
    | _ => cases hd
  | none =>
    rw [note_keeps t l key epoch snapshot hk hr, hl, Option.bind_some]
    cases hop : t.op live key a with
    | none => simp
    | some o =>
      have hne := op_ne_apply hop hd
      unfold applied
      rw [List.filterMap_append]
      cases o with
      | apply ev => exact absurd rfl (hne ev)
      | _ => simp

/-- What is applied stays applied until another history is installed. -/
theorem note_mono (t : Tab) (l : Ledger) (key epoch : String) (snapshot : Snapshot) {a : TabAction} (hk : a.keeps)
    (hr : ∀ messages replayEpoch historyEpoch, a ≠ .rebuildSession messages replayEpoch historyEpoch) :
    (l.note t key epoch snapshot a).snapshot = l.snapshot ∧
      ∃ ops, (l.note t key epoch snapshot a).ops = l.ops ++ ops := by
  rw [note_keeps t l key epoch snapshot hk hr]
  cases t.live.bind fun live => t.op live key a with
  | none => exact ⟨rfl, [], (List.append_nil _).symm⟩
  | some o => exact ⟨rfl, [(epoch, o)], rfl⟩

theorem covers.note {l : Ledger} {log : EventLog} {e key : String} {m : Int} (h : l.covers log e key m) (t : Tab)
    (epoch : String) (snapshot : Snapshot) {a : TabAction} (hk : a.keeps)
    (hr : ∀ messages replayEpoch historyEpoch, a ≠ .rebuildSession messages replayEpoch historyEpoch) :
    (l.note t key epoch snapshot a).covers log e key m := by
  obtain ⟨hsnapshot, ops, hops⟩ := note_mono t l key epoch snapshot hk hr
  intro n hn
  rcases h n hn with hzero | hhistory | ⟨ev, hev, hrec⟩
  · exact .inl hzero
  · exact .inr (.inl (hsnapshot ▸ hhistory))
  · refine .inr (.inr ⟨ev, ?_, hrec⟩)
    unfold applied at hev ⊢
    rw [hops, List.filterMap_append]
    exact List.mem_append_left _ hev

/-- The next event closes up to what is there. -/
theorem covers.deliver {l : Ledger} {log : EventLog} {epoch key : String} {n : Nat} {ev : EventParams}
    (h : l.covers log epoch key (n - 1)) (hrec : log.Records epoch key n ev) {t : Tab} {live : LiveSession}
    (hl : t.live = some live) (snapshot : Snapshot) :
    (l.note t key epoch snapshot (.deliver ev)).covers log epoch key n := by
  intro i hi
  by_cases heq : i = n
  · subst heq
    refine .inr (.inr ⟨ev, ?_, hrec⟩)
    rw [note_deliver hl]
    unfold applied
    rw [List.filterMap_append]
    exact List.mem_append_right _ (by simp)
  · have hbefore : (i : Int) ≤ n - 1 := by omega
    exact h.note t epoch snapshot rfl (fun _ _ _ => by simp) i hbefore

variable [Serializer]

/-- The reducer the ledger describes. -/
def reducer (l : Ledger) (key : String) : Reducer :=
  l.ops.foldl (fun r o => (r.perform o.2).1) (Reducer.ingestResumeMessages {} key l.messages).1

/-- The reducer under the key is the one the ledger describes. -/
def Explains (l : Ledger) (t : Tab) (key : String) : Prop := ∀ live, t.live = some live → live.reducer = l.reducer key

private theorem reducer_append (l : Ledger) (key epoch : String) (o : Op) :
    ({ l with ops := l.ops ++ [(epoch, o)] } : Ledger).reducer key = ((l.reducer key).perform o).1 := by
  unfold reducer
  rw [List.foldl_append]
  rfl

/-- The ledger keeps explaining the session. -/
theorem Explains.act {l : Ledger} {t : Tab} {key : String} (h : l.Explains t key) (epoch : String)
    (snapshot : Snapshot) (a : TabAction)
    (ha : ∀ reply profile cols epoch, a = .openSession reply profile cols epoch → reply.key = key) :
    (l.note t key epoch snapshot a).Explains (t.act key a).1 key := by
  intro live' hlive
  by_cases hk : a.keeps
  · cases hl : t.live with
    | none =>
      rw [(Tab.act_none hl key hk).1] at hlive
      cases hlive
    | some live =>
      rw [Tab.live_act hl key hk, Option.some_inj] at hlive
      subst hlive
      dsimp only
      by_cases hr : ∃ messages replayEpoch epoch, a = .rebuildSession messages replayEpoch epoch
      · obtain ⟨messages, replayEpoch, epoch, rfl⟩ := hr
        unfold note
        rw [hl]
        rfl
      -- every other action appends the operation it performs to the ledger
      · push Not at hr
        rw [note_keeps t l key epoch snapshot hk hr, hl, Option.bind_some]
        cases t.op live key a with
        | none => exact h live hl
        | some o =>
          dsimp only
          rw [reducer_append, ← h live hl]
          rfl
  · cases a with
    | openSession reply profile cols epoch =>
      cases hlive
      have hkey := ha reply profile cols epoch rfl
      subst hkey
      exact openReducer_eq reply
    | close => cases hlive
    | _ => exact absurd rfl hk

end Ledger

end Hermo
