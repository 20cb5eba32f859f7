import Mathlib.Data.List.Basic

/-!
# Session registry

The durable list of the open chat tabs (`session_registry.rs`): one record per durable id, in tab order, and the tab
that was last active.  `get` and `modify` (`get_mut` in the source) address the first record with an id; the lemmas
`get_upsert`, `get_modify`, `get_touch` and `get_close` are all that later modules use of the list.
-/

namespace Hermo

/-- One open chat tab, as persisted. -/
structure SessionRecord where
  storedId : String
  /-- Highest seq applied to this session's transcript. -/
  lastSeenSeq : Int
  /-- Server replay epoch the watermark was taken under. -/
  replayEpoch : String
  cols : Int
  title : String
  profileName : String
  deriving DecidableEq, Repr

/-- The profile to forward on `session.resume`; an unknown one is omitted. -/
def SessionRecord.resumeProfile (record : SessionRecord) : Option String :=
  if record.profileName = "" then none else some record.profileName

structure SessionRegistry where
  activeKey : Option String := none
  sessions : List SessionRecord := []
  deriving DecidableEq, Repr

namespace SessionRegistry

/-- Rewrite the first entry that satisfies `p`. -/
def modifyFirst {α : Type} (p : α → Bool) (f : α → α) : List α → List α
  | [] => []
  | a :: as => if p a then f a :: as else a :: modifyFirst p f as

def get (registry : SessionRegistry) (key : String) : Option SessionRecord :=
  registry.sessions.find? (·.storedId == key)

/-- `get_mut` followed by a write. -/
def modify (registry : SessionRegistry) (key : String) (f : SessionRecord → SessionRecord) : SessionRegistry :=
  { registry with sessions := modifyFirst (·.storedId == key) f registry.sessions }

/-- Insert or replace by `storedId`, preserving the position on a replace. -/
def upsert (registry : SessionRegistry) (record : SessionRecord) : SessionRegistry :=
  if registry.sessions.any (·.storedId == record.storedId) then registry.modify record.storedId fun _ => record
  else { registry with sessions := registry.sessions ++ [record] }

/-- Remove the tab with durable id `key`. -/
def close (registry : SessionRegistry) (key : String) : SessionRegistry :=
  { activeKey := if registry.activeKey = some key then none else registry.activeKey
    sessions := registry.sessions.filter (·.storedId != key) }

def setActive (registry : SessionRegistry) (key : Option String) : SessionRegistry :=
  { registry with activeKey := key }

/-- The new watermark and epoch of a touched record: the watermark never goes down, an empty epoch is no epoch. -/
def touchRecord (lastSeenSeq : Int) (replayEpoch : String) (record : SessionRecord) : SessionRecord :=
  { record with
    lastSeenSeq := if record.lastSeenSeq < lastSeenSeq then lastSeenSeq else record.lastSeenSeq
    replayEpoch := if replayEpoch = "" then record.replayEpoch else replayEpoch }

/-- Update watermark and epoch for `key`; nothing happens when it is unknown. -/
def touch (registry : SessionRegistry) (key : String) (lastSeenSeq : Int) (replayEpoch : String) :
    SessionRegistry :=
  registry.modify key (touchRecord lastSeenSeq replayEpoch)

/-! ### Reading a record back -/

private theorem find?_modifyFirst (f : SessionRecord → SessionRecord) (hf : ∀ r, (f r).storedId = r.storedId)
    (key key' : String) (records : List SessionRecord) :
    (modifyFirst (·.storedId == key) f records).find? (·.storedId == key') =
      if key' = key then (records.find? (·.storedId == key')).map f else records.find? (·.storedId == key') := by
  induction records with
  | nil => simp [modifyFirst]
  | cons r records ih =>
    unfold modifyFirst
    by_cases hr : r.storedId = key
    · by_cases hk : key' = key
      · simp [hr, hk, hf]
      · have hne : (key == key') = false := by simpa using Ne.symm hk
        simp [hr, hk, hf, hne]
    · by_cases hk : key' = key
      · subst hk
        simpa [hr, List.find?_cons] using ih
      · by_cases hr' : r.storedId = key'
        · simp [hr', hk]
        · simpa [hr, hr', hk, List.find?_cons] using ih

theorem get_modify (registry : SessionRegistry) {f : SessionRecord → SessionRecord}
    (hf : ∀ r, (f r).storedId = r.storedId) (key key' : String) :
    (registry.modify key f).get key' = if key' = key then (registry.get key').map f else registry.get key' :=
  find?_modifyFirst f hf key key' registry.sessions

theorem get_touch (registry : SessionRegistry) (key : String) (seq : Int) (epoch : String) (key' : String) :
    (registry.touch key seq epoch).get key' =
      if key' = key then (registry.get key').map (touchRecord seq epoch) else registry.get key' :=
  get_modify registry (show ∀ r, (touchRecord seq epoch r).storedId = r.storedId from fun _ => rfl) key key'

@[simp] theorem get_setActive (registry : SessionRegistry) (active : Option String) (key : String) :
    (registry.setActive active).get key = registry.get key := rfl

theorem get_upsert (registry : SessionRegistry) (record : SessionRecord) (key : String) :
    (registry.upsert record).get key = if key = record.storedId then some record else registry.get key := by
  unfold upsert
  split
  · rename_i hany
    unfold modify get
    dsimp only
    -- induction on the records: the first one of this key is replaced
    generalize registry.sessions = records at hany ⊢
    induction records with
    | nil => simp at hany
    | cons r records ih =>
      unfold modifyFirst
      by_cases hr : r.storedId = record.storedId
      · by_cases hk : key = record.storedId
        · simp [hr, hk]
        · have hne : (record.storedId == key) = false := by simpa using Ne.symm hk
          simp [hr, hk, hne]
      · simp only [List.any_cons, beq_eq_false_iff_ne.2 hr, Bool.false_or] at hany
        simp only [beq_eq_false_iff_ne.2 hr, Bool.false_eq_true, ↓reduceIte, List.find?_cons]
        by_cases hk : r.storedId = key
        · have hne : key ≠ record.storedId := fun h => hr (hk.trans h)
          simp [hk, hne]
        · simp only [beq_eq_false_iff_ne.2 hk]
          exact ih hany
  · rename_i hany
    have hnone : ∀ r ∈ registry.sessions, (r.storedId == record.storedId) = false := by
      simpa using hany
    unfold get
    dsimp only
    rw [List.find?_append]
    by_cases hk : key = record.storedId
    · subst hk
      rw [List.find?_eq_none.2 (by simpa using hnone)]
      simp
    · have hne : (record.storedId == key) = false := by simpa using Ne.symm hk
      simp [hk, hne]

theorem get_close (registry : SessionRegistry) (key key' : String) :
    (registry.close key).get key' = if key' = key then none else registry.get key' := by
  unfold close get
  dsimp only
  generalize registry.sessions = records
  induction records with
  | nil => simp
  | cons r records ih =>
    by_cases hr : r.storedId = key
    · by_cases hk : key' = key
      · simp [hr, hk]
      · have hne : (key == key') = false := by simpa using Ne.symm hk
        simpa [hr, hk, hne] using ih
    · by_cases hr' : r.storedId = key'
      · have hne : key' ≠ key := fun h => hr (hr'.trans h)
        simp [hr', hne]
      · simpa [hr, hr', List.find?_cons] using ih

/-! ### Writes that change nothing -/

private theorem modifyFirst_eq_self {α : Type} {p : α → Bool} {f : α → α} {as : List α}
    (h : ∀ a, as.find? p = some a → f a = a) : modifyFirst p f as = as := by
  induction as with
  | nil => rfl
  | cons a as ih =>
    unfold modifyFirst
    cases hp : p a with
    | true => simp only [↓reduceIte, h a (by simp [hp])]
    | false =>
      simp only [Bool.false_eq_true, ↓reduceIte, List.cons.injEq, true_and]
      exact ih fun b hb => h b (by simpa [hp] using hb)

theorem modify_eq_self {registry : SessionRegistry} {key : String} {f : SessionRecord → SessionRecord}
    (h : ∀ r, registry.get key = some r → f r = r) : registry.modify key f = registry :=
  congrArg (SessionRegistry.mk registry.activeKey) (modifyFirst_eq_self h)

theorem touch_eq_self {registry : SessionRegistry} {key : String} {seq : Int} {epoch : String}
    (h : ∀ r, registry.get key = some r → seq ≤ r.lastSeenSeq ∧ (epoch = "" ∨ epoch = r.replayEpoch)) :
    registry.touch key seq epoch = registry := by
  refine modify_eq_self ?_
  intro r hr
  obtain ⟨hseq, hepoch⟩ := h r hr
  unfold touchRecord
  rw [if_neg (Int.not_lt.2 hseq)]
  rcases hepoch with rfl | rfl
  · rfl
  · rw [ite_self]

theorem upsert_eq_self {registry : SessionRegistry} {record : SessionRecord}
    (h : registry.get record.storedId = some record) : registry.upsert record = registry := by
  have hany : registry.sessions.any (·.storedId == record.storedId) = true := by
    rw [List.any_eq_true]
    exact ⟨record, List.mem_of_find?_eq_some h, by simp⟩
  unfold upsert
  rw [if_pos hany]
  refine modify_eq_self ?_
  intro r hr
  rw [h] at hr
  exact Option.some.inj hr

theorem close_eq_self {registry : SessionRegistry} {key : String} (h : registry.get key = none)
    (hactive : registry.activeKey ≠ some key) : registry.close key = registry := by
  have hfilter : registry.sessions.filter (·.storedId != key) = registry.sessions := by
    rw [List.filter_eq_self]
    intro r hr
    simpa using List.find?_eq_none.1 h r hr
  unfold close
  rw [hfilter, if_neg hactive]

end SessionRegistry

end Hermo
