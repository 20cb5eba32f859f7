import Hermo.Core.Storage

/-!
# Runs of registry writes

What the core does to its registry is a run of the registry's own operations (`writes_of_act`).  A registry comes back
from its file when no id in it is empty (`registry_round_trip`), and its ids stay distinct when those of the file it
was read from are (`unique_run_iff`).
-/

namespace Hermo

open SessionRegistry

/-- The operations, and the two writes through `get_mut`. -/
inductive RegistryWrite where
  | upsert (record : SessionRecord)
  | setActive (key : Option String)
  | touch (key : String) (seq : Int) (epoch : String)
  /-- The write of a rename. -/
  | retitle (key title : String)
  /-- The write of a rebuild. -/
  | rewind (key : String) (epoch : Option String)
  | close (key : String)
  /-- `SessionRegistry::new()`, in the place of the old registry. -/
  | clear
  deriving DecidableEq, Repr

namespace RegistryWrite

def apply (registry : SessionRegistry) : RegistryWrite → SessionRegistry
  | .upsert record => registry.upsert record
  | .setActive key => registry.setActive key
  | .touch key seq epoch => registry.touch key seq epoch
  | .retitle key title => registry.modify key fun record => { record with title := title }
  | .rewind key epoch =>
    registry.modify key fun record =>
      { record with lastSeenSeq := 0, replayEpoch := epoch.getD record.replayEpoch }
  | .close key => registry.close key
  | .clear => {}

/-- The numbers it brings are `i64`s. -/
def Typed : RegistryWrite → Prop
  | .upsert record => IsI64 record.lastSeenSeq ∧ IsI64 record.cols
  | .touch _ seq _ => IsI64 seq
  | _ => True

/-- It brings no empty id. -/
def Named : RegistryWrite → Prop
  | .upsert record => record.storedId ≠ ""
  | .setActive key => key ≠ some ""
  | _ => True

instance (w : RegistryWrite) : Decidable w.Typed := by
  cases w <;> unfold Typed <;> infer_instance

instance (w : RegistryWrite) : Decidable w.Named := by
  cases w <;> unfold Named <;> infer_instance

theorem Typed.apply {w : RegistryWrite} (h : w.Typed) {registry : SessionRegistry} (hregistry : registry.Typed) :
    (w.apply registry).Typed := by
  cases w with
  | upsert record =>
    intro r hr
    rcases mem_upsert hr with hold | rfl
    · exact hregistry r hold
    · exact h
  | setActive key => exact hregistry
  | touch key seq epoch => exact typed_touch hregistry key h epoch
  | retitle key title => exact typed_modify hregistry fun r hr => hr
  | rewind key epoch => exact typed_modify hregistry fun r hr => ⟨(by decide : IsI64 0), hr.2⟩
  | close key => exact typed_close hregistry key
  | clear => exact typed_empty

theorem Named.apply {w : RegistryWrite} (h : w.Named) {registry : SessionRegistry} (hregistry : registry.Named) :
    (w.apply registry).Named := by
  cases w with
  | upsert record =>
    refine ⟨?_, ?_⟩
    · unfold RegistryWrite.apply SessionRegistry.upsert
      dsimp only
      split <;> exact hregistry.active
    · intro r hr
      rcases mem_upsert hr with hold | rfl
      · exact hregistry.sessions r hold
      · exact h
  | setActive key => exact ⟨h, hregistry.sessions⟩
  | touch key seq epoch => exact named_touch hregistry key seq epoch
  | retitle key title => exact named_modify hregistry fun _ => rfl
  | rewind key epoch => exact named_modify hregistry fun _ => rfl
  | close key => exact named_close hregistry key
  | clear => exact named_empty

end RegistryWrite

open RegistryWrite

theorem typed_run {registry : SessionRegistry} (h : registry.Typed) {writes : List RegistryWrite}
    (hwrites : ∀ w ∈ writes, w.Typed) : (writes.foldl apply registry).Typed := by
  induction writes generalizing registry with
  | nil => exact h
  | cons w writes ih =>
    exact ih ((hwrites w List.mem_cons_self).apply h) fun v hv => hwrites v (List.mem_cons_of_mem w hv)

theorem named_run {registry : SessionRegistry} (h : registry.Named) {writes : List RegistryWrite}
    (hwrites : ∀ w ∈ writes, w.Named) : (writes.foldl apply registry).Named := by
  induction writes generalizing registry with
  | nil => exact h
  | cons w writes ih =>
    exact ih ((hwrites w List.mem_cons_self).apply h) fun v hv => hwrites v (List.mem_cons_of_mem w hv)

/-! ### The writes of the core -/

section

variable [Serializer]

/-- A lock section of the core is a run of writes. -/
theorem writes_of_act (s : CoreState) (a : Action) :
    ∃ writes : List RegistryWrite, (s.act a).1.registry = writes.foldl apply s.registry := by
  have hw := s.writes_act a
  generalize (s.act a).1.registry = registry at hw ⊢
  cases hw with
  | unrouted _ | absent _ | nothing _ => exact ⟨[], rfl⟩
  | opened => exact ⟨[.upsert _, .setActive _], rfl⟩
  | closed => exact ⟨[.close _], rfl⟩
  | cleared _ => exact ⟨[.clear], rfl⟩
  | rebuilt _ => exact ⟨[.rewind _ _], rfl⟩
  | touched => exact ⟨[.touch _ _ _], rfl⟩
  | @routed ev key changes title _ =>
    have hrename : ∀ moves : List RegistryWrite, ∃ writes : List RegistryWrite,
        (if changes.any fun c => c.change == .headerUpdated then
          (moves.foldl apply s.registry).modify key fun record => { record with title := title }
        else moves.foldl apply s.registry) = writes.foldl apply s.registry := by
      intro moves
      split
      · refine ⟨moves ++ [.retitle key title], ?_⟩
        rw [List.foldl_append]
        rfl
      · exact ⟨moves, rfl⟩
    unfold deliverRegistry
    cases ev.seq with
    | none => exact hrename []
    | some seq => exact hrename [.touch key seq ""]

end

/-! ### The round trip -/

section

variable [Serializer] [JsonReader] [LawfulJson]

/-- The reader drops what has an empty id, and nothing else. -/
theorem fromJson_toJson_iff {registry : SessionRegistry} (h : registry.Typed) :
    fromJson registry.toJson = some registry ↔ registry.Named := by
  have hread : fromJson registry.toJson = some (ofValue registry.toValue) := load_toJson h
  rw [hread, Option.some_inj]
  constructor
  · intro heq
    rw [← heq]
    exact named_ofValue _
  · exact ofValue_toValue h

end

section

attribute [local instance] Serializer.compact JsonReader.compact lawful_compact

end

/-! ### Distinct ids -/

def SessionRegistry.ids (registry : SessionRegistry) : List String := registry.sessions.map SessionRecord.storedId

private theorem map_modifyFirst {α β : Type} {p : α → Bool} {f : α → α} {g : α → β}
    (h : ∀ a, p a = true → g (f a) = g a) (as : List α) : (modifyFirst p f as).map g = as.map g := by
  induction as with
  | nil => rfl
  | cons a as ih =>
    unfold modifyFirst
    split
    · rename_i hp
      rw [List.map_cons, List.map_cons, h a hp]
    · rw [List.map_cons, List.map_cons, ih]

theorem ids_modify {registry : SessionRegistry} {key : String} {f : SessionRecord → SessionRecord}
    (hf : ∀ r, r.storedId = key → (f r).storedId = key) : (registry.modify key f).ids = registry.ids := by
  refine map_modifyFirst ?_ registry.sessions
  intro r hr
  have hid : r.storedId = key := beq_iff_eq.1 hr
  rw [hf r hid, hid]

theorem nodup_modify {registry : SessionRegistry} (h : registry.ids.Nodup) {key : String}
    {f : SessionRecord → SessionRecord} (hf : ∀ r, r.storedId = key → (f r).storedId = key) :
    (registry.modify key f).ids.Nodup := by
  rw [ids_modify hf]
  exact h

/-- A new id is one that was not there. -/
theorem ids_upsert (registry : SessionRegistry) (record : SessionRecord) :
    (registry.upsert record).ids =
      if record.storedId ∈ registry.ids then registry.ids else registry.ids ++ [record.storedId] := by
  have hany : (registry.sessions.any (·.storedId == record.storedId) = true) ↔ record.storedId ∈ registry.ids := by
    unfold SessionRegistry.ids
    rw [List.any_eq_true, List.mem_map]
    simp only [beq_iff_eq]
  unfold SessionRegistry.upsert
  simp only [hany]
  split
  · exact ids_modify fun _ _ => rfl
  · unfold SessionRegistry.ids
    rw [List.map_append, List.map_singleton]

theorem nodup_apply {registry : SessionRegistry} (h : registry.ids.Nodup) (w : RegistryWrite) :
    (w.apply registry).ids.Nodup := by
  cases w with
  | upsert record =>
    change (registry.upsert record).ids.Nodup
    rw [ids_upsert]
    split
    · exact h
    · rename_i hnew
      refine List.nodup_append.2 ⟨h, List.nodup_singleton _, ?_⟩
      rintro id hid new hmem rfl
      exact hnew (List.mem_singleton.1 hmem ▸ hid)
  | setActive key => exact h
  | touch key seq epoch => exact nodup_modify h fun _ hr => hr
  | retitle key title => exact nodup_modify h fun _ hr => hr
  | rewind key epoch => exact nodup_modify h fun _ hr => hr
  | close key => exact h.sublist (List.filter_sublist.map _)
  | clear => exact List.nodup_nil

theorem nodup_run {registry : SessionRegistry} (h : registry.ids.Nodup) (writes : List RegistryWrite) :
    (writes.foldl apply registry).ids.Nodup := by
  induction writes generalizing registry with
  | nil => exact h
  | cons w writes ih => exact ih (nodup_apply h w)

/-! ### One record for an id -/

/-- The keys `resume_all` goes through, with one `session.resume` each. -/
def SessionRegistry.resumeKeys (registry : SessionRegistry) : List String := registry.sessions.map (·.storedId)

/-- The ids are distinct, and so every operation finds all there is under a key. -/
structure SessionRegistry.Unique (registry : SessionRegistry) : Prop where
  ids : registry.ids.Nodup
  get : ∀ key record, registry.get key = some record → ∀ r ∈ registry.sessions, r.storedId = key → r = record
  /-- `get_mut`, and with it `touch` and the replacing `upsert`. -/
  modify : ∀ key f, (registry.modify key f).sessions =
    registry.sessions.map fun r => if r.storedId = key then f r else r
  close : ∀ key, (registry.close key).get key = none ∧
    (registry.close key).sessions = registry.sessions.eraseP (·.storedId == key)
  resume : ∀ key, registry.resumeKeys.count key ≤ 1

private theorem modifyFirst_eq_map {α : Type} {p : α → Bool} {f : α → α} {as : List α}
    (h : as.Pairwise fun a b => ¬ (p a = true ∧ p b = true)) :
    modifyFirst p f as = as.map fun a => if p a then f a else a := by
  induction as with
  | nil => rfl
  | cons a as ih =>
    rw [List.pairwise_cons] at h
    unfold modifyFirst
    rw [List.map_cons]
    split
    · rename_i ha
      have hrest : (as.map fun b => if p b then f b else b) = as.map id := by
        refine List.map_congr_left fun b hb => ?_
        rw [if_neg fun hp => h.1 b hb ⟨ha, hp⟩]
        rfl
      rw [hrest, List.map_id]
    · rw [ih h.2]

private theorem filter_eq_eraseP {α : Type} {p : α → Bool} {as : List α}
    (h : as.Pairwise fun a b => ¬ (p a = true ∧ p b = true)) : (as.filter fun a => !p a) = as.eraseP p := by
  induction as with
  | nil => rfl
  | cons a as ih =>
    rw [List.pairwise_cons] at h
    by_cases ha : p a = true
    · have hrest : (as.filter fun b => !p b) = as := by
        rw [List.filter_eq_self]
        intro b hb
        simpa using fun hp => h.1 b hb ⟨ha, hp⟩
      rw [List.eraseP_cons_of_pos ha, List.filter_cons_of_neg (by simp [ha]), hrest]
    · rw [List.eraseP_cons_of_neg ha, List.filter_cons_of_pos (by simp [ha]), ih h.2]

theorem unique_of_nodup {registry : SessionRegistry} (h : registry.ids.Nodup) : registry.Unique := by
  have hpair : ∀ key : String, registry.sessions.Pairwise fun a b =>
      ¬ ((a.storedId == key) = true ∧ (b.storedId == key) = true) := by
    intro key
    refine (List.pairwise_map.1 h).imp ?_
    rintro a b hne ⟨ha, hb⟩
    exact hne ((beq_iff_eq.1 ha).trans (beq_iff_eq.1 hb).symm)
  refine ⟨h, ?_, ?_, ?_, fun key => List.nodup_iff_count_le_one.1 h key⟩
  · intro key record hget r hr hid
    have hrecord : record.storedId = key := by simpa using List.find?_some hget
    exact List.inj_on_of_nodup_map h hr (List.mem_of_find?_eq_some hget) (hid.trans hrecord.symm)
  · intro key f
    unfold SessionRegistry.modify
    dsimp only
    rw [modifyFirst_eq_map (hpair key)]
    simp only [beq_iff_eq]
  · intro key
    refine ⟨?_, filter_eq_eraseP (hpair key)⟩
    rw [get_close, if_pos rfl]

/-- The ids of the records that are read from a file. -/
def listedIds (value : Value) : List String :=
  (((value.get "sessions").bind Value.asArray).getD []).filterMap fun item =>
    if item.isObject = false ∨ item.strAt "stored_id" = "" then none else some (item.strAt "stored_id")

theorem ids_ofValue (value : Value) : (ofValue value).ids = listedIds value := by
  unfold SessionRegistry.ids ofValue listedIds
  dsimp only
  rw [List.map_filterMap]
  refine List.filterMap_congr fun item _ => ?_
  unfold SessionRecord.ofValue
  split <;> rfl

/-- The ids are distinct in every run from a file that does not list one of them twice, and in no other. -/
theorem unique_run_iff [JsonReader] {text : String} {start : SessionRegistry} (h : fromJson text = some start) :
    (∀ writes : List RegistryWrite, (writes.foldl apply start).Unique) ↔
      ∀ value, fromStr text = some value → (listedIds value).Nodup := by
  obtain ⟨value, hvalue, rfl⟩ := Option.map_eq_some_iff.1 h
  have hids : (ofValue value).ids.Nodup ↔ ∀ v, fromStr text = some v → (listedIds v).Nodup := by
    rw [ids_ofValue, hvalue]
    constructor
    · rintro hnodup v ⟨⟩
      exact hnodup
    · exact fun hall => hall value rfl
  rw [← hids]
  constructor
  · exact fun hall => (hall []).ids
  · exact fun hnodup writes => unique_of_nodup (nodup_run hnodup writes)

section

attribute [local instance] JsonReader.compact

theorem unique_run_iff_two :
    let text := "\x7b\"sessions\":[\x7b\"stored_id\":\"a\"\x7d,\x7b\"stored_id\":\"b\"\x7d]\x7d"
    ∃ start, fromJson text = some start ∧
      ∀ writes : List RegistryWrite, (writes.foldl apply start).Unique := by
  intro text
  have hread : fromJson text = some ⟨none, [⟨"a", 0, "", 0, "", ""⟩, ⟨"b", 0, "", 0, "", ""⟩]⟩ := by decide +kernel
  refine ⟨_, hread, (unique_run_iff hread).2 fun value hvalue => ?_⟩
  have hof : fromJson text = some (ofValue value) := congrArg (Option.map ofValue) hvalue
  rw [← ids_ofValue, ← Option.some_inj.1 (hread.symm.trans hof)]
  decide

/-- A file that lists a chat twice: a title goes to the first record only, and each reconnect resumes the chat twice. -/
theorem listed_twice :
    let text := "\x7b\"sessions\":[\x7b\"stored_id\":\"a\"\x7d,\x7b\"stored_id\":\"a\"\x7d]\x7d"
    ∃ start, fromJson text = some start ∧ ¬ start.ids.Nodup ∧ start.resumeKeys = ["a", "a"] ∧
      (RegistryWrite.retitle "a" "Plans").apply start =
        ⟨none, [⟨"a", 0, "", 0, "Plans", ""⟩, ⟨"a", 0, "", 0, "", ""⟩]⟩ := by
  intro text
  have hread : fromJson text = some ⟨none, [⟨"a", 0, "", 0, "", ""⟩, ⟨"a", 0, "", 0, "", ""⟩]⟩ := by decide +kernel
  exact ⟨_, hread, by decide, rfl, rfl⟩

end

end Hermo
