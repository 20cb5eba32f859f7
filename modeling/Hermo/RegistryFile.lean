import Hermo.JsonText
import Hermo.SessionRegistry

/-!
# The registry as a file

`to_json` and `from_json` of the registry, and `load_registry`, which takes a missing file for an empty registry.  The
parse is tolerant: a missing or mistyped field takes a default, a record without its durable id is skipped, and only a
text that is not JSON is an error.  A registry comes back as it was written when its numbers are `i64`s (`Typed`) and
no id in it is empty (`Named`).
-/

namespace Hermo

/-- A number of the source's type `i64`. -/
def IsI64 (n : Int) : Prop := i64Min ≤ n ∧ n ≤ i64Max

instance (n : Int) : Decidable (IsI64 n) := inferInstanceAs (Decidable (_ ∧ _))

def SessionRecord.toValue (record : SessionRecord) : Value := .object
  [("stored_id", .string record.storedId), ("last_seen_seq", .number (.int record.lastSeenSeq)),
    ("replay_epoch", .string record.replayEpoch), ("cols", .number (.int record.cols)),
    ("title", .string record.title), ("profile_name", .string record.profileName)]

/-- One entry of the parsed list. -/
def SessionRecord.ofValue (item : Value) : Option SessionRecord :=
  if item.isObject = false ∨ item.strAt "stored_id" = "" then none
  else some
    { storedId := item.strAt "stored_id"
      lastSeenSeq := item.i64At "last_seen_seq"
      replayEpoch := item.strAt "replay_epoch"
      cols := item.i64At "cols"
      title := item.strAt "title"
      profileName := item.strAt "profile_name" }

private theorem i64At_of_get {value : Value} {key : String} {n : Int} (h : value.get key = some (.number (.int n)))
    (hn : IsI64 n) : value.i64At key = n := by
  unfold Value.i64At
  rw [h]
  exact if_pos hn

/-- A record comes back as it was written. -/
theorem SessionRecord.ofValue_toValue {record : SessionRecord}
    (htyped : IsI64 record.lastSeenSeq ∧ IsI64 record.cols) (hname : record.storedId ≠ "") :
    SessionRecord.ofValue record.toValue = some record := by
  have hid : record.toValue.strAt "stored_id" = record.storedId := rfl
  have hseq : record.toValue.i64At "last_seen_seq" = record.lastSeenSeq := i64At_of_get rfl htyped.1
  have hcols : record.toValue.i64At "cols" = record.cols := i64At_of_get rfl htyped.2
  unfold SessionRecord.ofValue
  rw [if_neg, hid, hseq, hcols]
  · rfl
  · rintro (⟨⟨⟩⟩ | hempty)
    exact hname (hid ▸ hempty)

namespace SessionRegistry

def toValue (registry : SessionRegistry) : Value :=
  let sessions := Value.array (registry.sessions.map SessionRecord.toValue)
  match registry.activeKey with
  | some active => .object [("sessions", sessions), ("active", .string active)]
  | none => .object [("sessions", sessions)]

def ofValue (value : Value) : SessionRegistry :=
  let active := value.strAt "active"
  { activeKey := if active = "" then none else some active
    sessions := (((value.get "sessions").bind Value.asArray).getD []).filterMap SessionRecord.ofValue }

section

variable [Serializer] [JsonReader]

def toJson (registry : SessionRegistry) : String := toCompactString registry.toValue

/-- `from_json`; `none` is the error of a malformed document. -/
def fromJson (text : String) : Option SessionRegistry := (fromStr text).map ofValue

/-- `load_registry`, of a file that can be read. -/
def load : Option String → Option SessionRegistry
  | none => some {}
  | some text => fromJson text

end

/-! ### What comes back -/

/-- The numbers of every record are `i64`s. -/
def Typed (registry : SessionRegistry) : Prop :=
  ∀ record ∈ registry.sessions, IsI64 record.lastSeenSeq ∧ IsI64 record.cols

/-- No id of the registry is empty. -/
structure Named (registry : SessionRegistry) : Prop where
  active : registry.activeKey ≠ some ""
  sessions : ∀ record ∈ registry.sessions, record.storedId ≠ ""

theorem ofValue_toValue {registry : SessionRegistry} (htyped : registry.Typed) (hnamed : registry.Named) :
    ofValue registry.toValue = registry := by
  have hsessions : (registry.sessions.map SessionRecord.toValue).filterMap SessionRecord.ofValue = registry.sessions := by
    rw [List.filterMap_map]
    refine (List.filterMap_congr ?_).trans List.filterMap_some
    intro record hrecord
    exact SessionRecord.ofValue_toValue (htyped record hrecord) (hnamed.sessions record hrecord)
  obtain ⟨activeKey, sessions⟩ := registry
  cases activeKey with
  | none =>
    unfold ofValue toValue
    exact congrArg (SessionRegistry.mk none) hsessions
  | some active =>
    have hactive : active ≠ "" := fun h => hnamed.active (congrArg some h)
    have hread : (toValue ⟨some active, sessions⟩).strAt "active" = active := rfl
    unfold ofValue
    dsimp only
    rw [hread, if_neg hactive]
    exact congrArg (SessionRegistry.mk (some active)) hsessions

private theorem plain_record {record : SessionRecord} (h : IsI64 record.lastSeenSeq ∧ IsI64 record.cols) :
    record.toValue.plain = true ∧ record.toValue.depth = 1 := by
  obtain ⟨⟨hlow, hhigh⟩, hlow', hhigh'⟩ := h
  have hle : i64Max ≤ u64Max := by decide
  refine ⟨?_, rfl⟩
  unfold SessionRecord.toValue
  simp [Value.plain, Value.plainFields, hlow, hlow', Int.le_trans hhigh hle, Int.le_trans hhigh' hle]

private theorem plain_records {records : List SessionRecord}
    (h : ∀ record ∈ records, IsI64 record.lastSeenSeq ∧ IsI64 record.cols) :
    Value.plainItems (records.map SessionRecord.toValue) = true ∧
      Value.depthItems (records.map SessionRecord.toValue) ≤ 1 := by
  induction records with
  | nil => exact ⟨rfl, Nat.zero_le _⟩
  | cons record records ih =>
    obtain ⟨hplain, hdepth⟩ := plain_record (h record List.mem_cons_self)
    obtain ⟨hplains, hdepths⟩ := ih fun r hr => h r (List.mem_cons_of_mem _ hr)
    rw [List.map_cons, Value.plainItems, Value.depthItems, hplain, hplains, hdepth]
    exact ⟨rfl, Nat.max_le.2 ⟨Nat.le_refl _, hdepths⟩⟩

/-- The text of a registry is one that comes back. -/
theorem plain_toValue {registry : SessionRegistry} (h : registry.Typed) :
    registry.toValue.plain = true ∧ registry.toValue.depth < 128 := by
  obtain ⟨hplain, hdepth⟩ := plain_records h
  obtain ⟨activeKey, sessions⟩ := registry
  dsimp only at hplain hdepth
  cases activeKey <;> simp [toValue, Value.plain, Value.plainFields, Value.depth, Value.depthFields, hplain] <;> omega

section

variable [Serializer] [JsonReader] [LawfulJson]

theorem fromStr_toJson {registry : SessionRegistry} (h : registry.Typed) :
    fromStr registry.toJson = some registry.toValue :=
  LawfulJson.fromStr_toCompactString _ (plain_toValue h).1 (plain_toValue h).2

/-- What was written loads. -/
theorem load_toJson {registry : SessionRegistry} (h : registry.Typed) :
    load (some registry.toJson) = some (ofValue registry.toValue) := by
  change (fromStr registry.toJson).map ofValue = _
  rw [fromStr_toJson h, Option.map_some]

/-- A registry without empty ids loads as it was written. -/
theorem load_toJson_of_named {registry : SessionRegistry} (htyped : registry.Typed) (hnamed : registry.Named) :
    load (some registry.toJson) = some registry := by
  rw [load_toJson htyped, ofValue_toValue htyped hnamed]

end

/-! ### What the operations keep -/

theorem typed_empty : Typed {} := by
  rintro record ⟨⟩

theorem named_empty : Named {} := ⟨by rintro ⟨⟩, by rintro record ⟨⟩⟩

private theorem isI64_i64At (value : Value) (key : String) : IsI64 (value.i64At key) := by
  have hclamp : ∀ x : F64, IsI64 x.toI64 := by
    intro x
    unfold F64.toI64
    dsimp only
    exact ⟨Int.le_max_left _ _, Int.max_le.2 ⟨(by decide : i64Min ≤ i64Max), Int.min_le_left _ _⟩⟩
  unfold Value.i64At
  split
  · split
    · rename_i h
      exact h
    · exact hclamp _
  · exact hclamp _
  · decide

/-- What is read from a file can be written again. -/
theorem typed_ofValue (value : Value) : (ofValue value).Typed := by
  intro record hrecord
  obtain ⟨item, -, hitem⟩ := List.mem_filterMap.1 hrecord
  unfold SessionRecord.ofValue at hitem
  split at hitem
  · cases hitem
  · cases hitem
    exact ⟨isI64_i64At _ _, isI64_i64At _ _⟩

theorem named_ofValue (value : Value) : (ofValue value).Named := by
  constructor
  · unfold ofValue
    dsimp only
    split
    · rintro ⟨⟩
    · rename_i hactive
      exact fun h => hactive (Option.some.inj h)
  · intro record hrecord
    obtain ⟨item, -, hitem⟩ := List.mem_filterMap.1 hrecord
    unfold SessionRecord.ofValue at hitem
    split at hitem
    · cases hitem
    · rename_i hitem'
      cases hitem
      exact fun h => hitem' (.inr h)

theorem mem_modifyFirst {α : Type} {p : α → Bool} {f : α → α} {as : List α} {b : α} (h : b ∈ modifyFirst p f as) :
    b ∈ as ∨ ∃ a ∈ as, b = f a := by
  induction as with
  | nil => cases h
  | cons a as ih =>
    unfold modifyFirst at h
    split at h
    · rcases List.mem_cons.1 h with rfl | hmem
      · exact .inr ⟨a, List.mem_cons_self, rfl⟩
      · exact .inl (List.mem_cons_of_mem a hmem)
    · rcases List.mem_cons.1 h with rfl | hmem
      · exact .inl List.mem_cons_self
      · rcases ih hmem with hold | ⟨c, hc, rfl⟩
        · exact .inl (List.mem_cons_of_mem a hold)
        · exact .inr ⟨c, List.mem_cons_of_mem a hc, rfl⟩

/-- A record of the registry after a write is an old one, or an old one rewritten. -/
theorem mem_modify {registry : SessionRegistry} {key : String} {f : SessionRecord → SessionRecord}
    {record : SessionRecord} (h : record ∈ (registry.modify key f).sessions) :
    record ∈ registry.sessions ∨ ∃ old ∈ registry.sessions, record = f old := mem_modifyFirst h

theorem mem_upsert {registry : SessionRegistry} {new record : SessionRecord}
    (h : record ∈ (registry.upsert new).sessions) : record ∈ registry.sessions ∨ record = new := by
  unfold upsert at h
  split at h
  · rcases mem_modify h with hold | ⟨-, -, rfl⟩
    · exact .inl hold
    · exact .inr rfl
  · rcases List.mem_append.1 h with hold | hnew
    · exact .inl hold
    · exact .inr (List.mem_singleton.1 hnew)

theorem typed_modify {registry : SessionRegistry} (h : registry.Typed) {key : String}
    {f : SessionRecord → SessionRecord}
    (hf : ∀ r, IsI64 r.lastSeenSeq ∧ IsI64 r.cols → IsI64 (f r).lastSeenSeq ∧ IsI64 (f r).cols) :
    (registry.modify key f).Typed := by
  intro record hrecord
  rcases mem_modify hrecord with hold | ⟨old, hold, rfl⟩
  · exact h record hold
  · exact hf old (h old hold)

theorem named_modify {registry : SessionRegistry} (h : registry.Named) {key : String}
    {f : SessionRecord → SessionRecord} (hf : ∀ r, (f r).storedId = r.storedId) : (registry.modify key f).Named := by
  refine ⟨h.active, ?_⟩
  intro record hrecord
  rcases mem_modify hrecord with hold | ⟨old, hold, rfl⟩
  · exact h.sessions record hold
  · exact hf old ▸ h.sessions old hold

theorem typed_touch {registry : SessionRegistry} (h : registry.Typed) (key : String) {seq : Int} (hseq : IsI64 seq)
    (epoch : String) : (registry.touch key seq epoch).Typed := by
  refine typed_modify h ?_
  intro r hr
  refine ⟨?_, hr.2⟩
  unfold touchRecord
  dsimp only
  split
  · exact hseq
  · exact hr.1

theorem named_touch {registry : SessionRegistry} (h : registry.Named) (key : String) (seq : Int) (epoch : String) :
    (registry.touch key seq epoch).Named := named_modify h fun _ => rfl

theorem typed_close {registry : SessionRegistry} (h : registry.Typed) (key : String) : (registry.close key).Typed :=
  fun record hrecord => h record (List.mem_filter.1 hrecord).1

theorem named_close {registry : SessionRegistry} (h : registry.Named) (key : String) : (registry.close key).Named := by
  refine ⟨?_, fun record hrecord => h.sessions record (List.mem_filter.1 hrecord).1⟩
  unfold close
  dsimp only
  split
  · rintro ⟨⟩
  · exact h.active

end SessionRegistry

end Hermo
