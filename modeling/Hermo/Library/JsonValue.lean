import Mathlib.Data.List.Basic

/-!
# JSON values

`Json ν` is a JSON value that keeps a `ν` of each number.  `map` and `traverse` change what is kept, and
`traverse_map` says when a change is undone.
-/

namespace Rfc8259

/-- A JSON value over what is kept of a number. -/
inductive Json (ν : Type) where
  | null
  | bool (b : Bool)
  | number (n : ν)
  | string (s : String)
  | array (items : List (Json ν))
  | object (fields : List (String × Json ν))

namespace Json

variable {ν μ : Type}

/-- All numbers of a value. -/
inductive All (p : ν → Prop) : Json ν → Prop
  | null : All p .null
  | bool (b : Bool) : All p (.bool b)
  | number {n : ν} (h : p n) : All p (.number n)
  | string (s : String) : All p (.string s)
  | array {items : List (Json ν)} (h : ∀ item ∈ items, All p item) : All p (.array items)
  | object {fields : List (String × Json ν)} (h : ∀ field ∈ fields, All p field.2) : All p (.object fields)

/-- No object has two fields of one name. -/
inductive Distinct : Json ν → Prop
  | null : Distinct .null
  | bool (b : Bool) : Distinct (.bool b)
  | number (n : ν) : Distinct (.number n)
  | string (s : String) : Distinct (.string s)
  | array {items : List (Json ν)} (h : ∀ item ∈ items, Distinct item) : Distinct (.array items)
  | object {fields : List (String × Json ν)} (hkeys : (fields.map Prod.fst).Nodup)
      (h : ∀ field ∈ fields, Distinct field.2) : Distinct (.object fields)

mutual

/-- How deep arrays and objects are nested. -/
def depth : Json ν → Nat
  | .array items => depthItems items + 1
  | .object fields => depthFields fields + 1
  | _ => 0

def depthItems : List (Json ν) → Nat
  | [] => 0
  | item :: items => max item.depth (depthItems items)

def depthFields : List (String × Json ν) → Nat
  | [] => 0
  | (_, value) :: fields => max value.depth (depthFields fields)

end

mutual

/-- Another form for the numbers. -/
def map (f : ν → μ) : Json ν → Json μ
  | .null => .null
  | .bool b => .bool b
  | .number n => .number (f n)
  | .string s => .string s
  | .array items => .array (mapItems f items)
  | .object fields => .object (mapFields f fields)

def mapItems (f : ν → μ) : List (Json ν) → List (Json μ)
  | [] => []
  | item :: items => item.map f :: mapItems f items

def mapFields (f : ν → μ) : List (String × Json ν) → List (String × Json μ)
  | [] => []
  | (key, value) :: fields => (key, value.map f) :: mapFields f fields

end

mutual

/-- Another form for the numbers, where they all have one. -/
def traverse (f : ν → Option μ) : Json ν → Option (Json μ)
  | .null => some .null
  | .bool b => some (.bool b)
  | .number n => (f n).map .number
  | .string s => some (.string s)
  | .array items => (traverseItems f items).map .array
  | .object fields => (traverseFields f fields).map .object

def traverseItems (f : ν → Option μ) : List (Json ν) → Option (List (Json μ))
  | [] => some []
  | item :: items => do
    let item ← item.traverse f
    let items ← traverseItems f items
    return item :: items

def traverseFields (f : ν → Option μ) : List (String × Json ν) → Option (List (String × Json μ))
  | [] => some []
  | (key, value) :: fields => do
    let value ← value.traverse f
    let fields ← traverseFields f fields
    return (key, value) :: fields

end

@[simp] theorem mapItems_eq (f : ν → μ) (items : List (Json ν)) : mapItems f items = items.map (·.map f) := by
  induction items with
  | nil => rfl
  | cons item items ih => rw [mapItems, ih, List.map_cons]

@[simp] theorem mapFields_eq (f : ν → μ) (fields : List (String × Json ν)) :
    mapFields f fields = fields.map fun field => (field.1, field.2.map f) := by
  induction fields with
  | nil => rfl
  | cons field fields ih => rw [mapFields, ih, List.map_cons]

theorem traverseItems_of {α : Type} {f : ν → Option μ} {a : α → Json ν} {b : α → Json μ} {items : List α}
    (h : ∀ item ∈ items, (a item).traverse f = some (b item)) :
    traverseItems f (items.map a) = some (items.map b) := by
  induction items with
  | nil => rfl
  | cons item items ih =>
    obtain ⟨hitem, hitems⟩ := List.forall_mem_cons.1 h
    simp [traverseItems, hitem, ih hitems]

theorem traverseFields_of {α : Type} {f : ν → Option μ} {k : α → String} {a : α → Json ν} {b : α → Json μ}
    {fields : List α} (h : ∀ field ∈ fields, (a field).traverse f = some (b field)) :
    traverseFields f (fields.map fun field => (k field, a field)) =
      some (fields.map fun field => (k field, b field)) := by
  induction fields with
  | nil => rfl
  | cons field fields ih =>
    obtain ⟨hfield, hfields⟩ := List.forall_mem_cons.1 h
    simp [traverseFields, hfield, ih hfields]

/-- Numbers that are read as what they were. -/
theorem traverse_map {κ : Type} {f : ν → Option μ} {g : κ → ν} {h : κ → μ} {t : Json κ}
    (ht : t.All fun n => f (g n) = some (h n)) : (t.map g).traverse f = some (t.map h) := by
  induction ht with
  | null => rfl
  | bool b => rfl
  | number hn => simp [map, traverse, hn]
  | string s => rfl
  | array _ ih => simp [map, traverse, traverseItems_of ih]
  | object _ ih => simp [map, traverse, traverseFields_of (k := Prod.fst) ih]

/-- The values of a list of fields change with what is done to each. -/
theorem lookup_map {κ : Type} (f : ν → κ) (fields : List (String × ν)) (key : String) :
    (fields.map fun field => (field.1, f field.2)).lookup key = (fields.lookup key).map f := by
  induction fields with
  | nil => rfl
  | cons field fields ih =>
    rw [List.map_cons, List.lookup_cons, List.lookup_cons]
    by_cases h : key = field.1
    · simp [h]
    · have hne : (key == field.1) = false := by simpa using h
      simp [hne, ih]

/-- Where no name comes twice, the last field of a name is the first. -/
theorem lookup_reverse {κ : Type} {fields : List (String × κ)} (h : (fields.map Prod.fst).Nodup) (key : String) :
    fields.reverse.lookup key = fields.lookup key := by
  induction fields with
  | nil => rfl
  | cons field fields ih =>
    obtain ⟨name, value⟩ := field
    rw [List.map_cons, List.nodup_cons] at h
    rw [List.reverse_cons, List.lookup_append, ih h.2, List.lookup_cons]
    by_cases hkey : key = name
    · subst hkey
      have hnone : fields.lookup key = none := by
        rw [List.lookup_eq_none_iff]
        intro field hfield
        simp only [bne_iff_ne, ne_eq]
        rintro rfl
        exact h.1 (List.mem_map.2 ⟨field, hfield, rfl⟩)
      simp [hnone]
    · have hne : (key == name) = false := by simpa using hkey
      simp [List.lookup_cons, hne]

mutual

theorem map_id : ∀ t : Json ν, t.map id = t
  | .null => rfl
  | .bool _ => rfl
  | .number _ => rfl
  | .string _ => rfl
  | .array items => by rw [map, map_id_items items]
  | .object fields => by rw [map, map_id_fields fields]

theorem map_id_items : ∀ items : List (Json ν), mapItems id items = items
  | [] => rfl
  | item :: items => by rw [mapItems, map_id item, map_id_items items]

theorem map_id_fields : ∀ fields : List (String × Json ν), mapFields id fields = fields
  | [] => rfl
  | (key, value) :: fields => by rw [mapFields, map_id value, map_id_fields fields]

end

theorem depthItems_le {items : List (Json ν)} {n : Nat} : depthItems items ≤ n ↔ ∀ item ∈ items, item.depth ≤ n := by
  induction items with
  | nil => simp [depthItems]
  | cons item items ih => rw [depthItems, Nat.max_le, List.forall_mem_cons, ih]

theorem depthFields_le {fields : List (String × Json ν)} {n : Nat} :
    depthFields fields ≤ n ↔ ∀ field ∈ fields, field.2.depth ≤ n := by
  induction fields with
  | nil => simp [depthFields]
  | cons field fields ih => rw [depthFields, Nat.max_le, List.forall_mem_cons, ih]

theorem depth_array_le {items : List (Json ν)} {n : Nat} (h : ∀ item ∈ items, item.depth ≤ n) :
    (array items).depth ≤ n + 1 := Nat.succ_le_succ (depthItems_le.2 h)

theorem depth_object_le {fields : List (String × Json ν)} {n : Nat} (h : ∀ field ∈ fields, field.2.depth ≤ n) :
    (object fields).depth ≤ n + 1 := Nat.succ_le_succ (depthFields_le.2 h)

mutual

/-- What is true of every number is true of all numbers of a value. -/
theorem all_of_forall {p : ν → Prop} (h : ∀ n, p n) : ∀ t : Json ν, t.All p
  | .null => .null
  | .bool b => .bool b
  | .number n => .number (h n)
  | .string s => .string s
  | .array items => .array (all_of_forall_items h items)
  | .object fields => .object (all_of_forall_fields h fields)

theorem all_of_forall_items {p : ν → Prop} (h : ∀ n, p n) : ∀ (items : List (Json ν)), ∀ item ∈ items, item.All p
  | [] => by simp
  | item :: items => List.forall_mem_cons.2 ⟨all_of_forall h item, all_of_forall_items h items⟩

theorem all_of_forall_fields {p : ν → Prop} (h : ∀ n, p n) :
    ∀ (fields : List (String × Json ν)), ∀ field ∈ fields, field.2.All p
  | [] => by simp
  | (_, value) :: fields => List.forall_mem_cons.2 ⟨all_of_forall h value, all_of_forall_fields h fields⟩

end

theorem All.imp {p q : ν → Prop} (h : ∀ n, p n → q n) {t : Json ν} (ht : t.All p) : t.All q := by
  induction ht with
  | null => exact .null
  | bool b => exact .bool b
  | number hn => exact .number (h _ hn)
  | string s => exact .string s
  | array _ ih => exact .array ih
  | object _ ih => exact .object ih

theorem All.map {κ : Type} {p : ν → Prop} {g : κ → ν} {t : Json κ} (ht : t.All fun n => p (g n)) :
    (t.map g).All p := by
  induction ht with
  | null => exact .null
  | bool b => exact .bool b
  | number hn => exact .number hn
  | string s => exact .string s
  | array _ ih =>
    rw [Json.map, mapItems_eq]
    exact .array (by simpa using ih)
  | object _ ih =>
    rw [Json.map, mapFields_eq]
    refine .object ?_
    simp only [List.mem_map, forall_exists_index, and_imp, forall_apply_eq_imp_iff₂]
    exact ih

theorem Distinct.map {g : ν → μ} {t : Json ν} (ht : t.Distinct) : (t.map g).Distinct := by
  induction ht with
  | null => exact .null
  | bool b => exact .bool b
  | number n => exact .number _
  | string s => exact .string s
  | array _ ih =>
    rw [Json.map, mapItems_eq]
    exact .array (by simpa using ih)
  | object hkeys _ ih =>
    rw [Json.map, mapFields_eq]
    refine .object (by simpa [Function.comp_def] using hkeys) ?_
    simp only [List.mem_map, forall_exists_index, and_imp, forall_apply_eq_imp_iff₂]
    exact ih

mutual

theorem depth_map (g : ν → μ) : ∀ t : Json ν, (t.map g).depth = t.depth
  | .null => rfl
  | .bool _ => rfl
  | .number _ => rfl
  | .string _ => rfl
  | .array items => by rw [map, depth, depth, depthItems_map g items]
  | .object fields => by rw [map, depth, depth, depthFields_map g fields]

theorem depthItems_map (g : ν → μ) : ∀ items : List (Json ν), depthItems (mapItems g items) = depthItems items
  | [] => rfl
  | item :: items => by rw [mapItems, depthItems, depthItems, depth_map g item, depthItems_map g items]

theorem depthFields_map (g : ν → μ) :
    ∀ fields : List (String × Json ν), depthFields (mapFields g fields) = depthFields fields
  | [] => rfl
  | (key, value) :: fields => by rw [mapFields, depthFields, depthFields, depth_map g value, depthFields_map g fields]

end

theorem traverseItems_cons {f : ν → Option μ} {item : Json ν} {items : List (Json ν)} {read : List (Json μ)}
    (h : traverseItems f (item :: items) = some read) :
    ∃ first rest, item.traverse f = some first ∧ traverseItems f items = some rest ∧ read = first :: rest := by
  rw [traverseItems, Option.bind_eq_bind, Option.bind_eq_some_iff] at h
  obtain ⟨first, hfirst, h⟩ := h
  rw [Option.bind_eq_bind, Option.bind_eq_some_iff] at h
  obtain ⟨rest, hrest, h⟩ := h
  cases h
  exact ⟨first, rest, hfirst, hrest, rfl⟩

theorem traverseFields_cons {f : ν → Option μ} {key : String} {value : Json ν} {fields : List (String × Json ν)}
    {read : List (String × Json μ)} (h : traverseFields f ((key, value) :: fields) = some read) :
    ∃ first rest, value.traverse f = some first ∧ traverseFields f fields = some rest ∧
      read = (key, first) :: rest := by
  rw [traverseFields, Option.bind_eq_bind, Option.bind_eq_some_iff] at h
  obtain ⟨first, hfirst, h⟩ := h
  rw [Option.bind_eq_bind, Option.bind_eq_some_iff] at h
  obtain ⟨rest, hrest, h⟩ := h
  cases h
  exact ⟨first, rest, hfirst, hrest, rfl⟩

mutual

theorem depth_traverse {f : ν → Option μ} : ∀ (t : Json ν) {read : Json μ}, t.traverse f = some read →
    read.depth = t.depth
  | .null, _, h | .bool _, _, h | .string _, _, h => by
    cases h
    rfl
  | .number n, _, h => by
    obtain ⟨m, -, rfl⟩ := Option.map_eq_some_iff.1 h
    rfl
  | .array items, _, h => by
    obtain ⟨read, hread, rfl⟩ := Option.map_eq_some_iff.1 h
    rw [depth, depth, depthItems_traverse items hread]
  | .object fields, _, h => by
    obtain ⟨read, hread, rfl⟩ := Option.map_eq_some_iff.1 h
    rw [depth, depth, depthFields_traverse fields hread]

theorem depthItems_traverse {f : ν → Option μ} : ∀ (items : List (Json ν)) {read : List (Json μ)},
    traverseItems f items = some read → depthItems read = depthItems items
  | [], _, h => by
    cases h
    rfl
  | item :: items, _, h => by
    obtain ⟨first, rest, hfirst, hrest, rfl⟩ := traverseItems_cons h
    rw [depthItems, depthItems, depth_traverse item hfirst, depthItems_traverse items hrest]

theorem depthFields_traverse {f : ν → Option μ} : ∀ (fields : List (String × Json ν)) {read : List (String × Json μ)},
    traverseFields f fields = some read → depthFields read = depthFields fields
  | [], _, h => by
    cases h
    rfl
  | (key, value) :: fields, _, h => by
    obtain ⟨first, rest, hfirst, hrest, rfl⟩ := traverseFields_cons h
    rw [depthFields, depthFields, depth_traverse value hfirst, depthFields_traverse fields hrest]

end

theorem keys_traverse {f : ν → Option μ} {fields : List (String × Json ν)} {read : List (String × Json μ)}
    (h : traverseFields f fields = some read) : read.map Prod.fst = fields.map Prod.fst := by
  induction fields generalizing read with
  | nil =>
    cases h
    rfl
  | cons field fields ih =>
    obtain ⟨first, rest, -, hrest, rfl⟩ := traverseFields_cons h
    rw [List.map_cons, List.map_cons, ih hrest]

private theorem forall_traverseItems {f : ν → Option μ} {p : Json μ → Prop} {items : List (Json ν)}
    (hp : ∀ item ∈ items, ∀ read, item.traverse f = some read → p read) {read : List (Json μ)}
    (h : traverseItems f items = some read) : ∀ item ∈ read, p item := by
  induction items generalizing read with
  | nil =>
    cases h
    simp
  | cons item items ih =>
    obtain ⟨hitem, hitems⟩ := List.forall_mem_cons.1 hp
    obtain ⟨first, rest, hfirst, hrest, rfl⟩ := traverseItems_cons h
    exact List.forall_mem_cons.2 ⟨hitem first hfirst, ih hitems hrest⟩

private theorem forall_traverseFields {f : ν → Option μ} {p : Json μ → Prop} {fields : List (String × Json ν)}
    (hp : ∀ field ∈ fields, ∀ read, field.2.traverse f = some read → p read) {read : List (String × Json μ)}
    (h : traverseFields f fields = some read) : ∀ field ∈ read, p field.2 := by
  induction fields generalizing read with
  | nil =>
    cases h
    simp
  | cons field fields ih =>
    obtain ⟨hfield, hfields⟩ := List.forall_mem_cons.1 hp
    obtain ⟨first, rest, hfirst, hrest, rfl⟩ := traverseFields_cons h
    exact List.forall_mem_cons.2 ⟨hfield first hfirst, ih hfields hrest⟩

theorem Distinct.traverse {f : ν → Option μ} {t : Json ν} (ht : t.Distinct) {read : Json μ}
    (h : t.traverse f = some read) : read.Distinct := by
  induction ht generalizing read with
  | null =>
    cases h
    exact .null
  | bool b =>
    cases h
    exact .bool b
  | number n =>
    obtain ⟨m, -, rfl⟩ := Option.map_eq_some_iff.1 h
    exact .number m
  | string s =>
    cases h
    exact .string s
  | array _ ih =>
    obtain ⟨items, hitems, rfl⟩ := Option.map_eq_some_iff.1 h
    exact .array (forall_traverseItems (fun item hitem _ => ih item hitem) hitems)
  | object hkeys _ ih =>
    obtain ⟨fields, hfields, rfl⟩ := Option.map_eq_some_iff.1 h
    exact .object (keys_traverse hfields ▸ hkeys) (forall_traverseFields (fun field hfield _ => ih field hfield) hfields)

/-! ### The order of fields -/

/-- Two values that differ in the order of fields only. -/
inductive Same : Json ν → Json ν → Prop
  | null : Same .null .null
  | bool (b : Bool) : Same (.bool b) (.bool b)
  | number (n : ν) : Same (.number n) (.number n)
  | string (s : String) : Same (.string s) (.string s)
  | array {items items' : List (Json ν)} (hlength : items.length = items'.length)
      (h : ∀ (i : Nat) (item item' : Json ν), items[i]? = some item → items'[i]? = some item' → Same item item') :
      Same (.array items) (.array items')
  | object {fields fields' : List (String × Json ν)}
      (hnames : ∀ key, (fields.lookup key).isSome = (fields'.lookup key).isSome)
      (h : ∀ (key : String) (value value' : Json ν), fields.lookup key = some value → fields'.lookup key = some value' →
        Same value value') : Same (.object fields) (.object fields')

theorem same_array_map {f : Json ν → Json ν} {items : List (Json ν)} (h : ∀ item ∈ items, Same item (f item)) :
    Same (.array items) (.array (items.map f)) := by
  refine .array (List.length_map f).symm fun i item item' hitem hitem' => ?_
  rw [List.getElem?_map, hitem, Option.map_some, Option.some_inj] at hitem'
  exact hitem' ▸ h item (List.mem_of_getElem? hitem)

theorem same_object_lookup {f : Json ν → Json ν} {fields fields' : List (String × Json ν)}
    (hlookup : ∀ key, fields'.lookup key = (fields.lookup key).map f)
    (h : ∀ field ∈ fields, Same field.2 (f field.2)) : Same (.object fields) (.object fields') := by
  refine .object (fun key => ?_) fun key value value' hvalue hvalue' => ?_
  · rw [hlookup, Option.isSome_map]
  · obtain ⟨before, after, rfl, -⟩ := List.lookup_eq_some_iff.1 hvalue
    rw [hlookup, hvalue, Option.map_some, Option.some_inj] at hvalue'
    exact hvalue' ▸ h (key, value) (by simp)

end Json

end Rfc8259
