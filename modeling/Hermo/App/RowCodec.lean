import Hermo.App.PromptCards
import Hermo.JsonText

/-!
# The rows of the core in the apps

`row_json` writes a row, and `parseChatRow` of either app reads it.  What the libraries in between do is stated about
the JSON text: `serde_json` writes one, `org.json` and `JSONSerialization` read it.
-/

namespace Hermo

open Rfc8259 (Json Token)

/-- The number a float is. -/
def F64.toRat (x : F64) : ℚ := x.mantissa * (2 : ℚ) ^ x.exponent

mutual

/-- A value of `serde_json` as JSON. -/
def Value.json : Value → Json Number
  | .null => .null
  | .bool b => .bool b
  | .number n => .number n
  | .string s => .string s
  | .array items => .array (Value.jsonItems items)
  | .object fields => .object (Value.jsonFields fields)

def Value.jsonItems : List Value → List (Json Number)
  | [] => []
  | item :: items => item.json :: Value.jsonItems items

def Value.jsonFields : List (String × Value) → List (String × Json Number)
  | [] => []
  | (key, value) :: fields => (key, value.json) :: Value.jsonFields fields

end

/-- How a number is written. -/
def numberToken [JsonReader] (n : Number) : Token := n.text.toList

/-- `serde_json` writes JSON texts, and both apps read the text of a float as that float. -/
class SerdeText [Serializer] [JsonReader] [OrgJson] [Foundation] : Prop where
  read_toCompactString (v : Value) : Rfc8259.read (toCompactString v).toList = some (v.json.map numberToken)
  numberOf_floatText (x : F64) (d : Double) (h : d.value = x.toRat) :
    OrgJson.numberOf (floatText x).toList = some (.double d)
  doubleValue_floatText (x : F64) (d : Double) (h : d.value = x.toRat) :
    Foundation.doubleValue (floatText x).toList = some d

theorem Value.jsonItems_eq (items : List Value) : Value.jsonItems items = items.map Value.json := by
  induction items with
  | nil => rfl
  | cons item items ih => rw [Value.jsonItems, ih, List.map_cons]

/-! ### The JSON of a row -/

/-- A list of strings. -/
def strings {ν : Type} (ss : List String) : Json ν := .array (ss.map .string)

private theorem map_strings {ν μ : Type} (f : ν → μ) (ss : List String) : (strings ss).map f = strings ss := by
  rw [strings, strings, Json.map, Json.mapItems_eq, List.map_map]
  rfl

private theorem distinct_strings {ν : Type} (ss : List String) : (strings ss : Json ν).Distinct := by
  refine .array fun item hitem => ?_
  obtain ⟨s, -, rfl⟩ := List.mem_map.1 hitem
  exact .string s

private theorem depth_strings {ν : Type} (ss : List String) : (strings ss : Json ν).depth ≤ 1 := by
  refine Json.depth_array_le fun item hitem => ?_
  obtain ⟨s, -, rfl⟩ := List.mem_map.1 hitem
  exact Nat.le_refl _

/-- The fields of a question of a clarify card. -/
def questionFields {ν : Type} (q : ClarifyQuestion) : List (String × Json ν) :=
  [("qid", .string q.qid), ("question", .string q.question), ("choices", strings q.choices),
    ("multi_select", .bool q.multiSelect)]

/-- The questions of a clarify card. -/
def questionItems {ν : Type} (questions : List ClarifyQuestion) : List (Json ν) :=
  questions.map fun q => .object (questionFields q)

private theorem map_questionFields {ν μ : Type} (f : ν → μ) (q : ClarifyQuestion) :
    (questionFields q).map (fun field => (field.1, field.2.map f)) = questionFields q := by
  simp [questionFields, Json.map, map_strings]

theorem map_questionItems {ν μ : Type} (f : ν → μ) (questions : List ClarifyQuestion) :
    (questionItems questions).map (fun item => item.map f) = questionItems questions := by
  simp [questionItems, Json.map, map_questionFields]

theorem distinct_questions {ν : Type} (questions : List ClarifyQuestion) :
    ∀ item ∈ questionItems (ν := ν) questions, item.Distinct := by
  intro item hitem
  obtain ⟨q, -, rfl⟩ := List.mem_map.1 hitem
  refine .object (by simp [questionFields]) ?_
  simp [questionFields, Json.Distinct.string, Json.Distinct.bool, distinct_strings]

theorem depth_questions {ν : Type} (questions : List ClarifyQuestion) :
    ∀ item ∈ questionItems (ν := ν) questions, item.depth ≤ 2 := by
  intro item hitem
  obtain ⟨q, -, rfl⟩ := List.mem_map.1 hitem
  refine Json.depth_object_le ?_
  have hstring (s : String) : (Json.string s : Json ν).depth ≤ 1 := Nat.zero_le _
  have hbool (b : Bool) : (Json.bool b : Json ν).depth ≤ 1 := Nat.zero_le _
  simp [questionFields, hstring, hbool, depth_strings]

private theorem all_strings {ν : Type} (p : ν → Prop) (ss : List String) : (strings ss).All p := by
  refine .array fun item hitem => ?_
  obtain ⟨s, -, rfl⟩ := List.mem_map.1 hitem
  exact .string s

theorem all_questions {ν : Type} (p : ν → Prop) (questions : List ClarifyQuestion) :
    ∀ item ∈ questionItems questions, item.All p := by
  intro item hitem
  obtain ⟨q, -, rfl⟩ := List.mem_map.1 hitem
  refine .object ?_
  simp [questionFields, Json.All.string, Json.All.bool, all_strings]

section

variable [Serializer]

/-- The fields of the JSON object of a row. -/
def rowFields : RowKind → List (String × Json Number)
  | .user text => [("kind", .string "user"), ("text", .string text)]
  | .assistant text streaming usage warning =>
    [("kind", .string "assistant"), ("text", .string text), ("streaming", .bool streaming), ("usage", .string usage),
      ("warning", .string warning)]
  | .thinking text => [("kind", .string "thinking"), ("text", .string text)]
  | .tool card =>
    [("kind", .string "tool"), ("tool_id", .string card.toolId), ("name", .string card.name),
      ("complete", .bool card.complete), ("context", .string card.context), ("args", .string card.argsJson),
      ("result", .string card.resultJson), ("duration_s", .number (.float card.durationS))]
  | .approval card =>
    [("kind", .string "approval"), ("request_id", .string card.requestId), ("command", .string card.command),
      ("description", .string card.description), ("choices", strings card.choices), ("resolved", .bool card.resolved)]
  | .clarify card =>
    [("kind", .string "clarify"), ("request_id", .string card.requestId),
      ("questions", .array (questionItems card.questions)), ("resolved", .bool card.resolved)]
  | .status kind text => [("kind", .string "status"), ("status", .string kind.debug), ("text", .string text)]
  | .error message => [("kind", .string "error"), ("message", .string message)]

theorem json_rowValue (kind : RowKind) : (rowValue kind).json = .object (rowFields kind) := by
  cases kind with
  | approval card => simp [rowValue, rowFields, Value.json, Value.jsonFields, Value.jsonItems_eq, strings]
  | clarify card =>
    simp [rowValue, rowFields, questionItems, questionFields, Value.json, Value.jsonFields, Value.jsonItems_eq, strings]
  | _ => rfl

theorem distinct_row (kind : RowKind) : (Json.object (rowFields kind)).Distinct := by
  have hquestions (questions : List ClarifyQuestion) : (Json.array (questionItems questions) : Json Number).Distinct :=
    .array (distinct_questions questions)
  cases kind <;> refine .object (by simp [rowFields]) ?_ <;>
    simp [rowFields, Json.Distinct.string, Json.Distinct.bool, Json.Distinct.number, distinct_strings, hquestions]

theorem depth_row (kind : RowKind) : (Json.object (rowFields kind)).depth ≤ 512 := by
  have hstring (s : String) : (Json.string s : Json Number).depth ≤ 3 := Nat.zero_le _
  have hbool (b : Bool) : (Json.bool b : Json Number).depth ≤ 3 := Nat.zero_le _
  have hnumber (n : Number) : (Json.number n).depth ≤ 3 := Nat.zero_le _
  have hstrings (ss : List String) : (strings ss : Json Number).depth ≤ 3 := Nat.le_trans (depth_strings ss) (by decide)
  have hquestions (questions : List ClarifyQuestion) : (Json.array (questionItems questions) : Json Number).depth ≤ 3 :=
    Json.depth_array_le (depth_questions questions)
  have hrow : ∀ field ∈ rowFields kind, field.2.depth ≤ 3 := by
    cases kind <;> simp [rowFields, hstring, hbool, hnumber, hstrings, hquestions]
  exact Nat.le_trans (Json.depth_object_le hrow) (by decide)

end

/-! ### What the libraries make of it -/

/-- The duration of a tool row as a double. -/
def Measures (kind : RowKind) (duration : Double) : Prop :=
  ∀ card, kind = .tool card → duration.value = card.durationS.toRat

/-- The numbers of a row are durations. -/
private theorem all_row [Serializer] {kind : RowKind} {p : Number → Prop}
    (h : ∀ card, kind = .tool card → p (.float card.durationS)) : (Json.object (rowFields kind)).All p := by
  have hquestions (questions : List ClarifyQuestion) : (Json.array (questionItems questions)).All p :=
    .array (all_questions p questions)
  refine .object ?_
  cases kind with
  | tool card => simp [rowFields, Json.All.string, Json.All.bool, Json.All.number (h card rfl)]
  | _ => simp [rowFields, Json.All.string, Json.All.bool, all_strings, hquestions]

section

variable [JsonReader] {text : String} {fields : List (String × Json Number)}

/-- On Android. -/
private theorem jsonObject_of_read [OrgJson] [LawfulOrgJson] (h : Number → OrgNumber)
    (hread : Rfc8259.read text.toList = some ((Json.object fields).map numberToken))
    (hdistinct : (Json.object fields).Distinct) (hdepth : (Json.object fields).depth ≤ 512)
    (hall : (Json.object fields).All fun n => OrgJson.numberOf (numberToken n) = some (h n)) :
    OrgJson.jsonObject text = some (fields.map fun field => (field.1, field.2.map h)) := by
  have hdistinct := hdistinct.map (g := numberToken)
  have htraverse := Json.traverse_map hall
  rw [← Json.depth_map numberToken] at hdepth
  rw [Json.map, Json.mapFields_eq] at hread hdistinct hdepth htraverse
  rw [Json.map, Json.traverse, Json.mapFields_eq, Option.map_eq_some_iff] at htraverse
  obtain ⟨read, hfields, heq⟩ := htraverse
  rw [LawfulOrgJson.jsonObject_of_read _ _ hread hdistinct hdepth, hfields]
  exact congrArg some (Json.object.inj heq)

/-- On iOS. -/
private theorem ofText_of_read [Foundation] [LawfulFoundation] (h : Number → Double)
    (hread : Rfc8259.read text.toList = some ((Json.object fields).map numberToken))
    (hdistinct : (Json.object fields).Distinct) (hdepth : (Json.object fields).depth ≤ 512)
    (hall : (Json.object fields).All fun n => Foundation.doubleValue (numberToken n) = some (h n)) :
    LooseJSON.ofText text =
      some ⟨LooseJSON.convert (.object (fields.map fun field => (field.1, field.2.map h)))⟩ := by
  rw [← Json.depth_map numberToken] at hdepth
  rw [LooseJSON.ofText, LawfulFoundation.jsonObject_of_read _ _ hread hdistinct.map hdepth, Json.traverse_map hall,
    Option.map_some, Json.map, Json.mapFields_eq]

end

section

variable [Serializer] [JsonReader] [OrgJson] [Foundation] [SerdeText]

/-- The object of a row on Android. -/
private def rowObject (duration : Double) (kind : RowKind) : JSONObject :=
  ⟨(rowFields kind).map fun field => (field.1, field.2.map fun _ => .double duration)⟩

/-- The object of a row on iOS. -/
private def rowTree (duration : Double) (kind : RowKind) : LooseJSON :=
  ⟨LooseJSON.convert (.object ((rowFields kind).map fun field => (field.1, field.2.map fun _ => duration)))⟩

theorem read_rowText (row : Row) :
    Rfc8259.read (rowText row).toList = some ((Json.object (rowFields row.kind)).map numberToken) := by
  have hread := SerdeText.read_toCompactString (rowValue row.kind)
  rwa [json_rowValue] at hread

private theorem jsonObject_rowText [LawfulOrgJson] (row : Row) {duration : Double} (h : Measures row.kind duration) :
    OrgJson.jsonObject (rowText row) = some (rowObject duration row.kind).fields :=
  jsonObject_of_read _ (read_rowText row) (distinct_row row.kind) (depth_row row.kind)
    (all_row fun card hcard => SerdeText.numberOf_floatText card.durationS duration (h card hcard))

private theorem ofText_rowText [LawfulFoundation] (row : Row) {duration : Double} (h : Measures row.kind duration) :
    LooseJSON.ofText (rowText row) = some (rowTree duration row.kind) :=
  ofText_of_read _ (read_rowText row) (distinct_row row.kind) (depth_row row.kind)
    (all_row fun card hcard => SerdeText.doubleValue_floatText card.durationS duration (h card hcard))

end

/-! ### What is shown -/

/-- The string under a name. -/
def textAt (fields : List (String × Json Number)) (key : String) : Option String :=
  match fields.lookup key with
  | some (.string s) => some s
  | _ => none

/-- The integer under a name. -/
def intAt (fields : List (String × Json Number)) (key : String) : Option ℤ :=
  match fields.lookup key with
  | some (.number (.int n)) => some n
  | _ => none

/-- The diff of a result: the first text that is not blank. -/
def diffOf (white : Char → Bool) (result : List (String × Json Number)) : String :=
  ((["inline_diff", "diff"].filterMap (textAt result)).find? fun s => !isBlank white s).getD ""

/-- The row shown for one of the core.  `white` is what counts as blank, `duration` the double of a duration, `result`
the fields of the result of a tool and `questions` the text of the questions of a card. -/
def RowKind.chatRow [Serializer] (white : Char → Bool) (id : ℕ) (duration : Double)
    (result : List (String × Json Number)) (questions : String) : RowKind → ChatRow
  | .user text => .user id text
  | .assistant text streaming usage warning => .assistant id text streaming warning usage
  | .thinking text => .thinking id text
  | .tool card =>
    .tool id card.name card.complete card.context card.argsJson card.resultJson
      (diffOf white result) (.finite duration) (intAt result "exit_code")
  | .approval card =>
    .approval id card.requestId card.command card.description (card.choices.filter fun s => !isBlank white s)
      card.resolved
  | .clarify card => .clarify id card.requestId questions card.resolved
  | .status kind text => .status id kind.debug text
  | .error message => .error id message

/-- The texts of a row that are left out when they are blank. -/
def RowKind.judged (result : List (String × Json Number)) : RowKind → List String
  | .tool _ => ["inline_diff", "diff"].filterMap (textAt result)
  | .approval card => card.choices
  | _ => []

def RowKind.questions : RowKind → List ClarifyQuestion
  | .clarify card => card.questions
  | _ => []

section

variable [JsonReader] [OrgJson] [Foundation]

/-- What an app can look for in a result: a diff is a text, an exit code an `Int`. -/
structure PlainResult (fields : List (String × Json Number)) : Prop where
  diff : ∀ key ∈ ["inline_diff", "diff"], ∀ value, fields.lookup key = some value →
    value = .null ∨ ∃ s, value = .string s
  exit : ∀ value, fields.lookup "exit_code" = some value →
    value = .null ∨ ∃ n, value = .number (.int n) ∧ JSONObject.i32Min ≤ n ∧ n ≤ JSONObject.i32Max

/-- The text of a result and the fields the apps find in it: it is no object for either, or the JSON text of one. -/
inductive ResultText (text : String) : List (String × Json Number) → Prop
  | other (horg : OrgJson.jsonObject text = none)
      (hfoundation : ∀ json, LooseJSON.ofText text = some json → json.isObject = false) : ResultText text []
  | object (fields : List (String × Json Number))
      (h : Rfc8259.read text.toList = some ((Json.object fields).map numberToken))
      (hdistinct : (Json.object fields).Distinct) (hdepth : (Json.object fields).depth ≤ 512)
      (horg : (Json.object fields).All fun n => (OrgJson.numberOf (numberToken n)).isSome)
      (hfoundation : (Json.object fields).All fun n => (Foundation.doubleValue (numberToken n)).isSome)
      (hplain : PlainResult fields) : ResultText text fields

/-- What the numbers and texts in a tool row are: the double of the duration, and the fields of the result. -/
structure Readable (kind : RowKind) (duration : Double) (result : List (String × Json Number)) : Prop where
  measures : Measures kind duration
  result : ∀ card, kind = .tool card → ResultText card.resultJson result

end

/-! ### The result of a tool on Android -/

section

variable [OrgJson] {fields : List (String × Json Number)} {key : String}

omit [OrgJson] in
private theorem opt_map (h : Number → OrgNumber) :
    (JSONObject.mk (fields.map fun field => (field.1, field.2.map h))).opt key = (fields.lookup key).map (Json.map h) :=
  Json.lookup_map (Json.map h) fields key

private theorem optStringOrNull_map (h : Number → OrgNumber)
    (hplain : ∀ value, fields.lookup key = some value → value = .null ∨ ∃ s, value = .string s) :
    (JSONObject.mk (fields.map fun field => (field.1, field.2.map h))).optStringOrNull key = textAt fields key := by
  unfold JSONObject.optStringOrNull JSONObject.has JSONObject.isNull JSONObject.optString textAt
  simp only [opt_map]
  cases hvalue : fields.lookup key with
  | none => simp
  | some value =>
    rcases hplain value hvalue with rfl | ⟨s, rfl⟩
    · simp [Json.map]
    · simp [Json.map, JSONObject.toText]

private theorem exit_map (h : Number → OrgNumber) (hint : ∀ n, i64Min ≤ n → n ≤ i64Max → h (.int n) = .integer n)
    (hplain : ∀ value, fields.lookup key = some value →
      value = .null ∨ ∃ n, value = .number (.int n) ∧ JSONObject.i32Min ≤ n ∧ n ≤ JSONObject.i32Max) :
    let result : JSONObject := ⟨fields.map fun field => (field.1, field.2.map h)⟩
    (if result.has key && !result.isNull key then some (result.optInt key) else none) = intAt fields key := by
  intro result
  unfold JSONObject.has JSONObject.isNull JSONObject.optInt intAt
  simp only [result, opt_map]
  cases hvalue : fields.lookup key with
  | none => simp
  | some value =>
    rcases hplain value hvalue with rfl | ⟨n, rfl, hlow, hhigh⟩
    · simp [Json.map]
    · have hn : h (.int n) = .integer n := by
        refine hint n ?_ ?_
        · exact Int.le_trans (by decide) hlow
        · exact Int.le_trans hhigh (by decide)
      have hwrap : (BitVec.ofInt 32 n).toInt = n := by
        rw [BitVec.toInt_ofInt]
        unfold JSONObject.i32Min at hlow
        unfold JSONObject.i32Max at hhigh
        rw [Int.bmod_def]
        omega
      simp [Json.map, hn, hwrap]

end

/-! ### The result of a tool on iOS -/

section

variable [Foundation] [LawfulFoundation] {fields : List (String × Json Number)} {key : String}

private theorem field_map (h : Number → Double) (hdistinct : (Json.object fields).Distinct) :
    (LooseJSON.mk (LooseJSON.convert (.object (fields.map fun field => (field.1, field.2.map h))))).field key =
      (fields.lookup key).map fun value => LooseJSON.convert (value.map h) := by
  cases hdistinct with
  | object hkeys _ =>
    rw [LooseJSON.field_convert (by simpa [Function.comp_def] using hkeys), Json.lookup_map (Json.map h), Option.map_map]
    rfl

private theorem optString_map (h : Number → Double) (hdistinct : (Json.object fields).Distinct)
    (hplain : ∀ value, fields.lookup key = some value → value = .null ∨ ∃ s, value = .string s) :
    (LooseJSON.mk (LooseJSON.convert (.object (fields.map fun field => (field.1, field.2.map h))))).optString key =
      (textAt fields key).getD "" := by
  unfold LooseJSON.optString textAt
  rw [field_map h hdistinct]
  cases hvalue : fields.lookup key with
  | none => simp
  | some value =>
    rcases hplain value hvalue with rfl | ⟨s, rfl⟩
    · simp [Json.map, LooseJSON.convert, LooseJSON.stringCoercion]
    · simp [Json.map, LooseJSON.convert, LooseJSON.stringCoercion]

omit [Foundation] [LawfulFoundation] in
private theorem saturatingInt64_int {x : Double} {n : ℤ} (h : x.value = n) (hlow : JSONObject.i32Min ≤ n)
    (hhigh : n ≤ JSONObject.i32Max) : LooseJSON.saturatingInt64 (.finite x) = n := by
  have hmax : ¬ x.value ≥ 2 ^ 63 := by
    rw [h, ge_iff_le, not_le]
    have hlt : n < 2 ^ 63 := Int.lt_of_le_of_lt hhigh (by decide)
    exact_mod_cast hlt
  have hmin : ¬ x.value < -2 ^ 63 := by
    rw [h, not_lt]
    have hle : -2 ^ 63 ≤ n := Int.le_trans (by decide) hlow
    exact_mod_cast hle
  rw [LooseJSON.saturatingInt64, if_neg hmax, if_neg hmin, LooseJSON.truncate, h]
  split
  · exact Int.floor_intCast n
  · exact Int.ceil_intCast n

private theorem exitCode_map (h : Number → Double) (hdistinct : (Json.object fields).Distinct)
    (hint : ∀ n, |n| < 10 ^ 15 → (h (.int n)).value = n)
    (hplain : ∀ value, fields.lookup key = some value →
      value = .null ∨ ∃ n, value = .number (.int n) ∧ JSONObject.i32Min ≤ n ∧ n ≤ JSONObject.i32Max) :
    let result : LooseJSON := ⟨LooseJSON.convert (.object (fields.map fun field => (field.1, field.2.map h)))⟩
    (if result.has key then some (result.optInt key) else none) = intAt fields key := by
  intro result
  unfold LooseJSON.has LooseJSON.optInt intAt
  simp only [result, field_map h hdistinct]
  cases hvalue : fields.lookup key with
  | none => simp
  | some value =>
    rcases hplain value hvalue with rfl | ⟨n, rfl, hlow, hhigh⟩
    · simp [Json.map, LooseJSON.convert]
    · have hsmall : |n| < 10 ^ 15 := by
        unfold JSONObject.i32Min at hlow
        unfold JSONObject.i32Max at hhigh
        rw [abs_lt]
        omega
      have hn := saturatingInt64_int (hint n hsmall) hlow hhigh
      simp [Json.map, LooseJSON.convert, LooseJSON.numberCoercion, hn]

end

/-! ### The rows decoded -/

section

variable [JsonReader] [OrgJson] [Foundation] {text : String} {fields : List (String × Json Number)}

/-- Both apps read the numbers of a result. -/
private theorem ResultText.org [LawfulOrgJson] (h : ResultText text fields) :
    (OrgJson.jsonObject text = none ∧ fields = []) ∨ PlainResult fields ∧ ∃ g : Number → OrgNumber,
      (∀ n, i64Min ≤ n → n ≤ i64Max → g (.int n) = .integer n) ∧
        OrgJson.jsonObject text = some (fields.map fun field => (field.1, field.2.map g)) := by
  cases h with
  | other horg hfoundation => exact .inl ⟨horg, rfl⟩
  | object _ hread hdistinct hdepth horg hfoundation hplain =>
    refine .inr ⟨hplain, fun n => (OrgJson.numberOf (numberToken n)).getD (.integer 0), ?_, ?_⟩
    · intro n hlow hhigh
      have hint := LawfulOrgJson.numberOf_int n ⟨hlow, hhigh⟩
      change (OrgJson.numberOf (toString n).toList).getD _ = _
      rw [hint, Option.getD_some]
    · refine jsonObject_of_read _ hread hdistinct hdepth (horg.imp fun n hn => ?_)
      obtain ⟨number, hnumber⟩ := Option.isSome_iff_exists.1 hn
      rw [hnumber, Option.getD_some]

private theorem ResultText.foundation [LawfulFoundation] (h : ResultText text fields) :
    ((∀ json, LooseJSON.ofText text = some json → json.isObject = false) ∧ fields = []) ∨
      (Json.object fields).Distinct ∧ PlainResult fields ∧ ∃ g : Number → Double,
        (∀ n, |n| < 10 ^ 15 → (g (.int n)).value = n) ∧
          LooseJSON.ofText text =
            some ⟨LooseJSON.convert (.object (fields.map fun field => (field.1, field.2.map g)))⟩ := by
  cases h with
  | other horg hfoundation => exact .inl ⟨hfoundation, rfl⟩
  | object _ hread hdistinct hdepth horg hfoundation hplain =>
    refine .inr ⟨hdistinct, hplain, fun n => (Foundation.doubleValue (numberToken n)).getD 0, ?_, ?_⟩
    · intro n hn
      have hlt : |n| < 2 ^ 53 := hn.trans (by decide)
      have hint := LawfulFoundation.doubleValue_int (Double.ofInt n hlt) n rfl hn
      change ((Foundation.doubleValue (toString n).toList).getD 0).value = _
      rw [hint, Option.getD_some]
      rfl
    · refine ofText_of_read _ hread hdistinct hdepth (hfoundation.imp fun n hn => ?_)
      obtain ⟨x, hx⟩ := Option.isSome_iff_exists.1 hn
      rw [hx, Option.getD_some]

namespace Android

open Markdown.Android (isWhitespace)

variable [LawfulOrgJson] {o : JSONObject}

omit [JsonReader] [Foundation] [LawfulOrgJson] in
private theorem optStringOrNull_none {key : String} (h : o.opt key = none) : o.optStringOrNull key = none := by
  simp [JSONObject.optStringOrNull, JSONObject.has, h]

omit [JsonReader] [Foundation] [LawfulOrgJson] in
private theorem resultOf_string (h : o.opt "result" = some (.string text)) :
    resultOf o = (OrgJson.jsonObject text).map JSONObject.mk := by
  simp [resultOf, JSONObject.optStringOrNull, JSONObject.has, JSONObject.isNull, JSONObject.optString, h,
    JSONObject.toText]

private theorem inlineDiffOf_eq (h : o.opt "result" = some (.string text)) (hinline : o.opt "inline_diff" = none)
    (hdiff : o.opt "diff" = none) (hresult : ResultText text fields) :
    inlineDiffOf o = diffOf isWhitespace fields := by
  rw [inlineDiffOf, resultOf_string h, optStringOrNull_none hinline, optStringOrNull_none hdiff]
  rcases hresult.org with ⟨hnone, rfl⟩ | ⟨hplain, g, -, hsome⟩
  · rw [hnone]
    rfl
  · have hfirst := optStringOrNull_map g (hplain.diff "inline_diff" (by simp))
    have hsecond := optStringOrNull_map g (hplain.diff "diff" (by simp))
    rw [hsome]
    simp only [Option.map_some, Option.bind_some, hfirst, hsecond]
    rfl

private theorem exitCodeOf_eq (h : o.opt "result" = some (.string text)) (hexit : o.opt "exit_code" = none)
    (hresult : ResultText text fields) : exitCodeOf o = intAt fields "exit_code" := by
  have hhas : o.has "exit_code" = false := by simp [JSONObject.has, hexit]
  rw [exitCodeOf, resultOf_string h, hhas]
  rcases hresult.org with ⟨hnone, rfl⟩ | ⟨hplain, g, hint, hsome⟩
  · rw [hnone]
    rfl
  · rw [hsome]
    exact exit_map g hint hplain.exit

end Android

end

section

variable [Serializer] [JsonReader] [OrgJson] [Foundation] [SerdeText]

omit [JsonReader] [OrgJson] [Foundation] [SerdeText] in
private theorem optJSONArray_rowObject {duration : Double} {kind : RowKind} {key : String}
    {items : List (Json Number)} (h : (rowFields kind).lookup key = some (.array items)) :
    (rowObject duration kind).optJSONArray key = some (items.map fun item => item.map fun _ => .double duration) := by
  rw [JSONObject.optJSONArray, rowObject, opt_map, h, Option.map_some, Json.map, Json.mapItems_eq]

theorem Android.parseChatRow_rowText [LawfulOrgJson] (id : ℕ) (row : Row) {duration : Double}
    {result : List (String × Json Number)} (h : Readable row.kind duration result) :
    Android.parseChatRow id (rowText row) = row.kind.chatRow Markdown.Android.isWhitespace id duration result
      (OrgJson.text (.array (questionItems row.kind.questions))) := by
  obtain ⟨index, kind⟩ := row
  rw [Android.parseChatRow, jsonObject_rowText _ h.measures]
  cases kind with
  | tool card =>
    change ChatRow.tool id card.name card.complete card.context card.argsJson card.resultJson
      (Android.inlineDiffOf (rowObject duration (.tool card))) (.finite duration)
      (Android.exitCodeOf (rowObject duration (.tool card))) = _
    have hresult := h.result card rfl
    rw [Android.inlineDiffOf_eq rfl rfl rfl hresult, Android.exitCodeOf_eq rfl rfl hresult]
    rfl
  | approval card =>
    have hchoices : (rowObject duration (.approval card)).optJSONArray "choices" = _ := optJSONArray_rowObject rfl
    change ChatRow.approval id card.requestId card.command card.description
      ((((rowObject duration (.approval card)).optJSONArray "choices").map fun arr =>
        (arr.map JSONObject.toText).filter fun s => !isBlank Markdown.Android.isWhitespace s).getD []) card.resolved = _
    rw [hchoices, List.map_map, Option.map_some, Option.getD_some, List.map_map]
    exact congrArg (ChatRow.approval id card.requestId card.command card.description · card.resolved)
      (congrArg (List.filter _) (List.map_id card.choices))
  | clarify card =>
    have hquestions : (rowObject duration (.clarify card)).optJSONArray "questions" = _ := optJSONArray_rowObject rfl
    change ChatRow.clarify id card.requestId
      ((((rowObject duration (.clarify card)).optJSONArray "questions").map fun items =>
        OrgJson.text (.array items)).getD "[]") card.resolved = _
    rw [hquestions, map_questionItems]
    rfl
  | _ => rfl

end

/-! ### On iOS -/

/-- A text that is not there counts as blank. -/
private theorem find_getD (white : Char → Bool) (sources : List (Option String)) :
    ((sources.map fun s => s.getD "").find? fun s => !isBlank white s).getD "" =
      ((sources.filterMap id).find? fun s => !isBlank white s).getD "" := by
  have hblank : isBlank white "" = true := rfl
  induction sources with
  | nil => rfl
  | cons source sources ih =>
    cases source with
    | none => simpa [hblank] using ih
    | some s =>
      by_cases h : isBlank white s = true
      · simpa [h] using ih
      · simp [h]

private theorem field_of_not_isObject {json : LooseJSON} (h : json.isObject = false) (key : String) :
    json.field key = none := by
  unfold LooseJSON.isObject at h
  unfold LooseJSON.field
  split at h
  · cases h
  · rfl

section

variable [Serializer] [JsonReader] [OrgJson] [Foundation]

section

variable [LawfulFoundation] {duration : Double} {kind : RowKind} {key : String}

omit [JsonReader] [OrgJson]

private theorem field_rowTree : (rowTree duration kind).field key =
    ((rowFields kind).lookup key).map fun value => LooseJSON.convert (value.map fun _ => duration) :=
  field_map _ (distinct_row kind)

private theorem optString_rowTree {s : String} (h : (rowFields kind).lookup key = some (.string s)) :
    (rowTree duration kind).optString key = s := by
  rw [LooseJSON.optString, field_rowTree, h]
  rfl

private theorem optString_missing (h : (rowFields kind).lookup key = none) :
    (rowTree duration kind).optString key = "" := by
  rw [LooseJSON.optString, field_rowTree, h]
  rfl

private theorem optBool_rowTree {b : Bool} (h : (rowFields kind).lookup key = some (.bool b)) :
    (rowTree duration kind).optBool key = b := by
  rw [LooseJSON.optBool, field_rowTree, h]
  rfl

private theorem optDouble_rowTree {n : Number} (h : (rowFields kind).lookup key = some (.number n)) :
    (rowTree duration kind).optDouble key = .finite duration := by
  rw [LooseJSON.optDouble, field_rowTree, h]
  rfl

private theorem optArray_rowTree {items : List (Json Number)} (h : (rowFields kind).lookup key = some (.array items)) :
    (rowTree duration kind).optArray key =
      items.map fun item => ⟨LooseJSON.convert (item.map fun _ => duration)⟩ := by
  rw [LooseJSON.optArray, field_rowTree, h, Option.map_some, Json.map, LooseJSON.convert, LooseJSON.convertItems_eq,
    Json.mapItems_eq]
  simp

end

namespace Ios

open Foundation (isWhitespaceOrNewline)

variable [LawfulFoundation] {duration : Double} {card : ToolCard} {result : List (String × Json Number)}

private theorem inlineDiffOf_eq (hresult : ResultText card.resultJson result) :
    inlineDiffOf (rowTree duration (.tool card)) = diffOf isWhitespaceOrNewline result := by
  have hraw : (rowTree duration (.tool card)).optString "result" = card.resultJson := optString_rowTree rfl
  have hinline : (rowTree duration (.tool card)).optString "inline_diff" = "" := optString_missing rfl
  have hdiff : (rowTree duration (.tool card)).optString "diff" = "" := optString_missing rfl
  have hsources := find_getD isWhitespaceOrNewline
    [none, none, textAt result "inline_diff", textAt result "diff"]
  rw [inlineDiffOf, hraw, hinline, hdiff]
  rcases hresult.foundation with ⟨hnone, rfl⟩ | ⟨hdistinct, hplain, g, -, hsome⟩
  · cases hread : LooseJSON.ofText card.resultJson with
    | none => exact hsources
    | some json =>
      have hfield := field_of_not_isObject (hnone json hread)
      simp only [Option.map_some, LooseJSON.optString, hfield]
      exact hsources
  · have hfirst := optString_map g hdistinct (hplain.diff "inline_diff" (by simp))
    have hsecond := optString_map g hdistinct (hplain.diff "diff" (by simp))
    rw [hsome]
    simp only [Option.map_some, Option.getD_some, hfirst, hsecond]
    exact hsources

private theorem exitCodeOf_eq (hresult : ResultText card.resultJson result) :
    exitCodeOf (rowTree duration (.tool card)) = intAt result "exit_code" := by
  have hraw : (rowTree duration (.tool card)).optString "result" = card.resultJson := optString_rowTree rfl
  have hhas : (rowTree duration (.tool card)).has "exit_code" = false := by
    rw [LooseJSON.has, field_rowTree]
    rfl
  rw [exitCodeOf, hraw, hhas]
  rcases hresult.foundation with ⟨hnone, rfl⟩ | ⟨hdistinct, hplain, g, hint, hsome⟩
  · cases hread : LooseJSON.ofText card.resultJson with
    | none => rfl
    | some json =>
      have hfield := field_of_not_isObject (hnone json hread)
      simp [LooseJSON.has, hfield, intAt]
  · rw [hsome]
    exact exitCode_map g hdistinct hint hplain.exit

omit [JsonReader] [OrgJson] in
private theorem questionsJson_eq (card : ClarifyCard) :
    questionsJson (rowTree duration (.clarify card)) =
      LooseJSON.renderCompact (LooseJSON.convert (.array (questionItems card.questions))) := by
  have hitems : (rowTree duration (.clarify card)).optArray "questions" =
      (questionItems card.questions).map fun item => ⟨LooseJSON.convert item⟩ := by
    have hmap := congrArg (List.map fun item => LooseJSON.mk (LooseJSON.convert item))
      (map_questionItems (fun _ : Number => duration) card.questions)
    rw [List.map_map] at hmap
    rw [optArray_rowTree rfl]
    exact hmap
  rw [questionsJson, hitems, LooseJSON.convert, LooseJSON.convertItems_eq, LooseJSON.renderCompact,
    LooseJSON.renderCompactItems_eq, List.map_map, List.map_map]
  split
  · rename_i hempty
    rw [List.isEmpty_iff, List.map_eq_nil_iff] at hempty
    rw [hempty]
    rfl
  · rfl

end Ios

theorem Ios.parseChatRow_rowText [SerdeText] [LawfulFoundation] (id : ℕ) (row : Row) {duration : Double}
    {result : List (String × Json Number)} (h : Readable row.kind duration result) :
    Ios.parseChatRow id (rowText row) = row.kind.chatRow Foundation.isWhitespaceOrNewline id duration result
      (LooseJSON.renderCompact (LooseJSON.convert (.array (questionItems row.kind.questions)))) := by
  obtain ⟨index, kind⟩ := row
  have hobject : (rowTree duration kind).isObject = true := rfl
  have hkind {s : String} (h : (rowFields kind).lookup "kind" = some (.string s)) :
      (rowTree duration kind).optString "kind" = s := optString_rowTree h
  rw [Ios.parseChatRow, ofText_rowText _ h.measures]
  dsimp only
  rw [hobject, Bool.not_true, if_neg Bool.false_ne_true]
  cases kind with
  | user text =>
    rw [hkind rfl]
    change ChatRow.user _ _ = _
    rw [optString_rowTree rfl]
    rfl
  | assistant text streaming usage warning =>
    rw [hkind rfl]
    change ChatRow.assistant _ _ _ _ _ = _
    rw [optString_rowTree rfl, optString_rowTree rfl, optString_rowTree rfl, optBool_rowTree rfl]
    rfl
  | thinking text =>
    rw [hkind rfl]
    change ChatRow.thinking _ _ = _
    rw [optString_rowTree rfl]
    rfl
  | tool card =>
    rw [hkind rfl]
    change ChatRow.tool _ _ _ _ _ _ _ _ _ = _
    have hresult := h.result card rfl
    rw [Ios.inlineDiffOf_eq hresult, Ios.exitCodeOf_eq hresult, optString_rowTree rfl, optString_rowTree rfl,
      optString_rowTree rfl, optString_rowTree rfl, optBool_rowTree rfl, optDouble_rowTree rfl]
    rfl
  | approval card =>
    have hchoices : ((rowTree duration (.approval card)).optArray "choices").map (·.stringValue) = card.choices := by
      rw [optArray_rowTree rfl, List.map_map, List.map_map]
      exact List.map_id card.choices
    rw [hkind rfl]
    change ChatRow.approval _ _ _ _ _ _ = _
    rw [hchoices, optString_rowTree rfl, optString_rowTree rfl, optString_rowTree rfl, optBool_rowTree rfl]
    rfl
  | clarify card =>
    have hquestions : Ios.questionsJson (rowTree duration (.clarify card)) =
        LooseJSON.renderCompact (LooseJSON.convert (.array (questionItems card.questions))) :=
      Ios.questionsJson_eq card
    rw [hkind rfl]
    change ChatRow.clarify _ _ _ _ = _
    rw [hquestions, optString_rowTree rfl, optBool_rowTree rfl]
    rfl
  | status kind text =>
    rw [hkind rfl]
    change ChatRow.status _ _ _ = _
    rw [optString_rowTree rfl, optString_rowTree rfl]
    rfl
  | error message =>
    rw [hkind rfl]
    change ChatRow.error _ _ = _
    rw [optString_rowTree rfl]
    rfl

end

end Hermo
