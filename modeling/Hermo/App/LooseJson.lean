import Mathlib.Data.Rat.Floor
import Hermo.Json
import Hermo.Library.Rfc8259
import Hermo.Transcript.Markdown

/-!
# JSON on iOS

`LooseJSON.swift`: a tree whose accessors fall back to a default, and the two texts it is written as.  What Foundation
does is the class `Foundation`.  `LooseJSON.read_render` and `LooseJSON.read_renderCompact` say that a reader of RFC
8259 gets the tree back from either text.
-/

namespace Hermo

open Rfc8259 (Json Token)

/-- A finite `Double`, by the number it stands for. -/
structure Double where
  value : ℚ
  isDouble : ∃ m e : ℤ, |m| < 2 ^ 53 ∧ -1074 ≤ e ∧ e ≤ 971 ∧ value = m * 2 ^ e

namespace Double

@[ext] theorem ext {x y : Double} (h : x.value = y.value) : x = y := by
  cases x
  cases y
  cases h
  rfl

instance : DecidableEq Double := fun x y => decidable_of_iff (x.value = y.value) ⟨ext, fun h => h ▸ rfl⟩

/-- An integer of at most 53 bits. -/
def ofInt (n : ℤ) (h : |n| < 2 ^ 53) : Double := ⟨n, n, 0, h, by decide, by decide, by simp⟩

instance : Zero Double := ⟨ofInt 0 (by decide)⟩

end Double

/-- What `Double(_:)` makes of a text. -/
inductive ParsedDouble where
  | finite (x : Double)
  | infinity (negative : Bool)
  | nan

/-- What `LooseJSON` uses of Foundation and of Swift. -/
class Foundation where
  /-- `JSONSerialization.jsonObject`, with the double of each number. -/
  jsonObject : String → Option (Json Double)
  /-- `allKeys` of a dictionary with these keys. -/
  allKeys : List String → List String
  /-- `String(_:)` of a double. -/
  description : Double → String
  /-- `Double(_:)` of a string. -/
  parseDouble : String → Option ParsedDouble
  /-- `caseInsensitiveCompare`, where it is `orderedSame`. -/
  sameIgnoringCase : String → String → Bool
  /-- The members of `CharacterSet.whitespacesAndNewlines`. -/
  isWhitespaceOrNewline : Char → Bool
  /-- `JSONSerialization.data` of a list of strings, as a text. -/
  stringsText : List String → String
  /-- The `doubleValue` of the number a token is read as, if it is in range. -/
  doubleValue : Token → Option Double

/-- What is documented of them: the texts of RFC 8259 are read, down to the depth that is read at all, and the text of
a double is read as that double. -/
class LawfulFoundation [Foundation] : Prop where
  jsonObject_of_read (text : String) (parsed : Json Token) (h : Rfc8259.read text.toList = some parsed)
    (hdistinct : parsed.Distinct) (hdepth : parsed.depth ≤ 512) :
    Foundation.jsonObject text = parsed.traverse Foundation.doubleValue
  distinct_jsonObject (text : String) (parsed : Json Double) (h : Foundation.jsonObject text = some parsed) :
    parsed.Distinct ∧ parsed.depth ≤ 512
  allKeys_perm (keys : List String) (h : keys.Nodup) : (Foundation.allKeys keys).Perm keys
  isNumber_description (x : Double) : Rfc8259.isNumber (Foundation.description x).toList = true
  doubleValue_description (x : Double) : Foundation.doubleValue (Foundation.description x).toList = some x
  read_stringsText (ss : List String) :
    Rfc8259.read (Foundation.stringsText ss).toList = some (.array (ss.map .string))
  isWhitespaceOrNewline_space (c : Char) (h : Rfc8259.isSpace c = true) : Foundation.isWhitespaceOrNewline c = true
  isWhitespaceOrNewline_ascii (c : Char) (hlow : 0x20 < c.toNat) (hhigh : c.toNat < 0x7f) :
    Foundation.isWhitespaceOrNewline c = false
  doubleValue_int (x : Double) (n : ℤ) (h : x.value = n) (hn : |n| < 10 ^ 15) :
    Foundation.doubleValue (toString n).toList = some x

abbrev LooseJSONValue := Json Double

/-- A JSON tree whose accessors never fail. -/
structure LooseJSON where
  root : LooseJSONValue

namespace LooseJSON

/-! ### Texts -/

/-- The characters `%04x` writes. -/
def hex4 (n : Nat) : List Char := (Nat.toDigits 16 n).leftpad 4 '0'

def encodeScalar (scalar : Char) : List Char :=
  match scalar with
  | '"' => ['\\', '"']
  | '\\' => ['\\', '\\']
  | '\n' => ['\\', 'n']
  | '\r' => ['\\', 'r']
  | '\t' => ['\\', 't']
  | scalar => if scalar.toNat < 0x20 then '\\' :: 'u' :: hex4 scalar.toNat else [scalar]

def encodeString (s : String) : String := String.ofList ('"' :: (s.toList.flatMap encodeScalar ++ ['"']))

section

variable [Foundation]

/-- An integer below `1e15` has no point and no exponent. -/
def numberText (n : Double) : String :=
  if n.value.den = 1 ∧ |n.value| < 10 ^ 15 then toString n.value.num else Foundation.description n

/-- `String(repeating: " ", count: count)`. -/
def spaces (count : Nat) : String := String.ofList (List.replicate count ' ')

mutual

def render (indent level : Nat) : LooseJSONValue → String
  | .null => "null"
  | .bool b => if b then "true" else "false"
  | .number n => numberText n
  | .string s => encodeString s
  | .array items =>
    if items.isEmpty then "[]"
    else
      let pad := spaces (indent * (level + 1))
      let closePad := spaces (indent * level)
      let body := String.intercalate ",\n" ((renderItems indent (level + 1) items).map (pad ++ ·))
      "[\n" ++ body ++ "\n" ++ closePad ++ "]"
  | .object fields =>
    if fields.isEmpty then "\x7b\x7d"
    else
      let pad := spaces (indent * (level + 1))
      let closePad := spaces (indent * level)
      let body := String.intercalate ",\n" ((renderFields indent (level + 1) fields).map (pad ++ ·))
      "\x7b\n" ++ body ++ "\n" ++ closePad ++ "\x7d"

def renderItems (indent level : Nat) : List LooseJSONValue → List String
  | [] => []
  | item :: items => render indent level item :: renderItems indent level items

def renderFields (indent level : Nat) : List (String × LooseJSONValue) → List String
  | [] => []
  | (key, value) :: fields =>
    (encodeString key ++ ": " ++ render indent level value) :: renderFields indent level fields

end

mutual

def renderCompact : LooseJSONValue → String
  | .null => "null"
  | .bool b => if b then "true" else "false"
  | .number n => numberText n
  | .string s => encodeString s
  | .array items => "[" ++ String.intercalate "," (renderCompactItems items) ++ "]"
  | .object fields => "\x7b" ++ String.intercalate "," (renderCompactFields fields) ++ "\x7d"

def renderCompactItems : List LooseJSONValue → List String
  | [] => []
  | item :: items => renderCompact item :: renderCompactItems items

def renderCompactFields : List (String × LooseJSONValue) → List String
  | [] => []
  | (key, value) :: fields => (encodeString key ++ ":" ++ renderCompact value) :: renderCompactFields fields

end

def pretty (json : LooseJSON) (indent : Nat := 2) : String := render indent 0 json.root

def compact (json : LooseJSON) : String := renderCompact json.root

theorem renderCompactItems_eq (items : List LooseJSONValue) : renderCompactItems items = items.map renderCompact := by
  induction items with
  | nil => rfl
  | cons item items ih => rw [renderCompactItems, ih, List.map_cons]

/-! ### Reading -/

mutual

/-- `convert`: the fields of a dictionary come in the order of `allKeys`. -/
def convert : Json Double → LooseJSONValue
  | .null => .null
  | .bool b => .bool b
  | .number n => .number n
  | .string s => .string s
  | .array items => .array (convertItems items)
  | .object fields =>
    let values := convertFields fields
    .object ((Foundation.allKeys (fields.map Prod.fst)).filterMap fun key =>
      (values.lookup key).map fun value => (key, value))

def convertItems : List (Json Double) → List LooseJSONValue
  | [] => []
  | item :: items => convert item :: convertItems items

def convertFields : List (String × Json Double) → List (String × LooseJSONValue)
  | [] => []
  | (key, value) :: fields => (key, convert value) :: convertFields fields

end

/-- `LooseJSON(text)`. -/
def ofText (text : String) : Option LooseJSON := (Foundation.jsonObject text).map fun parsed => ⟨convert parsed⟩

/-- `LooseJSON(value)`, for what `JSONSerialization` returned. -/
def ofParsed (parsed : Json Double) : LooseJSON := ⟨convert parsed⟩

/-! ### Accessors -/

/-- The names asked for are such that no other text is canonically equivalent to them. -/
def field (json : LooseJSON) (key : String) : Option LooseJSONValue :=
  match json.root with
  | .object fields => (fields.reverse.lookup key)
  | _ => none

def has (json : LooseJSON) (key : String) : Bool :=
  match json.field key with
  | none => false
  | some .null => false
  | some _ => true

def isObject (json : LooseJSON) : Bool :=
  match json.root with
  | .object _ => true
  | _ => false

def stringCoercion : LooseJSONValue → Option String
  | .string s => some s
  | .bool b => some (if b then "true" else "false")
  | .number n => some (numberText n)
  | .object fields => some (renderCompact (.object fields))
  | .array items => some (renderCompact (.array items))
  | .null => none

def numberCoercion : LooseJSONValue → Option ParsedDouble
  | .number n => some (.finite n)
  | .string s => Foundation.parseDouble s
  | _ => none

/-- `Int64(n)`, which cuts off the fraction. -/
def truncate (x : ℚ) : ℤ := if 0 ≤ x then ⌊x⌋ else ⌈x⌉

def saturatingInt64 : ParsedDouble → ℤ
  | .nan => 0
  | .infinity negative => if negative then i64Min else i64Max
  | .finite x => if x.value ≥ 2 ^ 63 then i64Max else if x.value < -2 ^ 63 then i64Min else truncate x.value

def optString (json : LooseJSON) (key : String) (def' : String := "") : String :=
  match json.field key with
  | none => def'
  | some value => (stringCoercion value).getD def'

/-- `Int(clamping:)` does nothing to an `Int64`. -/
def optInt (json : LooseJSON) (key : String) (def' : ℤ := 0) : ℤ :=
  match (json.field key).bind numberCoercion with
  | none => def'
  | some n => saturatingInt64 n

def optDouble (json : LooseJSON) (key : String) (def' : ParsedDouble := .finite 0) : ParsedDouble :=
  ((json.field key).bind numberCoercion).getD def'

def optBool (json : LooseJSON) (key : String) (def' : Bool := false) : Bool :=
  match json.field key with
  | some (.bool b) => b
  | some (.string s) =>
    if Foundation.sameIgnoringCase s "true" then true
    else if Foundation.sameIgnoringCase s "false" then false
    else def'
  | _ => def'

def optArray (json : LooseJSON) (key : String) : List LooseJSON :=
  match json.field key with
  | some (.array items) => items.map LooseJSON.mk
  | _ => []

def stringValue (json : LooseJSON) (def' : String := "") : String := (stringCoercion json.root).getD def'

end

/-! ### Tables made key by key -/

private theorem lookup_filterMap {α : Type} (g : String → Option α) (keys : List String) (key : String) :
    (keys.filterMap fun k => (g k).map fun value => (k, value)).lookup key = if key ∈ keys then g key else none := by
  induction keys with
  | nil => simp
  | cons k keys ih =>
    by_cases h : key = k
    · subst h
      cases hg : g key with
      | none =>
        rw [List.filterMap_cons_none (by simp [hg]), ih]
        simp [hg]
      | some value => simp [hg]
    · have hne : (key == k) = false := by simpa using h
      cases hg : g k with
      | none =>
        rw [List.filterMap_cons_none (by simp [hg]), ih]
        simp [h]
      | some value =>
        rw [List.filterMap_cons_some (by simp [hg]; rfl), List.lookup_cons, hne, ih]
        simp [h]

private theorem keys_filterMap {α : Type} (g : String → Option α) (keys : List String) :
    ((keys.filterMap fun k => (g k).map fun value => (k, value)).map Prod.fst).Sublist keys := by
  induction keys with
  | nil => simp
  | cons k keys ih =>
    cases hg : g k with
    | none =>
      rw [List.filterMap_cons_none (by simp [hg])]
      exact ih.cons k
    | some value => simpa [hg] using ih

/-! ### The texts are read back -/

private theorem hex4_eq : ∀ n < 32, ∃ c d, hex4 n = ['0', '0', c, d] ∧ Rfc8259.hexUnit '0' '0' c d = some n := by
  intro n hn
  refine ⟨(hex4 n).getD 2 '0', (hex4 n).getD 3 '0', ?_⟩
  interval_cases n <;> decide

private theorem readString_encodeScalar (c : Char) (rest : List Char) :
    Rfc8259.readString (encodeScalar c ++ rest) =
      (Rfc8259.readString rest).map fun (cs, rest) => (c :: cs, rest) := by
  unfold encodeScalar
  split
  · simp [Rfc8259.readString, Rfc8259.shortEscape]
  · simp [Rfc8259.readString, Rfc8259.shortEscape]
  · simp [Rfc8259.readString, Rfc8259.shortEscape]
  · simp [Rfc8259.readString, Rfc8259.shortEscape]
  · simp [Rfc8259.readString, Rfc8259.shortEscape]
  · rename_i hquote hback _ _ _
    by_cases hc : c.toNat < 0x20
    · obtain ⟨a, b, hhex, hunit⟩ := hex4_eq c.toNat hc
      have hhigh : Rfc8259.highSurrogate c.toNat = false := by
        simp [Rfc8259.highSurrogate]
        omega
      have hlow : Rfc8259.lowSurrogate c.toNat = false := by
        simp [Rfc8259.lowSurrogate]
        omega
      rw [if_pos hc, hhex]
      simp [Rfc8259.readString, hunit, hhigh, hlow]
    · rw [if_neg hc, List.singleton_append, Rfc8259.readString]
      · simp [hc]
      all_goals simp_all

/-- How both texts write the characters of a string. -/
def escaping : Rfc8259.Escaping := ⟨encodeScalar, readString_encodeScalar⟩

theorem toList_encodeString (s : String) : (encodeString s).toList = escaping.quoted s := String.toList_ofList

private theorem isSpace_replicate {c : Char} (h : Rfc8259.isSpace c = true) (n : Nat) :
    ∀ d ∈ c :: List.replicate n ' ', Rfc8259.isSpace d = true := by
  intro d hd
  rcases List.mem_cons.1 hd with rfl | hd
  · exact h
  · rw [List.eq_of_mem_replicate hd]
    decide

/-- One line for each item and field. -/
def prettyLayout (indent : Nat) : Rfc8259.Layout where
  first level := '\n' :: List.replicate (indent * (level + 1)) ' '
  next level := '\n' :: List.replicate (indent * (level + 1)) ' '
  last level := '\n' :: List.replicate (indent * level) ' '
  colon := [' ']
  space_first _ := isSpace_replicate (by decide) _
  space_next _ := isSpace_replicate (by decide) _
  space_last _ := isSpace_replicate (by decide) _
  space_colon := isSpace_replicate (by decide) 0

/-- No white space. -/
def compactLayout : Rfc8259.Layout where
  first _ := []
  next _ := []
  last _ := []
  colon := []
  space_first := by simp
  space_next := by simp
  space_last := by simp
  space_colon := by simp

/-- Texts, each behind a separator. -/
def joined (sep : String) (texts : List String) : List Char := texts.flatMap fun text => sep.toList ++ text.toList

private theorem toList_intercalate (sep first : String) (texts : List String) :
    (sep.intercalate (first :: texts)).toList = first.toList ++ joined sep texts := by
  induction texts generalizing first with
  | nil => simp [joined]
  | cons second texts ih =>
    rw [String.intercalate_cons_cons, String.toList_append, String.toList_append, ih]
    simp [joined]

section

variable [Foundation]

/-- The text of a number. -/
def token (n : Double) : Token := (numberText n).toList

private theorem toList_renderArray (indent level : Nat) (item : LooseJSONValue) (items : List LooseJSONValue) :
    (render indent level (.array (item :: items))).toList =
      '[' :: ('\n' :: List.replicate (indent * (level + 1)) ' ' ++ ((render indent (level + 1) item).toList ++
        (joined ",\n" ((renderItems indent (level + 1) items).map (spaces (indent * (level + 1)) ++ ·)) ++
          ('\n' :: List.replicate (indent * level) ' ' ++ [']'])))) := by
  rw [render]
  simp only [List.isEmpty_cons, Bool.false_eq_true, ↓reduceIte, renderItems, List.map_cons, String.toList_append,
    toList_intercalate]
  simp [spaces]

private theorem toList_renderObject (indent level : Nat) (key : String) (value : LooseJSONValue)
    (fields : List (String × LooseJSONValue)) :
    (render indent level (.object ((key, value) :: fields))).toList =
      '\x7b' :: ('\n' :: List.replicate (indent * (level + 1)) ' ' ++ ((encodeString key).toList ++ ':' :: ' ' ::
        ((render indent (level + 1) value).toList ++
          (joined ",\n" ((renderFields indent (level + 1) fields).map (spaces (indent * (level + 1)) ++ ·)) ++
            ('\n' :: List.replicate (indent * level) ' ' ++ ['\x7d']))))) := by
  rw [render]
  simp only [List.isEmpty_cons, Bool.false_eq_true, ↓reduceIte, renderFields, List.map_cons, String.toList_append,
    toList_intercalate]
  simp [spaces]

mutual

theorem toList_render (indent : Nat) : ∀ (level : Nat) (x : LooseJSONValue),
    (render indent level x).toList = Rfc8259.write escaping (prettyLayout indent) level (x.map token)
  | _, .null => by simp [render, Json.map, Rfc8259.write]
  | _, .bool true => by simp [render, Json.map, Rfc8259.write]
  | _, .bool false => by simp [render, Json.map, Rfc8259.write]
  | _, .number n => rfl
  | _, .string s => toList_encodeString s
  | _, .array [] => by simp [render, Json.map, Rfc8259.write]
  | level, .array (item :: items) => by
    rw [toList_renderArray, toList_render indent (level + 1) item, toList_renderItems indent level items]
    rfl
  | _, .object [] => by simp [render, Json.map, Rfc8259.write]
  | level, .object ((key, value) :: fields) => by
    rw [toList_renderObject, toList_render indent (level + 1) value, toList_renderFields indent level fields,
      toList_encodeString]
    rfl

theorem toList_renderItems (indent : Nat) : ∀ (level : Nat) (items : List LooseJSONValue),
    joined ",\n" ((renderItems indent (level + 1) items).map (spaces (indent * (level + 1)) ++ ·)) ++
        ('\n' :: List.replicate (indent * level) ' ' ++ [']']) =
      Rfc8259.writeItems escaping (prettyLayout indent) level (Json.mapItems token items)
  | level, [] => by
    simp [renderItems, Json.mapItems, Rfc8259.writeItems, prettyLayout, joined]
  | level, item :: items => by
    have hitem := toList_render indent (level + 1) item
    have hitems := toList_renderItems indent level items
    rw [Json.mapItems, Rfc8259.writeItems, ← hitem, ← hitems, renderItems]
    simp [joined, prettyLayout, spaces]

theorem toList_renderFields (indent : Nat) : ∀ (level : Nat) (fields : List (String × LooseJSONValue)),
    joined ",\n" ((renderFields indent (level + 1) fields).map (spaces (indent * (level + 1)) ++ ·)) ++
        ('\n' :: List.replicate (indent * level) ' ' ++ ['\x7d']) =
      Rfc8259.writeFields escaping (prettyLayout indent) level (Json.mapFields token fields)
  | level, [] => by
    simp [renderFields, Json.mapFields, Rfc8259.writeFields, prettyLayout, joined]
  | level, (key, value) :: fields => by
    have hvalue := toList_render indent (level + 1) value
    have hfields := toList_renderFields indent level fields
    rw [Json.mapFields, Rfc8259.writeFields, ← hvalue, ← hfields, renderFields, ← toList_encodeString]
    simp [joined, prettyLayout, spaces]

end

mutual

theorem toList_renderCompact : ∀ (level : Nat) (x : LooseJSONValue),
    (renderCompact x).toList = Rfc8259.write escaping compactLayout level (x.map token)
  | _, .null => by simp [renderCompact, Json.map, Rfc8259.write]
  | _, .bool true => by simp [renderCompact, Json.map, Rfc8259.write]
  | _, .bool false => by simp [renderCompact, Json.map, Rfc8259.write]
  | _, .number n => rfl
  | _, .string s => toList_encodeString s
  | _, .array [] => by simp [renderCompact, renderCompactItems, Json.map, Rfc8259.write]
  | level, .array (item :: items) => by
    have hclose : "]".toList = [']'] := rfl
    rw [renderCompact, renderCompactItems, String.toList_append, String.toList_append, toList_intercalate, hclose,
      List.append_assoc, List.append_assoc, toList_renderCompact (level + 1) item, toList_renderCompactItems level items]
    rfl
  | _, .object [] => by simp [renderCompact, renderCompactFields, Json.map, Rfc8259.write]
  | level, .object ((key, value) :: fields) => by
    have hclose : "\x7d".toList = ['\x7d'] := rfl
    rw [renderCompact, renderCompactFields, String.toList_append, String.toList_append, toList_intercalate, hclose,
      List.append_assoc, List.append_assoc, toList_renderCompactFields level fields, String.toList_append,
      String.toList_append, toList_renderCompact (level + 1) value, toList_encodeString]
    simp [Json.map, Json.mapFields, Rfc8259.write, compactLayout]

theorem toList_renderCompactItems : ∀ (level : Nat) (items : List LooseJSONValue),
    joined "," (renderCompactItems items) ++ [']'] =
      Rfc8259.writeItems escaping compactLayout level (Json.mapItems token items)
  | level, [] => by simp [renderCompactItems, Json.mapItems, Rfc8259.writeItems, compactLayout, joined]
  | level, item :: items => by
    have hitem := toList_renderCompact (level + 1) item
    have hitems := toList_renderCompactItems level items
    rw [Json.mapItems, Rfc8259.writeItems, ← hitem, ← hitems, renderCompactItems]
    simp [joined, compactLayout]

theorem toList_renderCompactFields : ∀ (level : Nat) (fields : List (String × LooseJSONValue)),
    joined "," (renderCompactFields fields) ++ ['\x7d'] =
      Rfc8259.writeFields escaping compactLayout level (Json.mapFields token fields)
  | level, [] => by simp [renderCompactFields, Json.mapFields, Rfc8259.writeFields, compactLayout, joined]
  | level, (key, value) :: fields => by
    have hvalue := toList_renderCompact (level + 1) value
    have hfields := toList_renderCompactFields level fields
    rw [Json.mapFields, Rfc8259.writeFields, ← hvalue, ← hfields, renderCompactFields, ← toList_encodeString]
    simp [joined, compactLayout]

end

variable [LawfulFoundation]

theorem isNumber_token (n : Double) : Rfc8259.isNumber (token n) = true := by
  unfold token numberText
  split
  · exact Rfc8259.isNumber_toString _
  · exact LawfulFoundation.isNumber_description n

theorem ok_token (x : LooseJSONValue) : (x.map token).Ok := (Json.all_of_forall isNumber_token x).map

/-- Whatever the indent, the pretty text is a JSON text of the value. -/
theorem read_render (indent level : Nat) (x : LooseJSONValue) :
    Rfc8259.read (render indent level x).toList = some (x.map token) := by
  rw [toList_render]
  exact Rfc8259.read_write _ _ (ok_token x) level

theorem read_renderCompact (x : LooseJSONValue) : Rfc8259.read (renderCompact x).toList = some (x.map token) := by
  rw [toList_renderCompact 0]
  exact Rfc8259.read_write _ _ (ok_token x) 0

theorem doubleValue_token (n : Double) : Foundation.doubleValue (token n) = some n := by
  unfold token numberText
  split
  · rename_i h
    have hnum : n.value = n.value.num := ((Rat.den_eq_one_iff n.value).1 h.1).symm
    have hlt : |(n.value.num : ℚ)| < 10 ^ 15 := by
      have h2 := h.2
      rwa [hnum] at h2
    exact LawfulFoundation.doubleValue_int n n.value.num hnum (by exact_mod_cast hlt)
  · exact LawfulFoundation.doubleValue_description n

/-! ### What is read -/

omit [LawfulFoundation] in
theorem convertItems_eq (items : List (Json Double)) : convertItems items = items.map convert := by
  induction items with
  | nil => rfl
  | cons item items ih => rw [convertItems, ih, List.map_cons]

omit [LawfulFoundation] in
theorem lookup_convertFields (fields : List (String × Json Double)) (key : String) :
    (convertFields fields).lookup key = (fields.lookup key).map convert := by
  induction fields with
  | nil => rfl
  | cons field fields ih =>
    obtain ⟨name, value⟩ := field
    rw [convertFields, List.lookup_cons, List.lookup_cons]
    by_cases h : key = name
    · simp [h]
    · have hne : (key == name) = false := by simpa using h
      simp [hne, ih]

omit [LawfulFoundation] in
/-- A table of the fields by the names of a list, which has them all. -/
private theorem lookup_convert {fields : List (String × Json Double)} {keys : List String} {key : String}
    (h : key ∈ keys ↔ key ∈ fields.map Prod.fst) :
    (keys.filterMap fun key => ((convertFields fields).lookup key).map fun value => (key, value)).lookup key =
      (fields.lookup key).map convert := by
  rw [lookup_filterMap, lookup_convertFields]
  by_cases hkey : key ∈ fields.map Prod.fst
  · rw [if_pos (h.2 hkey)]
  · have hnone : fields.lookup key = none := by
      rw [List.lookup_eq_none_iff]
      intro field hfield
      simp only [bne_iff_ne, ne_eq]
      rintro rfl
      exact hkey (List.mem_map_of_mem hfield)
    rw [if_neg (mt h.1 hkey), hnone]
    rfl

/-- The fields are read as they are in the dictionary, in whatever order they come. -/
theorem field_convert {fields : List (String × Json Double)} (h : (fields.map Prod.fst).Nodup) (key : String) :
    (LooseJSON.mk (convert (.object fields))).field key = (fields.lookup key).map convert := by
  rw [convert, field]
  simp only
  rw [← List.filterMap_reverse]
  refine lookup_convert ?_
  rw [List.mem_reverse, (LawfulFoundation.allKeys_perm _ h).mem_iff]

omit [LawfulFoundation] in
private theorem mem_convert {fields : List (String × Json Double)} {keys : List String} {field : String × LooseJSONValue}
    (h : field ∈ keys.filterMap fun key => ((convertFields fields).lookup key).map fun value => (key, value)) :
    ∃ source ∈ fields, field = (source.1, convert source.2) := by
  obtain ⟨key, -, hfield⟩ := List.mem_filterMap.1 h
  rw [lookup_convertFields, Option.map_map, Option.map_eq_some_iff] at hfield
  obtain ⟨value, hvalue, rfl⟩ := hfield
  obtain ⟨before, after, rfl, -⟩ := List.lookup_eq_some_iff.1 hvalue
  exact ⟨(key, value), by simp, rfl⟩

theorem distinct_convert {x : Json Double} (h : x.Distinct) : (convert x).Distinct := by
  induction h with
  | null => exact .null
  | bool b => exact .bool b
  | number n => exact .number n
  | string s => exact .string s
  | array _ ih =>
    rw [convert, convertItems_eq]
    exact .array (by simpa using ih)
  | object hkeys _ ih =>
    rw [convert]
    refine .object ?_ ?_
    · exact ((LawfulFoundation.allKeys_perm _ hkeys).nodup_iff.2 hkeys).sublist (keys_filterMap _ _)
    · intro field hfield
      obtain ⟨source, hsource, rfl⟩ := mem_convert hfield
      exact ih source hsource

omit [LawfulFoundation] in
theorem depth_convert {x : Json Double} (h : x.Distinct) : (convert x).depth ≤ x.depth := by
  induction h with
  | null => exact Nat.le_refl _
  | bool b => exact Nat.le_refl _
  | number n => exact Nat.le_refl _
  | string s => exact Nat.le_refl _
  | @array items _ ih =>
    have hle : ∀ item ∈ items, item.depth ≤ Json.depthItems items := Json.depthItems_le.1 (Nat.le_refl _)
    rw [convert, convertItems_eq, Json.depth, Json.depth, Nat.add_le_add_iff_right, Json.depthItems_le]
    simp only [List.mem_map, forall_exists_index, and_imp, forall_apply_eq_imp_iff₂]
    exact fun item hitem => Nat.le_trans (ih item hitem) (hle item hitem)
  | @object fields _ _ ih =>
    have hle : ∀ field ∈ fields, field.2.depth ≤ Json.depthFields fields := Json.depthFields_le.1 (Nat.le_refl _)
    rw [convert, Json.depth, Json.depth, Nat.add_le_add_iff_right, Json.depthFields_le]
    intro field hfield
    obtain ⟨source, hsource, rfl⟩ := mem_convert hfield
    exact Nat.le_trans (ih source hsource) (hle source hsource)

/-- The order of the fields is all that changes. -/
theorem same_convert {x : Json Double} (h : x.Distinct) : x.Same (convert x) := by
  induction h with
  | null => exact .null
  | bool b => exact .bool b
  | number n => exact .number n
  | string s => exact .string s
  | array _ ih =>
    rw [convert, convertItems_eq]
    exact Json.same_array_map ih
  | object hkeys _ ih =>
    rw [convert]
    exact Json.same_object_lookup (fun key => lookup_convert (LawfulFoundation.allKeys_perm _ hkeys).mem_iff) ih

/-- A JSON text of a value is read as that value. -/
theorem jsonObject_of_read {text : String} {x : LooseJSONValue} (h : Rfc8259.read text.toList = some (x.map token))
    (hdistinct : x.Distinct) (hdepth : x.depth ≤ 512) : Foundation.jsonObject text = some x := by
  have hparsed := LawfulFoundation.jsonObject_of_read text _ h hdistinct.map (by rwa [Json.depth_map])
  have htokens := Json.traverse_map (h := id) (Json.all_of_forall doubleValue_token x)
  rw [Json.map_id] at htokens
  rw [hparsed, htokens]

theorem ofText_of_read {text : String} {x : LooseJSONValue} (h : Rfc8259.read text.toList = some (x.map token))
    (hdistinct : x.Distinct) (hdepth : x.depth ≤ 512) : ofText text = some ⟨convert x⟩ := by
  rw [ofText, jsonObject_of_read h hdistinct hdepth, Option.map_some]

/-- What was read can be read again. -/
theorem distinct_ofText {text : String} {json : LooseJSON} (h : ofText text = some json) :
    json.root.Distinct ∧ json.root.depth ≤ 512 := by
  obtain ⟨parsed, hparsed, rfl⟩ := Option.map_eq_some_iff.1 h
  obtain ⟨hdistinct, hdepth⟩ := LawfulFoundation.distinct_jsonObject text parsed hparsed
  exact ⟨distinct_convert hdistinct, Nat.le_trans (depth_convert hdistinct) hdepth⟩

end

end LooseJSON

end Hermo
