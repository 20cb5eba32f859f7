import Mathlib.Algebra.Group.Int.Defs
import Mathlib.Algebra.Group.Nat.Defs
import Mathlib.Data.Int.Basic

/-!
# JSON values and the tolerant accessors

`Value` is `serde_json::Value` and the `*_at` functions of `json.rs`: every reader returns a default when the
field is absent or has another type.  Printing is left to the class `Serializer`: `serde_json::to_string` is code
of another crate, and no statement below depends on the text it prints.
-/

namespace Hermo

/-- A finite `f64`, the number `mantissa * 2 ^ exponent`.  JSON has no NaN and no infinities. -/
structure F64 where
  mantissa : Int
  exponent : Int
  deriving DecidableEq, Repr

namespace F64

def zero : F64 := ⟨0, 0⟩

/-- `n as f64`: the nearest number with a 53-bit mantissa, ties to even. -/
def ofInt (n : Int) : F64 :=
  let m := n.natAbs
  let bits := m.log2 + 1
  if bits ≤ 53 then ⟨n, 0⟩
  else
    let shift := bits - 53
    let q := m / 2 ^ shift
    let r := m % 2 ^ shift
    let half := 2 ^ (shift - 1)
    let q := if half < r ∨ (r = half ∧ q % 2 = 1) then q + 1 else q
    ⟨if n < 0 then -(q : Int) else q, shift⟩

end F64

/-- The range of `i64`. -/
def i64Min : Int := -9223372036854775808
def i64Max : Int := 9223372036854775807

/-- `x as i64`: truncation towards zero, saturating at the ends of the range. -/
def F64.toI64 (x : F64) : Int :=
  let t := if 0 ≤ x.exponent then x.mantissa * 2 ^ x.exponent.toNat
    else x.mantissa.tdiv (2 ^ (-x.exponent).toNat)
  max i64Min (min i64Max t)

/-- `serde_json::Number`: an integer (`i64` or `u64`) or a float. -/
inductive Number where
  | int (n : Int)
  | float (x : F64)
  deriving DecidableEq, Repr

/-- `serde_json::Value`. -/
inductive Value where
  | null
  | bool (b : Bool)
  | number (n : Number)
  | string (s : String)
  | array (items : List Value)
  | object (fields : List (String × Value))
  deriving Repr, Inhabited

/-- `serde_json::to_string`, and the `{:?}` form of a string, whose escapes follow the Unicode tables. -/
class Serializer where
  toCompactString : Value → String
  debugStr : String → String

export Serializer (toCompactString debugStr)

namespace Value

/-- `Value::get` with a string key: `none` on everything but an object. -/
def get : Value → String → Option Value
  | object fields, key => fields.lookup key
  | _, _ => none

def isObject : Value → Bool
  | object _ => true
  | _ => false

def asStr : Value → Option String
  | string s => some s
  | _ => none

def asBool : Value → Option Bool
  | bool b => some b
  | _ => none

def asArray : Value → Option (List Value)
  | array items => some items
  | _ => none

/-- `Value::as_f64`. -/
def asF64 : Value → Option F64
  | number (.int n) => some (F64.ofInt n)
  | number (.float x) => some x
  | _ => none

/-- `str_at`: the string at `key`, or `""`. -/
def strAt (value : Value) (key : String) : String := ((value.get key).bind asStr).getD ""

/-- `i64_at`: the integer at `key`, or `0`; floats are truncated. -/
def i64At (value : Value) (key : String) : Int :=
  match value.get key with
  | some (number (.int n)) => if i64Min ≤ n ∧ n ≤ i64Max then n else (F64.ofInt n).toI64
  | some (number (.float x)) => x.toI64
  | _ => 0

/-- `bool_at`: the boolean at `key`, or `false`. -/
def boolAt (value : Value) (key : String) : Bool := ((value.get key).bind asBool).getD false

/-- `f64_at`: the number at `key`, or `0.0`. -/
def f64At (value : Value) (key : String) : F64 := ((value.get key).bind asF64).getD F64.zero

/-- `Map::insert`: replace the field, or add it. -/
def insertField (fields : List (String × Value)) (key : String) (v : Value) : List (String × Value) :=
  if fields.any (·.1 == key) then fields.map fun f => if f.1 == key then (key, v) else f
  else fields ++ [(key, v)]

/-- `as_object_mut` and an insert: other values stay as they are. -/
def setField : Value → String → Value → Value
  | object fields, key, v => object (insertField fields key v)
  | value, _, _ => value

private theorem lookup_insertField (fields : List (String × Value)) (key : String) (v : Value) :
    (insertField fields key v).lookup key = some v := by
  unfold insertField
  split
  · rename_i h
    induction fields with
    | nil => simp at h
    | cons f fields ih =>
      obtain ⟨k, w⟩ := f
      by_cases hf : k = key
      · simp [hf]
      · have hk : (key == k) = false := by simpa using Ne.symm hf
        simp only [List.any_cons, beq_eq_false_iff_ne.2 hf, Bool.false_or] at h
        simp only [List.map_cons, beq_eq_false_iff_ne.2 hf, Bool.false_eq_true, ↓reduceIte, List.lookup_cons, hk]
        exact ih h
  · rename_i h
    induction fields with
    | nil => simp
    | cons f fields ih =>
      obtain ⟨k, w⟩ := f
      simp only [List.any_cons, Bool.or_eq_true, not_or] at h
      have hk : (key == k) = false := by simpa using Ne.symm (by simpa using h.1 : k ≠ key)
      simp only [List.cons_append, List.lookup_cons, hk]
      exact ih h.2

/-- A string field that was just set is read back. -/
theorem strAt_setField {value : Value} (h : value.isObject) (key s : String) :
    (value.setField key (.string s)).strAt key = s := by
  cases value <;> simp_all [isObject, setField, strAt, get, lookup_insertField, asStr]

private theorem lookup_replace_of_ne (fields : List (String × Value)) {key k : String} (h : k ≠ key) (v : Value) :
    (fields.map fun f => if f.1 == key then (key, v) else f).lookup k = fields.lookup k := by
  induction fields with
  | nil => rfl
  | cons f fields ih =>
    obtain ⟨k', w⟩ := f
    have hk : (k == key) = false := beq_eq_false_iff_ne.2 h
    by_cases hf : k' = key
    · subst hf
      rw [List.map_cons, if_pos (beq_self_eq_true _), List.lookup_cons, List.lookup_cons, hk]
      exact ih
    · rw [List.map_cons, if_neg (by simpa using hf), List.lookup_cons, List.lookup_cons, ih]

private theorem lookup_insertField_of_ne (fields : List (String × Value)) {key k : String} (h : k ≠ key) (v : Value) :
    (insertField fields key v).lookup k = fields.lookup k := by
  unfold insertField
  split
  · exact lookup_replace_of_ne fields h v
  · have hk : (k == key) = false := beq_eq_false_iff_ne.2 h
    rw [List.lookup_append, List.lookup_cons, hk]
    exact Option.or_none

/-- A field that was just set, and the other ones. -/
theorem get_setField {value : Value} (h : value.isObject) (key k : String) (v : Value) :
    (value.setField key v).get k = if k = key then some v else value.get k := by
  cases value with
  | object fields =>
    split
    · rename_i hk
      exact hk ▸ lookup_insertField fields key v
    · rename_i hk
      exact lookup_insertField_of_ne fields hk v
  | _ => cases h

@[simp] theorem strAt_of_not_isObject {value : Value} (h : value.isObject = false) (key : String) :
    value.strAt key = "" := by
  cases value <;> simp_all [isObject, strAt, get]

end Value

/-! ### A printer for runs on fixed inputs -/

/-- The escapes of `serde_json` inside a string. -/
def escapeChar (c : Char) : String :=
  if c = '"' then "\\\""
  else if c = '\\' then "\\\\"
  else if c = '\n' then "\\n"
  else if c = '\r' then "\\r"
  else if c = '\t' then "\\t"
  else c.toString

def quote (s : String) : String := "\"" ++ String.join (s.toList.map escapeChar) ++ "\""

mutual

/-- Compact JSON of a value without floats other than `0.0`. -/
def Value.print : Value → String
  | .null => "null"
  | .bool b => if b then "true" else "false"
  | .number (.int n) => toString n
  | .number (.float _) => "0.0"
  | .string s => quote s
  | .array items => "[" ++ Value.printItems items ++ "]"
  | .object fields => "\x7b" ++ Value.printFields fields ++ "\x7d"

def Value.printItems : List Value → String
  | [] => ""
  | [item] => item.print
  | item :: items => item.print ++ "," ++ Value.printItems items

def Value.printFields : List (String × Value) → String
  | [] => ""
  | [(key, value)] => quote key ++ ":" ++ value.print
  | (key, value) :: fields => quote key ++ ":" ++ value.print ++ "," ++ Value.printFields fields

end

/-- The printer as a `Serializer`, for values it prints as `serde_json` does. -/
@[reducible] def Serializer.compact : Serializer := ⟨Value.print, quote⟩

end Hermo
