import Hermo.App.LooseJson
import Hermo.App.MarkdownBlocks
import Hermo.App.TranscriptState

/-!
# JSON on Android

What the app uses of `org.json`: its readers and `toString` are the class `OrgJson`, the `opt` accessors and their
coercions are definitions.  A name that is missing and a JSON null are told apart: `optString` of a null is `"null"`.
-/

namespace Hermo

open Rfc8259 (Json Token)

/-- A number of `org.json`: an `Integer` or a `Long`, or a `Double`. -/
inductive OrgNumber where
  | integer (n : ℤ)
  | double (x : Double)

class OrgJson where
  /-- `JSONObject(text)`, `none` where it throws. -/
  jsonObject : String → Option (List (String × Json OrgNumber))
  /-- `JSONArray(text)`, `none` where it throws. -/
  jsonArray : String → Option (List (Json OrgNumber))
  /-- `JSONTokener(text).nextValue()`, `none` where it throws. -/
  nextValue : String → Option (Json OrgNumber)
  /-- `toString(2)`. -/
  prettyText : Json OrgNumber → String
  /-- `toString()` of a number, and of an object or array. -/
  numberText : OrgNumber → String
  text : Json OrgNumber → String
  /-- `Double.parseDouble`, `none` where it throws. -/
  parseDouble : String → Option ParsedDouble
  equalsIgnoreCase : String → String → Bool
  /-- What a token is read as, if it is in range. -/
  numberOf : Token → Option OrgNumber

/-- What is documented of them: the texts of RFC 8259 are read, and `toString` writes one. -/
class LawfulOrgJson [OrgJson] : Prop where
  jsonObject_of_read (text : String) (fields : List (String × Json Token))
    (h : Rfc8259.read text.toList = some (.object fields)) (hdistinct : (Json.object fields).Distinct)
    (hdepth : (Json.object fields).depth ≤ 512) :
    OrgJson.jsonObject text = Json.traverseFields OrgJson.numberOf fields
  jsonArray_of_read (text : String) (items : List (Json Token))
    (h : Rfc8259.read text.toList = some (.array items)) (hdistinct : (Json.array items).Distinct)
    (hdepth : (Json.array items).depth ≤ 512) : OrgJson.jsonArray text = Json.traverseItems OrgJson.numberOf items
  read_text (items : List (Json OrgNumber)) :
    Rfc8259.read (OrgJson.text (.array items)).toList =
      some ((Json.array items).map fun n => (OrgJson.numberText n).toList)
  read_prettyText (t : Json OrgNumber) :
    Rfc8259.read (OrgJson.prettyText t).toList = some (t.map fun n => (OrgJson.numberText n).toList)
  nextValue_of_read (text : String) (t : Json Token) (h : Rfc8259.read text.toList = some t) (hdistinct : t.Distinct)
    (hdepth : t.depth ≤ 512) : OrgJson.nextValue text = t.traverse OrgJson.numberOf
  numberOf_int (n : ℤ) (h : i64Min ≤ n ∧ n ≤ i64Max) : OrgJson.numberOf (toString n).toList = some (.integer n)

/-- `JSONObject`, by its fields. -/
structure JSONObject where
  fields : List (String × Json OrgNumber)

namespace JSONObject

/-- The range of an `Int`. -/
def i32Min : ℤ := -2147483648
def i32Max : ℤ := 2147483647

/-- `(int) d`. -/
def intOf : ParsedDouble → ℤ
  | .nan => 0
  | .infinity negative => if negative then i32Min else i32Max
  | .finite x => max i32Min (min i32Max (LooseJSON.truncate x.value))

def opt (obj : JSONObject) (name : String) : Option (Json OrgNumber) := obj.fields.lookup name

def has (obj : JSONObject) (name : String) : Bool := (obj.opt name).isSome

def isNull (obj : JSONObject) (name : String) : Bool :=
  match obj.opt name with
  | none => true
  | some .null => true
  | some _ => false

section

variable [OrgJson]

/-- `JSON.toString`: only a missing value has no text. -/
def toText : Json OrgNumber → String
  | .null => "null"
  | .bool b => if b then "true" else "false"
  | .number n => OrgJson.numberText n
  | .string s => s
  | .array items => OrgJson.text (.array items)
  | .object fields => OrgJson.text (.object fields)

def optString (obj : JSONObject) (name : String) : String := ((obj.opt name).map toText).getD ""

def optBoolean (obj : JSONObject) (name : String) : Bool :=
  match obj.opt name with
  | some (.bool b) => b
  | some (.string s) => OrgJson.equalsIgnoreCase "true" s
  | _ => false

/-- `(double) n` of an integer rounds; a `Long` of more than 53 bits is not exact. -/
def doubleOf : OrgNumber → ParsedDouble
  | .integer n => if h : |n| < 2 ^ 53 then .finite (Double.ofInt n h) else (OrgJson.parseDouble (toString n)).getD .nan
  | .double x => .finite x

def optDouble (obj : JSONObject) (name : String) (fallback : ParsedDouble) : ParsedDouble :=
  match obj.opt name with
  | some (.number n) => doubleOf n
  | some (.string s) => (OrgJson.parseDouble s).getD fallback
  | _ => fallback

/-- An `Integer` is itself, a `Long` loses its upper half. -/
def optInt (obj : JSONObject) (name : String) : ℤ :=
  match obj.opt name with
  | some (.number (.integer n)) => (BitVec.ofInt 32 n).toInt
  | some (.number (.double x)) => intOf (.finite x)
  | some (.string s) => ((OrgJson.parseDouble s).map intOf).getD 0
  | _ => 0

def optJSONArray (obj : JSONObject) (name : String) : Option (List (Json OrgNumber)) :=
  match obj.opt name with
  | some (.array items) => some items
  | _ => none

/-- The extension function of `ChatRow.kt`. -/
def optStringOrNull (obj : JSONObject) (key : String) : Option String :=
  if obj.has key && !obj.isNull key then some (obj.optString key) else none

end

end JSONObject

end Hermo
