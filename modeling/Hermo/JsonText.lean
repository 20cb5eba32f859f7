import Mathlib.Data.List.Basic
import Hermo.Json

/-!
# JSON text

What the code asks of `serde_json` besides printing: reading a text, and the text of a number that is no integer.
That it reads back what it prints is `LawfulJson`; `Value.parse` is a reader for the compact texts of `Value.print`,
and `Value.parse_print` shows that the two are lawful.
-/

namespace Hermo

/-- `serde_json::from_str`, and `to_string` of a float. -/
class JsonReader where
  fromStr : String → Option Value
  floatText : F64 → String

export JsonReader (fromStr floatText)

/-- `Number::to_string`. -/
def Number.text [JsonReader] : Number → String
  | .int n => toString n
  | .float x => floatText x

/-! ### Values that survive a text -/

/-- `u64::MAX`. -/
def u64Max : Int := 18446744073709551615

mutual

/-- No float, every integer an `i64` or a `u64`, and no object has two fields of one name. -/
def Value.plain : Value → Bool
  | .null | .bool _ | .string _ => true
  | .number (.int n) => i64Min ≤ n && n ≤ u64Max
  | .number (.float _) => false
  | .array items => Value.plainItems items
  | .object fields => Value.plainFields fields

def Value.plainItems : List Value → Bool
  | [] => true
  | item :: items => item.plain && Value.plainItems items

def Value.plainFields : List (String × Value) → Bool
  | [] => true
  | (key, value) :: fields => !(fields.map Prod.fst).contains key && value.plain && Value.plainFields fields

end

mutual

/-- How deep arrays and objects are nested. -/
def Value.depth : Value → Nat
  | .array items => Value.depthItems items + 1
  | .object fields => Value.depthFields fields + 1
  | _ => 0

def Value.depthItems : List Value → Nat
  | [] => 0
  | item :: items => max item.depth (Value.depthItems items)

def Value.depthFields : List (String × Value) → Nat
  | [] => 0
  | (_, value) :: fields => max value.depth (Value.depthFields fields)

end

/-- `serde_json` reads back what it printed, down to the depth it reads at all. -/
class LawfulJson [Serializer] [JsonReader] : Prop where
  fromStr_toCompactString (v : Value) (hplain : v.plain = true) (hdepth : v.depth < 128) :
    fromStr (toCompactString v) = some v

/-! ### A reader of compact texts -/

/-- The character behind a backslash. -/
def unescape (c : Char) : Char :=
  if c = 'n' then '\n' else if c = 'r' then '\r' else if c = 't' then '\t' else c

/-- The rest of a string behind its opening quote. -/
def parseString : List Char → Option (List Char × List Char)
  | [] => none
  | '"' :: rest => some ([], rest)
  | '\\' :: c :: rest => (parseString rest).map fun (cs, rest) => (unescape c :: cs, rest)
  | c :: rest => (parseString rest).map fun (cs, rest) => (c :: cs, rest)

/-- The digits a text starts with, and their number. -/
def parseNat (text : List Char) : Option (Nat × List Char) :=
  let digits := text.takeWhile Char.isDigit
  if digits = [] then none else some (Nat.ofDigitChars 10 digits 0, text.dropWhile Char.isDigit)

def parseInt : List Char → Option (Int × List Char)
  | '-' :: text => (parseNat text).map fun (n, rest) => (-(n : Int), rest)
  | text => (parseNat text).map fun (n, rest) => ((n : Int), rest)

mutual

def parseValue : Nat → List Char → Option (Value × List Char)
  | 0, _ => none
  | fuel + 1, text =>
    match text with
    | 'n' :: 'u' :: 'l' :: 'l' :: rest => some (.null, rest)
    | 't' :: 'r' :: 'u' :: 'e' :: rest => some (.bool true, rest)
    | 'f' :: 'a' :: 'l' :: 's' :: 'e' :: rest => some (.bool false, rest)
    | '"' :: rest => (parseString rest).map fun (cs, rest) => (.string (String.ofList cs), rest)
    | '[' :: ']' :: rest => some (.array [], rest)
    | '[' :: rest => (parseItems fuel rest).map fun (items, rest) => (.array items, rest)
    | '\x7b' :: '\x7d' :: rest => some (.object [], rest)
    | '\x7b' :: rest => (parseFields fuel rest).map fun (fields, rest) => (.object fields, rest)
    | text => (parseInt text).map fun (n, rest) => (.number (.int n), rest)

/-- The items of an array up to its end. -/
def parseItems : Nat → List Char → Option (List Value × List Char)
  | 0, _ => none
  | fuel + 1, text =>
    match parseValue fuel text with
    | some (item, ',' :: rest) => (parseItems fuel rest).map fun (items, rest) => (item :: items, rest)
    | some (item, ']' :: rest) => some ([item], rest)
    | _ => none

/-- The fields of an object up to its end. -/
def parseFields : Nat → List Char → Option (List (String × Value) × List Char)
  | 0, _ => none
  | fuel + 1, text =>
    match text with
    | '"' :: text =>
      match parseString text with
      | some (key, ':' :: text) =>
        match parseValue fuel text with
        | some (value, ',' :: rest) =>
          (parseFields fuel rest).map fun (fields, rest) => ((String.ofList key, value) :: fields, rest)
        | some (value, '\x7d' :: rest) => some ([(String.ofList key, value)], rest)
        | _ => none
      | _ => none
    | _ => none

end

/-- Read a compact text. -/
def Value.parse (text : String) : Option Value :=
  match parseValue (2 * text.toList.length + 1) text.toList with
  | some (value, []) => some value
  | _ => none

/-! ### It reads what was printed -/

private theorem parseString_escape (c : Char) (rest : List Char) :
    parseString ((escapeChar c).toList ++ rest) = (parseString rest).map fun (cs, rest) => (c :: cs, rest) := by
  unfold escapeChar
  split
  · rename_i h
    subst h
    rfl
  split
  · rename_i h
    subst h
    rfl
  split
  · rename_i h
    subst h
    rfl
  split
  · rename_i h
    subst h
    rfl
  split
  · rename_i h
    subst h
    rfl
  · rename_i hquote hback _ _ _
    have hc : c.toString.toList = [c] := by simp [Char.toString]
    rw [hc]
    change parseString (c :: rest) = _
    rw [parseString]
    · exact fun h => hquote h
    · exact fun _ _ h _ => hback h

private theorem parseString_quote (cs rest : List Char) :
    parseString (cs.flatMap (fun c => (escapeChar c).toList) ++ '"' :: rest) = some (cs, rest) := by
  induction cs with
  | nil => rfl
  | cons c cs ih => rw [List.flatMap_cons, List.append_assoc, parseString_escape, ih, Option.map_some]

/-- What follows a value is no digit. -/
def NoDigit (rest : List Char) : Prop := ∀ c ∈ rest.head?, c.isDigit = false

theorem parseNat_repr (n : Nat) {rest : List Char} (hrest : NoDigit rest) :
    parseNat (n.repr.toList ++ rest) = some (n, rest) := by
  have hdigits : ∀ c ∈ n.repr.toList, c.isDigit = true := by
    rw [Nat.toList_repr]
    exact fun c hc => Nat.isDigit_of_mem_toDigits (by decide) (by decide) hc
  have hnil : rest.takeWhile Char.isDigit = [] ∧ rest.dropWhile Char.isDigit = rest := by
    cases rest with
    | nil => exact ⟨rfl, rfl⟩
    | cons c rest => simp [hrest c rfl]
  unfold parseNat
  rw [List.takeWhile_append_of_pos hdigits, List.dropWhile_append_of_pos hdigits, hnil.1, hnil.2, List.append_nil]
  rw [Nat.toList_repr, if_neg Nat.toDigits_ne_nil]
  simp

theorem parseInt_repr (n : Int) {rest : List Char} (hrest : NoDigit rest) :
    parseInt ((toString n).toList ++ rest) = some (n, rest) := by
  cases n with
  | ofNat n =>
    change parseInt (n.repr.toList ++ rest) = _
    unfold parseInt
    split
    · rename_i text heq
      have hdash : '-' ∈ n.repr.toList := by
        cases hdigits : n.repr.toList with
        | nil =>
          rw [Nat.toList_repr] at hdigits
          exact absurd hdigits Nat.toDigits_ne_nil
        | cons c cs =>
          rw [hdigits] at heq
          rw [(List.cons.inj heq).1]
          exact List.mem_cons_self
      rw [Nat.toList_repr] at hdash
      exact absurd (Nat.isDigit_of_mem_toDigits (by decide) (by decide) hdash) (by decide)
    · rw [parseNat_repr n hrest]
      rfl
  | negSucc n =>
    change parseInt (("-" ++ n.succ.repr).toList ++ rest) = _
    rw [String.toList_append, List.append_assoc]
    change (parseNat (n.succ.repr.toList ++ rest)).map _ = _
    rw [parseNat_repr n.succ hrest]
    rfl

/-- The first character of an integer. -/
private theorem toString_head (n : Int) : ∃ c cs, (toString n).toList = c :: cs ∧ (c = '-' ∨ c.isDigit = true) := by
  cases n with
  | ofNat n =>
    change ∃ c cs, n.repr.toList = c :: cs ∧ _
    cases hdigits : n.repr.toList with
    | nil =>
      rw [Nat.toList_repr] at hdigits
      exact absurd hdigits Nat.toDigits_ne_nil
    | cons c cs =>
      rw [Nat.toList_repr] at hdigits
      have hmem : c ∈ Nat.toDigits 10 n := hdigits ▸ List.mem_cons_self
      exact ⟨c, cs, rfl, .inr (Nat.isDigit_of_mem_toDigits (by decide) (by decide) hmem)⟩
  | negSucc n =>
    change ∃ c cs, ("-" ++ n.succ.repr).toList = c :: cs ∧ _
    rw [String.toList_append]
    exact ⟨'-', n.succ.repr.toList, rfl, .inl rfl⟩

/-- An integer is read behind the cases for the other values. -/
private theorem parseValue_int (fuel : Nat) (n : Int) {rest : List Char} (hrest : NoDigit rest) :
    parseValue (fuel + 1) ((toString n).toList ++ rest) = some (.number (.int n), rest) := by
  obtain ⟨c, cs, heq, hc⟩ := toString_head n
  have hint := parseInt_repr n hrest
  rw [heq] at hint ⊢
  have hne : ∀ d, d.isDigit = false → d ≠ '-' → c ≠ d := by
    rintro d hd hdash rfl
    rcases hc with rfl | hc
    · exact hdash rfl
    · rw [hc] at hd
      cases hd
  rw [List.cons_append] at hint ⊢
  unfold parseValue
  split
  iterate 8
    · rename_i h
      exact absurd (List.cons.inj h).1 (hne _ (by decide) (by decide))
  · rw [hint]
    rfl

theorem quote_toList (s : String) :
    (quote s).toList = '"' :: (s.toList.flatMap (fun c => (escapeChar c).toList) ++ ['"']) := by
  simp [quote, String.toList_append, String.toList_join, List.flatMap_map]

private theorem parseValue_string (fuel : Nat) (s : String) (rest : List Char) :
    parseValue (fuel + 1) ((quote s).toList ++ rest) = some (.string s, rest) := by
  have htext : (quote s).toList ++ rest = '"' :: (s.toList.flatMap (fun c => (escapeChar c).toList) ++ '"' :: rest) := by
    simp [quote_toList]
  rw [htext]
  change (parseString _).map _ = _
  rw [parseString_quote]
  simp

private theorem noDigit_cons {c : Char} (h : c.isDigit = false) (rest : List Char) : NoDigit (c :: rest) := by
  rintro _ ⟨⟩
  exact h

/-- No value starts with the end of an array. -/
private theorem print_head (v : Value) : ∃ c cs, v.print.toList = c :: cs ∧ c ≠ ']' := by
  cases v with
  | null => exact ⟨'n', _, rfl, by decide⟩
  | bool b => cases b <;> exact ⟨_, _, rfl, by decide⟩
  | number n =>
    cases n with
    | int n =>
      obtain ⟨c, cs, heq, hc⟩ := toString_head n
      refine ⟨c, cs, heq, ?_⟩
      rintro rfl
      exact absurd hc (by decide)
    | float x => exact ⟨'0', ['.', '0'], by simp [Value.print], by decide⟩
  | string s =>
    change ∃ c cs, (quote s).toList = c :: cs ∧ _
    unfold quote
    rw [String.toList_append, String.toList_append]
    exact ⟨'"', _, rfl, by decide⟩
  | array items =>
    change ∃ c cs, ("[" ++ Value.printItems items ++ "]").toList = c :: cs ∧ _
    rw [String.toList_append, String.toList_append]
    exact ⟨'[', _, rfl, by decide⟩
  | object fields =>
    change ∃ c cs, ("\x7b" ++ Value.printFields fields ++ "\x7d").toList = c :: cs ∧ _
    rw [String.toList_append, String.toList_append]
    exact ⟨'\x7b', _, rfl, by decide⟩

private theorem printItems_head (item : Value) (items : List Value) :
    ∃ c cs, (Value.printItems (item :: items)).toList = c :: cs ∧ c ≠ ']' := by
  obtain ⟨c, cs, heq, hc⟩ := print_head item
  cases items with
  | nil => exact ⟨c, cs, heq, hc⟩
  | cons next items =>
    rw [Value.printItems]
    · simp only [String.toList_append, heq, List.cons_append]
      exact ⟨c, _, rfl, hc⟩
    · rintro ⟨⟩

private theorem printFields_head (key : String) (value : Value) (fields : List (String × Value)) :
    ∃ cs, (Value.printFields ((key, value) :: fields)).toList = '"' :: cs := by
  cases fields with
  | nil =>
    rw [Value.printFields, String.toList_append, String.toList_append, quote_toList]
    exact ⟨_, rfl⟩
  | cons field fields =>
    rw [Value.printFields]
    · simp only [String.toList_append, quote_toList, List.cons_append]
      exact ⟨_, rfl⟩
    · rintro ⟨⟩

/-- The field an object's text starts with, and more fields. -/
private theorem parseFields_cons {fuel : Nat} (key : String) {text rest : List Char} {value : Value}
    (hvalue : parseValue fuel text = some (value, ',' :: rest)) :
    parseFields (fuel + 1) ('"' :: (key.toList.flatMap (fun c => (escapeChar c).toList) ++ '"' :: ':' :: text)) =
      (parseFields fuel rest).map fun (fields, rest) => ((key, value) :: fields, rest) := by
  rw [parseFields, parseString_quote]
  simp [hvalue]

/-- The last field. -/
private theorem parseFields_last {fuel : Nat} (key : String) {text rest : List Char} {value : Value}
    (hvalue : parseValue fuel text = some (value, '\x7d' :: rest)) :
    parseFields (fuel + 1) ('"' :: (key.toList.flatMap (fun c => (escapeChar c).toList) ++ '"' :: ':' :: text)) =
      some ([(key, value)], rest) := by
  rw [parseFields, parseString_quote]
  simp [hvalue]

mutual

private theorem parseValue_print : ∀ (v : Value) (fuel : Nat) (rest : List Char), v.plain = true → NoDigit rest →
    2 * (v.print.toList ++ rest).length < fuel → parseValue fuel (v.print.toList ++ rest) = some (v, rest)
  | v, 0, rest => by
    intro _ _ hfuel
    exact absurd hfuel (Nat.not_lt_zero _)
  | .null, fuel + 1, rest => fun _ _ _ => rfl
  | .bool true, fuel + 1, rest => fun _ _ _ => rfl
  | .bool false, fuel + 1, rest => fun _ _ _ => rfl
  | .number (.int n), fuel + 1, rest => fun _ hrest _ => parseValue_int fuel n hrest
  | .number (.float x), fuel + 1, rest => by
    rintro ⟨⟩
  | .string s, fuel + 1, rest => fun _ _ _ => parseValue_string fuel s rest
  | .array [], fuel + 1, rest => fun _ _ _ => rfl
  | .array (item :: items), fuel + 1, rest => by
    intro hplain _ hfuel
    have htext : (Value.array (item :: items)).print.toList ++ rest =
        '[' :: ((Value.printItems (item :: items)).toList ++ ']' :: rest) := by
      simp [Value.print, String.toList_append]
    rw [htext] at hfuel ⊢
    have hitems := parseItems_print item items fuel rest hplain (by simp at hfuel; omega)
    obtain ⟨c, cs, heq, hc⟩ := printItems_head item items
    rw [heq, List.cons_append] at hitems ⊢
    rw [parseValue]
    · rw [hitems]
      rfl
    · rintro _ h
      exact hc (List.cons.inj h).1
  | .object [], fuel + 1, rest => fun _ _ _ => rfl
  | .object ((key, value) :: fields), fuel + 1, rest => by
    intro hplain _ hfuel
    have htext : (Value.object ((key, value) :: fields)).print.toList ++ rest =
        '\x7b' :: ((Value.printFields ((key, value) :: fields)).toList ++ '\x7d' :: rest) := by
      simp [Value.print, String.toList_append]
    rw [htext] at hfuel ⊢
    have hfields := parseFields_print key value fields fuel rest hplain (by simp at hfuel; omega)
    obtain ⟨cs, heq⟩ := printFields_head key value fields
    rw [heq, List.cons_append] at hfields ⊢
    change (parseFields fuel _).map _ = _
    rw [hfields]
    rfl

private theorem parseItems_print : ∀ (item : Value) (items : List Value) (fuel : Nat) (rest : List Char),
    Value.plainItems (item :: items) = true →
    2 * (Value.printItems (item :: items)).toList.length + 2 * rest.length + 3 < fuel →
    parseItems fuel ((Value.printItems (item :: items)).toList ++ ']' :: rest) = some (item :: items, rest)
  | item, items, 0, rest => by
    intro _ hfuel
    exact absurd hfuel (Nat.not_lt_zero _)
  | item, [], fuel + 1, rest => by
    intro hplain hfuel
    have hitem : item.plain = true := by simpa [Value.plainItems] using hplain
    unfold parseItems
    rw [Value.printItems] at hfuel ⊢
    rw [parseValue_print item fuel (']' :: rest) hitem (noDigit_cons (by decide) _) (by simp; omega)]
    rfl
  | item, next :: items, fuel + 1, rest => by
    intro hplain hfuel
    obtain ⟨hitem, hnext⟩ : item.plain = true ∧ Value.plainItems (next :: items) = true := by
      simpa only [Value.plainItems, Bool.and_eq_true] using hplain
    have htext : (Value.printItems (item :: next :: items)).toList =
        item.print.toList ++ ',' :: (Value.printItems (next :: items)).toList := by
      rw [Value.printItems]
      · simp [String.toList_append]
      · rintro ⟨⟩
    rw [htext] at hfuel ⊢
    simp only [List.length_append, List.length_cons] at hfuel
    rw [List.append_assoc, List.cons_append]
    unfold parseItems
    rw [parseValue_print item fuel _ hitem (noDigit_cons (by decide) _) (by simp; omega)]
    change (parseItems fuel _).map _ = _
    rw [parseItems_print next items fuel rest hnext (by omega)]
    rfl

private theorem parseFields_print : ∀ (key : String) (value : Value) (fields : List (String × Value)) (fuel : Nat)
    (rest : List Char), Value.plainFields ((key, value) :: fields) = true →
    2 * (Value.printFields ((key, value) :: fields)).toList.length + 2 * rest.length + 3 < fuel →
    parseFields fuel ((Value.printFields ((key, value) :: fields)).toList ++ '\x7d' :: rest) =
      some ((key, value) :: fields, rest)
  | key, value, fields, 0, rest => by
    intro _ hfuel
    exact absurd hfuel (Nat.not_lt_zero _)
  | key, value, [], fuel + 1, rest => by
    intro hplain hfuel
    have hvalue : value.plain = true := by simpa [Value.plainFields] using hplain
    have htext : (Value.printFields [(key, value)]).toList ++ '\x7d' :: rest =
        '"' :: (key.toList.flatMap (fun c => (escapeChar c).toList) ++
          '"' :: ':' :: (value.print.toList ++ '\x7d' :: rest)) := by
      simp [Value.printFields, quote_toList]
    have hlen := congrArg List.length htext
    simp only [List.length_append, List.length_cons] at hlen
    rw [htext, parseFields_last key (parseValue_print value fuel _ hvalue (noDigit_cons (by decide) _) (by simp; omega))]
  | key, value, (next, value') :: fields, fuel + 1, rest => by
    intro hplain hfuel
    obtain ⟨⟨-, hvalue⟩, hnext⟩ : ((!(((next, value') :: fields).map Prod.fst).contains key) = true ∧
        value.plain = true) ∧ Value.plainFields ((next, value') :: fields) = true := by
      simpa only [Value.plainFields, Bool.and_eq_true] using hplain
    have htext : (Value.printFields ((key, value) :: (next, value') :: fields)).toList ++ '\x7d' :: rest =
        '"' :: (key.toList.flatMap (fun c => (escapeChar c).toList) ++ '"' :: ':' :: (value.print.toList ++
          ',' :: ((Value.printFields ((next, value') :: fields)).toList ++ '\x7d' :: rest))) := by
      rw [Value.printFields]
      · simp [quote_toList]
      · rintro ⟨⟩
    have hlen := congrArg List.length htext
    simp only [List.length_append, List.length_cons] at hlen
    rw [htext, parseFields_cons key (parseValue_print value fuel _ hvalue (noDigit_cons (by decide) _) (by simp; omega))]
    rw [parseFields_print next value' fields fuel rest hnext (by omega)]
    rfl

end

/-- A compact text reads back as the value that was printed. -/
theorem Value.parse_print {v : Value} (hplain : v.plain = true) : Value.parse v.print = some v := by
  have h := parseValue_print v (2 * v.print.toList.length + 1) [] hplain (by rintro _ ⟨⟩) (by simp)
  rw [List.append_nil] at h
  unfold Value.parse
  rw [h]

/-- The reader of compact texts. -/
@[reducible] def JsonReader.compact : JsonReader := ⟨Value.parse, fun _ => "0.0"⟩

theorem lawful_compact : @LawfulJson Serializer.compact JsonReader.compact :=
  @LawfulJson.mk Serializer.compact JsonReader.compact fun _ hplain _ => Value.parse_print hplain

end Hermo
