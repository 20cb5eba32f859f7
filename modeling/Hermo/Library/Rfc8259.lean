import Hermo.Library.JsonValue
import Mathlib.Data.List.TakeWhile
import Mathlib.Tactic.IntervalCases

/-!
# JSON texts

A reader of RFC 8259 and the texts it reads.  A text is written from a value by a `Layout`, which says where white
space goes, and an `Escaping`, which says how a character of a string is written; `read_print` says that the reader
gets the value back, whatever the two are.  A number is kept as the token it is written with.
-/

namespace Rfc8259

/-- The digits and signs a number is written with. -/
abbrev Token := List Char

/-! ### Tokens of numbers -/

def exponentOk : Token → Bool
  | [] => true
  | e :: rest =>
    (e == 'e' || e == 'E') &&
      match rest with
      | '+' :: digits => !digits.isEmpty && digits.all Char.isDigit
      | '-' :: digits => !digits.isEmpty && digits.all Char.isDigit
      | digits => !digits.isEmpty && digits.all Char.isDigit

def fractionOk : Token → Bool
  | '.' :: rest => !(rest.takeWhile Char.isDigit).isEmpty && exponentOk (rest.dropWhile Char.isDigit)
  | rest => exponentOk rest

def unsignedOk : Token → Bool
  | [] => false
  | '0' :: rest => fractionOk rest
  | c :: rest => c.isDigit && fractionOk (rest.dropWhile Char.isDigit)

/-- The grammar of a number: no leading zeros, no leading plus sign, digits on both sides of a point. -/
def isNumber : Token → Bool
  | '-' :: rest => unsignedOk rest
  | rest => unsignedOk rest

/-- A character that can stand in a number. -/
def isNumberChar (c : Char) : Bool := c.isDigit || c == '-' || c == '+' || c == '.' || c == 'e' || c == 'E'

/-! ### The reader -/

/-- White space between tokens. -/
def isSpace (c : Char) : Bool := c == ' ' || c == '\n' || c == '\r' || c == '\t'

def hexDigit (c : Char) : Option Nat :=
  if c.isDigit then some (c.toNat - '0'.toNat)
  else if 'a'.toNat ≤ c.toNat ∧ c.toNat ≤ 'f'.toNat then some (c.toNat - 'a'.toNat + 10)
  else if 'A'.toNat ≤ c.toNat ∧ c.toNat ≤ 'F'.toNat then some (c.toNat - 'A'.toNat + 10)
  else none

/-- The UTF-16 unit four hexadecimal digits stand for. -/
def hexUnit (a b c d : Char) : Option Nat := do
  let a ← hexDigit a
  let b ← hexDigit b
  let c ← hexDigit c
  let d ← hexDigit d
  return ((a * 16 + b) * 16 + c) * 16 + d

def highSurrogate (n : Nat) : Bool := 0xd800 ≤ n && n < 0xdc00

def lowSurrogate (n : Nat) : Bool := 0xdc00 ≤ n && n < 0xe000

/-- What a character behind a backslash stands for. -/
def shortEscape : Char → Option Char
  | '"' => some '"'
  | '\\' => some '\\'
  | '/' => some '/'
  | 'b' => some '\x08'
  | 'f' => some '\x0c'
  | 'n' => some '\n'
  | 'r' => some '\r'
  | 't' => some '\t'
  | _ => none

/-- A string behind its opening quote, and the text behind its closing one. -/
def readString : List Char → Option (List Char × List Char)
  | [] => none
  | '"' :: rest => some ([], rest)
  | '\\' :: 'u' :: a :: b :: c :: d :: rest =>
    match hexUnit a b c d with
    | none => none
    | some unit =>
      if highSurrogate unit then
        match rest with
        | '\\' :: 'u' :: a :: b :: c :: d :: rest =>
          match hexUnit a b c d with
          | none => none
          | some low =>
            if lowSurrogate low then
              (readString rest).map fun (cs, rest) =>
                (Char.ofNat (0x10000 + (unit - 0xd800) * 0x400 + (low - 0xdc00)) :: cs, rest)
            else none
        | _ => none
      else if lowSurrogate unit then none
      else (readString rest).map fun (cs, rest) => (Char.ofNat unit :: cs, rest)
  | '\\' :: c :: rest =>
    match shortEscape c with
    | none => none
    | some c => (readString rest).map fun (cs, rest) => (c :: cs, rest)
  | c :: rest => if c.toNat < 0x20 then none else (readString rest).map fun (cs, rest) => (c :: cs, rest)

/-- A number at the start of the text. -/
def readNumber (text : List Char) : Option (Json Token × List Char) :=
  let token := text.takeWhile isNumberChar
  if isNumber token then some (.number token, text.dropWhile isNumberChar) else none

/-- A literal name at the start of the text. -/
def readName : List Char → Option (Json Token × List Char)
  | 'n' :: 'u' :: 'l' :: 'l' :: rest => some (.null, rest)
  | 't' :: 'r' :: 'u' :: 'e' :: rest => some (.bool true, rest)
  | 'f' :: 'a' :: 'l' :: 's' :: 'e' :: rest => some (.bool false, rest)
  | _ => none

mutual

/-- The value at the start of the text, and what is behind it. -/
def readValue : Nat → List Char → Option (Json Token × List Char)
  | 0, _ => none
  | fuel + 1, text =>
    match text.dropWhile isSpace with
    | [] => none
    | c :: rest =>
      if c = '"' then (readString rest).map fun (s, rest) => (.string (String.ofList s), rest)
      else if c = '[' then
        match rest.dropWhile isSpace with
        | ']' :: rest => some (.array [], rest)
        | rest => (readItems fuel rest).map fun (items, rest) => (.array items, rest)
      else if c = '\x7b' then
        match rest.dropWhile isSpace with
        | '\x7d' :: rest => some (.object [], rest)
        | rest => (readFields fuel rest).map fun (fields, rest) => (.object fields, rest)
      else if isNumberChar c && c != 'e' && c != 'E' then readNumber (c :: rest)
      else readName (c :: rest)

/-- The items of an array, from the first to the closing bracket. -/
def readItems : Nat → List Char → Option (List (Json Token) × List Char)
  | 0, _ => none
  | fuel + 1, text =>
    match readValue fuel text with
    | none => none
    | some (item, rest) =>
      match rest.dropWhile isSpace with
      | ',' :: rest => (readItems fuel rest).map fun (items, rest) => (item :: items, rest)
      | ']' :: rest => some ([item], rest)
      | _ => none

/-- The fields of an object, from the first to the closing brace. -/
def readFields : Nat → List Char → Option (List (String × Json Token) × List Char)
  | 0, _ => none
  | fuel + 1, text =>
    match text.dropWhile isSpace with
    | '"' :: rest =>
      match readString rest with
      | none => none
      | some (key, rest) =>
        match rest.dropWhile isSpace with
        | ':' :: rest =>
          match readValue fuel rest with
          | none => none
          | some (value, rest) =>
            match rest.dropWhile isSpace with
            | ',' :: rest =>
              (readFields fuel rest).map fun (fields, rest) => ((String.ofList key, value) :: fields, rest)
            | '\x7d' :: rest => some ([(String.ofList key, value)], rest)
            | _ => none
        | _ => none
    | _ => none

end

/-- The value of a text, which holds nothing else. -/
def read (text : List Char) : Option (Json Token) :=
  match readValue (2 * text.length + 1) text with
  | some (value, rest) => if rest.all isSpace then some value else none
  | none => none

/-- What an array or an object starts with. -/
def Json.opening : Json Token → Option Char
  | .array _ => some '['
  | .object _ => some '\x7b'
  | _ => none

private theorem opening_readValue {fuel : Nat} {text rest : List Char} {t : Json Token}
    (h : readValue fuel text = some (t, rest)) {c : Char} (hc : t.opening = some c) :
    (text.dropWhile isSpace).head? = some c := by
  cases fuel with
  | zero => simp [readValue] at h
  | succ fuel =>
    rw [readValue] at h
    split at h
    · cases h
    · rename_i d ds htext
      rw [htext, List.head?_cons]
      by_cases hbracket : d = '['
      · subst hbracket
        simp only [Char.reduceEq, ↓reduceIte] at h
        have harray : ∃ items, t = .array items := by
          split at h
          · cases h
            exact ⟨_, rfl⟩
          · obtain ⟨read, -, heq⟩ := Option.map_eq_some_iff.1 h
            cases heq
            exact ⟨_, rfl⟩
        obtain ⟨items, rfl⟩ := harray
        exact hc
      · by_cases hbrace : d = '\x7b'
        · subst hbrace
          simp only [Char.reduceEq, ↓reduceIte] at h
          have hobject : ∃ fields, t = .object fields := by
            split at h
            · cases h
              exact ⟨_, rfl⟩
            · obtain ⟨read, -, heq⟩ := Option.map_eq_some_iff.1 h
              cases heq
              exact ⟨_, rfl⟩
          obtain ⟨fields, rfl⟩ := hobject
          exact hc
        · rw [if_neg hbracket, if_neg hbrace] at h
          -- the other values have no opening
          split at h
          · obtain ⟨read, -, heq⟩ := Option.map_eq_some_iff.1 h
            cases heq
            cases hc
          · split at h
            · unfold readNumber at h
              dsimp only at h
              split at h
              · cases h
                cases hc
              · cases h
            · unfold readName at h
              split at h <;> cases h <;> cases hc

/-- The text of an array or an object starts with its bracket. -/
theorem opening_read {text : List Char} {t : Json Token} (h : read text = some t) {c : Char}
    (hc : t.opening = some c) : (text.dropWhile isSpace).head? = some c := by
  unfold read at h
  split at h
  · rename_i value rest hvalue
    split at h
    · cases h
      exact opening_readValue hvalue hc
    · cases h
  · cases h

theorem bracket_mem {text : List Char} {items : List (Json Token)} (h : read text = some (.array items)) :
    '[' ∈ text :=
  List.dropWhile_subset isSpace (List.mem_of_head? (opening_read h rfl))

/-! ### Writing -/

/-- Where white space goes: behind an opening bracket, behind a comma and in front of a closing bracket of an array or
object that is `level` deep, and behind a colon. -/
structure Layout where
  first : Nat → List Char
  next : Nat → List Char
  last : Nat → List Char
  colon : List Char
  space_first : ∀ level, ∀ c ∈ first level, isSpace c = true
  space_next : ∀ level, ∀ c ∈ next level, isSpace c = true
  space_last : ∀ level, ∀ c ∈ last level, isSpace c = true
  space_colon : ∀ c ∈ colon, isSpace c = true

/-- How a character of a string is written. -/
structure Escaping where
  escape : Char → List Char
  readString_escape : ∀ c rest,
    readString (escape c ++ rest) = (readString rest).map fun (cs, rest) => (c :: cs, rest)

def Escaping.quoted (e : Escaping) (s : String) : List Char := '"' :: (s.toList.flatMap e.escape ++ ['"'])

section

variable (e : Escaping) (l : Layout)

mutual

def write (level : Nat) : Json Token → List Char
  | .null => ['n', 'u', 'l', 'l']
  | .bool true => ['t', 'r', 'u', 'e']
  | .bool false => ['f', 'a', 'l', 's', 'e']
  | .number token => token
  | .string s => e.quoted s
  | .array [] => ['[', ']']
  | .array (item :: items) => '[' :: (l.first level ++ (write (level + 1) item ++ writeItems level items))
  | .object [] => ['\x7b', '\x7d']
  | .object ((key, value) :: fields) =>
    '\x7b' :: (l.first level ++ (e.quoted key ++ ':' :: (l.colon ++
      (write (level + 1) value ++ writeFields level fields))))

/-- The items behind the first, and the closing bracket. -/
def writeItems (level : Nat) : List (Json Token) → List Char
  | [] => l.last level ++ [']']
  | item :: items => ',' :: (l.next level ++ (write (level + 1) item ++ writeItems level items))

/-- The fields behind the first, and the closing brace. -/
def writeFields (level : Nat) : List (String × Json Token) → List Char
  | [] => l.last level ++ ['\x7d']
  | (key, value) :: fields =>
    ',' :: (l.next level ++ (e.quoted key ++ ':' :: (l.colon ++
      (write (level + 1) value ++ writeFields level fields))))

end

end

/-- A value whose numbers are numbers. -/
abbrev Json.Ok (t : Json Token) : Prop := t.All fun token => isNumber token = true

/-! ### The reader reads what was written -/

theorem dropWhile_space {white : List Char} (h : ∀ c ∈ white, isSpace c = true) (text : List Char) :
    (white ++ text).dropWhile isSpace = text.dropWhile isSpace := List.dropWhile_append_of_pos h

/-- A value goes on until something that cannot stand in a number. -/
def NumberEnd (rest : List Char) : Prop := ∀ c ∈ rest.head?, isNumberChar c = false

theorem numberEnd_cons {c : Char} (h : isNumberChar c = false) (rest : List Char) : NumberEnd (c :: rest) := by
  intro c' hc'
  have heq : c = c' := by simpa using hc'
  exact heq ▸ h

private theorem isNumberChar_of_isDigit {c : Char} (h : c.isDigit = true) : isNumberChar c = true := by
  simp [isNumberChar, h]

private theorem forall_digits {rest : List Char} {p : Char → Prop} (hdigit : ∀ c, c.isDigit = true → p c)
    (h : ∀ c ∈ rest.dropWhile Char.isDigit, p c) : ∀ c ∈ rest, p c := by
  intro c hc
  rw [← List.takeWhile_append_dropWhile (p := Char.isDigit) (l := rest)] at hc
  rcases List.mem_append.1 hc with hc | hc
  · exact hdigit c (List.mem_takeWhile_imp hc)
  · exact h c hc

private theorem exponent_chars {token : Token} (h : exponentOk token = true) : ∀ c ∈ token, isNumberChar c = true := by
  have hdigits {digits : Token} (h : (!digits.isEmpty && digits.all Char.isDigit) = true) :
      ∀ c ∈ digits, isNumberChar c = true := by
    simp only [Bool.and_eq_true, List.all_eq_true] at h
    exact fun c hc => isNumberChar_of_isDigit (h.2 c hc)
  cases token with
  | nil => simp
  | cons e rest =>
    simp only [exponentOk, Bool.and_eq_true] at h
    have he : isNumberChar e = true := by
      have h1 := h.1
      simp only [Bool.or_eq_true, beq_iff_eq] at h1
      rcases h1 with rfl | rfl <;> decide
    have hrest : ∀ c ∈ rest, isNumberChar c = true := by
      have h2 := h.2
      split at h2
      · exact List.forall_mem_cons.2 ⟨by decide, hdigits h2⟩
      · exact List.forall_mem_cons.2 ⟨by decide, hdigits h2⟩
      · exact hdigits h2
    exact List.forall_mem_cons.2 ⟨he, hrest⟩

private theorem fraction_chars {token : Token} (h : fractionOk token = true) : ∀ c ∈ token, isNumberChar c = true := by
  unfold fractionOk at h
  split at h
  · simp only [Bool.and_eq_true] at h
    exact List.forall_mem_cons.2
      ⟨by decide, forall_digits (fun _ => isNumberChar_of_isDigit) (exponent_chars h.2)⟩
  · exact exponent_chars h

private theorem unsigned_chars {token : Token} (h : unsignedOk token = true) : ∀ c ∈ token, isNumberChar c = true := by
  unfold unsignedOk at h
  split at h
  · simp at h
  · exact List.forall_mem_cons.2 ⟨by decide, fraction_chars h⟩
  · simp only [Bool.and_eq_true] at h
    exact List.forall_mem_cons.2 ⟨isNumberChar_of_isDigit h.1,
      forall_digits (fun _ => isNumberChar_of_isDigit) (fraction_chars h.2)⟩

theorem isNumberChar_of_mem {token : Token} (h : isNumber token = true) : ∀ c ∈ token, isNumberChar c = true := by
  unfold isNumber at h
  split at h
  · exact List.forall_mem_cons.2 ⟨by decide, unsigned_chars h⟩
  · exact unsigned_chars h

/-- A number starts with a digit or a minus sign. -/
theorem exists_first {token : Token} (h : isNumber token = true) :
    ∃ c rest, token = c :: rest ∧ (c.isDigit = true ∨ c = '-') := by
  unfold isNumber at h
  split at h
  · exact ⟨_, _, rfl, .inr rfl⟩
  · unfold unsignedOk at h
    split at h
    · simp at h
    · exact ⟨_, _, rfl, .inl (by decide)⟩
    · simp only [Bool.and_eq_true] at h
      exact ⟨_, _, rfl, .inl h.1⟩

theorem readNumber_append {token rest : List Char} (h : isNumber token = true) (hrest : NumberEnd rest) :
    readNumber (token ++ rest) = some (.number token, rest) := by
  have hchars := isNumberChar_of_mem h
  have hnil : rest.takeWhile isNumberChar = [] ∧ rest.dropWhile isNumberChar = rest := by
    cases rest with
    | nil => simp
    | cons c rest => simp [hrest c rfl]
  unfold readNumber
  rw [List.takeWhile_append_of_pos hchars, List.dropWhile_append_of_pos hchars, hnil.1, hnil.2, List.append_nil]
  simp [h]

private theorem toDigits_first {n : Nat} (h : 0 < n) : ∃ c rest, Nat.toDigits 10 n = c :: rest ∧ c ≠ '0' := by
  induction n using Nat.strong_induction_on with
  | _ n ih =>
    by_cases hlt : n < 10
    · refine ⟨n.digitChar, [], Nat.toDigits_of_lt_base hlt, ?_⟩
      interval_cases n <;> decide
    · obtain ⟨c, rest, hdigits, hc⟩ := ih (n / 10) (by omega) (by omega)
      refine ⟨c, rest ++ [(n % 10).digitChar], ?_, hc⟩
      rw [Nat.toDigits_of_base_le (by decide) (by omega), hdigits, List.cons_append]

/-- What can stand behind the digits of an integer. -/
def IntegerEnd (rest : Token) : Prop := fractionOk rest = true ∧ ∀ c ∈ rest.head?, c.isDigit = false

private theorem unsignedOk_append (n : Nat) {rest : Token} (h : IntegerEnd rest) :
    unsignedOk (n.repr.toList ++ rest) = true := by
  have hend : rest.dropWhile Char.isDigit = rest := by
    cases rest with
    | nil => rfl
    | cons c rest => simp [h.2 c rfl]
  rw [Nat.toList_repr]
  by_cases hn : n = 0
  · subst hn
    exact h.1
  · obtain ⟨c, digits, hdigits, hc⟩ := toDigits_first (Nat.pos_of_ne_zero hn)
    have hall : ∀ d ∈ c :: digits, d.isDigit = true := by
      rw [← hdigits]
      exact fun d hd => Nat.isDigit_of_mem_toDigits (by decide) (by decide) hd
    obtain ⟨hfirst, hdigit⟩ := List.forall_mem_cons.1 hall
    rw [hdigits, List.cons_append]
    unfold unsignedOk
    split
    · simp at *
    · rename_i heq
      exact absurd (List.cons.inj heq).1 hc
    · rename_i heq
      obtain ⟨rfl, rfl⟩ := List.cons.inj heq
      rw [List.dropWhile_append_of_pos hdigit, hend, hfirst, h.1]
      rfl

/-- An integer with a fraction or an exponent is written as a number. -/
theorem isNumber_append (n : Int) {rest : Token} (h : IntegerEnd rest) :
    isNumber ((toString n).toList ++ rest) = true := by
  cases n with
  | ofNat n =>
    have hok := unsignedOk_append n h
    change isNumber (n.repr.toList ++ rest) = true
    unfold isNumber
    split
    · rename_i text heq
      rw [heq] at hok
      simp [unsignedOk] at hok
    · exact hok
  | negSucc n =>
    change isNumber (("-" ++ n.succ.repr).toList ++ rest) = true
    rw [String.toList_append]
    exact unsignedOk_append n.succ h

theorem isNumber_toString (n : Int) : isNumber (toString n).toList = true := by
  have hnumber := isNumber_append n (⟨rfl, by simp⟩ : IntegerEnd [])
  rwa [List.append_nil] at hnumber

theorem readString_quoted (e : Escaping) (cs rest : List Char) :
    readString (cs.flatMap e.escape ++ '"' :: rest) = some (cs, rest) := by
  induction cs with
  | nil => simp [readString]
  | cons c cs ih => rw [List.flatMap_cons, List.append_assoc, e.readString_escape, ih, Option.map_some]

mutual

/-- How much fuel a value needs. -/
def Json.size : Json Token → Nat
  | .array items => Json.sizeItems items + 1
  | .object fields => Json.sizeFields fields + 1
  | _ => 1

def Json.sizeItems : List (Json Token) → Nat
  | [] => 0
  | item :: items => item.size + Json.sizeItems items + 1

def Json.sizeFields : List (String × Json Token) → Nat
  | [] => 0
  | (_, value) :: fields => value.size + Json.sizeFields fields + 1

end

theorem readValue_space {white : List Char} (h : ∀ c ∈ white, isSpace c = true) (fuel : Nat) (text : List Char) :
    readValue fuel (white ++ text) = readValue fuel text := by
  cases fuel with
  | zero => simp [readValue]
  | succ fuel => rw [readValue, readValue, dropWhile_space h]

section

variable (e : Escaping) (l : Layout)

/-- What a value starts with is neither white space nor the end of an array. -/
theorem write_first {t : Json Token} (h : t.Ok) (level : Nat) :
    ∃ c rest, write e l level t = c :: rest ∧ isSpace c = false ∧ c ≠ ']' := by
  cases h with
  | null => exact ⟨_, _, by rw [write], by decide, by decide⟩
  | bool b => cases b <;> exact ⟨_, _, by rw [write], by decide, by decide⟩
  | number h =>
    obtain ⟨c, rest, rfl, hc⟩ := exists_first h
    refine ⟨c, rest, by rw [write], ?_, ?_⟩
    · rcases hc with hc | rfl
      · have hne : ∀ d : Char, d.isDigit = false → c ≠ d := by
          intro d hd heq
          subst heq
          simp [hc] at hd
        simp [isSpace, hne]
      · decide
    · rintro rfl
      simp at hc
  | string s => exact ⟨_, _, by rw [write, Escaping.quoted], by decide, by decide⟩
  | @array items =>
    cases items with
    | nil => exact ⟨_, _, by rw [write], by decide, by decide⟩
    | cons item items => exact ⟨_, _, by rw [write], by decide, by decide⟩
  | @object fields =>
    cases fields with
    | nil => exact ⟨_, _, by rw [write], by decide, by decide⟩
    | cons field fields => exact ⟨_, _, by rw [write], by decide, by decide⟩

theorem write_first_append {t : Json Token} (h : t.Ok) (level : Nat) (rest : List Char) :
    ∃ c cs, write e l level t ++ rest = c :: cs ∧ isSpace c = false ∧ c ≠ ']' := by
  obtain ⟨c, cs, hwrite, hspace, hne⟩ := write_first e l h level
  exact ⟨c, cs ++ rest, by rw [hwrite, List.cons_append], hspace, hne⟩

private theorem isNumberChar_of_isSpace {c : Char} (h : isSpace c = true) : isNumberChar c = false := by
  simp only [isSpace, Bool.or_eq_true, beq_iff_eq] at h
  rcases h with ((rfl | rfl) | rfl) | rfl <;> decide

private theorem numberEnd_space {white rest : List Char} (h : ∀ c ∈ white, isSpace c = true) (hrest : NumberEnd rest) :
    NumberEnd (white ++ rest) := by
  cases white with
  | nil => exact hrest
  | cons c white => exact numberEnd_cons (isNumberChar_of_isSpace (h c List.mem_cons_self)) _

theorem numberEnd_writeItems (level : Nat) (items : List (Json Token)) (rest : List Char) :
    NumberEnd (writeItems e l level items ++ rest) := by
  cases items with
  | nil =>
    rw [writeItems, List.append_assoc]
    exact numberEnd_space (l.space_last level) (numberEnd_cons (by decide) _)
  | cons item items =>
    rw [writeItems]
    exact numberEnd_cons (by decide) _

theorem numberEnd_writeFields (level : Nat) (fields : List (String × Json Token)) (rest : List Char) :
    NumberEnd (writeFields e l level fields ++ rest) := by
  cases fields with
  | nil =>
    rw [writeFields, List.append_assoc]
    exact numberEnd_space (l.space_last level) (numberEnd_cons (by decide) _)
  | cons field fields =>
    rw [writeFields]
    exact numberEnd_cons (by decide) _

private theorem dropWhile_first {text : List Char} (h : ∃ c rest, text = c :: rest ∧ isSpace c = false ∧ c ≠ ']') :
    text.dropWhile isSpace = text ∧ ∀ rest, text ≠ ']' :: rest := by
  obtain ⟨c, rest, rfl, hspace, hne⟩ := h
  refine ⟨by simp [hspace], fun rest' heq => ?_⟩
  exact hne (List.cons.inj heq).1

private theorem readValue_number {token rest : List Char} (h : isNumber token = true) (hrest : NumberEnd rest)
    (fuel : Nat) : readValue (fuel + 1) (token ++ rest) = some (.number token, rest) := by
  obtain ⟨c, cs, htoken, hc⟩ := exists_first h
  have hne : ∀ d : Char, d.isDigit = false → d ≠ '-' → c ≠ d := by
    intro d hd hminus heq
    subst heq
    rcases hc with hc | hc
    · simp [hc] at hd
    · exact hminus hc
  have hspace : isSpace c = false := by simp [isSpace, hne]
  have hchar : isNumberChar c = true := isNumberChar_of_mem h c (by simp [htoken])
  have hread := readNumber_append h hrest
  rw [htoken, List.cons_append] at hread ⊢
  rw [readValue]
  simp [hspace, hne, hchar, hread]

mutual

/-- A value that was written is read back, whatever is behind it. -/
theorem readValue_write : ∀ (t : Json Token) (level fuel : Nat) (rest : List Char), t.Ok → t.size ≤ fuel →
    NumberEnd rest → readValue fuel (write e l level t ++ rest) = some (t, rest)
  | t, level, 0, rest => by
    intro _ hsize _
    cases t <;> simp [Json.size] at hsize
  | .null, level, fuel + 1, rest => by
    intro _ _ _
    simp [write, readValue, readName, isSpace, isNumberChar]
  | .bool true, level, fuel + 1, rest => by
    intro _ _ _
    simp [write, readValue, readName, isSpace, isNumberChar]
  | .bool false, level, fuel + 1, rest => by
    intro _ _ _
    simp [write, readValue, readName, isSpace, isNumberChar]
  | .number token, level, fuel + 1, rest => by
    intro hok _ hrest
    cases hok with
    | number h =>
      rw [write]
      exact readValue_number h hrest fuel
  | .string s, level, fuel + 1, rest => by
    intro _ _ _
    have hread := readString_quoted e s.toList rest
    rw [write, Escaping.quoted, readValue]
    simp [isSpace, hread]
  | .array [], level, fuel + 1, rest => by
    intro _ _ _
    simp [write, readValue, isSpace]
  | .array (item :: items), level, fuel + 1, rest => by
    intro hok hsize _
    cases hok with
    | array h =>
      obtain ⟨hitem, hitems⟩ := List.forall_mem_cons.1 h
      have hread := readItems_write item items level fuel rest [] (by simp) hitem hitems
        (by simp only [Json.size] at hsize; omega)
      obtain ⟨hdrop, hne⟩ := dropWhile_first (write_first_append e l hitem (level + 1)
        (writeItems e l level items ++ rest))
      rw [List.nil_append] at hread
      have htext : (l.first level ++ (write e l (level + 1) item ++ writeItems e l level items) ++ rest).dropWhile
          isSpace = write e l (level + 1) item ++ (writeItems e l level items ++ rest) := by
        rw [List.append_assoc, List.append_assoc, dropWhile_space (l.space_first level), hdrop]
      have hopen : isSpace '[' = false := by decide
      rw [write, List.cons_append, readValue, List.dropWhile_cons_of_neg (by simp [hopen])]
      simp only [Char.reduceEq, ↓reduceIte, htext, hread]
      rfl
  | .object [], level, fuel + 1, rest => by
    intro _ _ _
    simp [write, readValue, isSpace]
  | .object ((key, value) :: fields), level, fuel + 1, rest => by
    intro hok hsize _
    cases hok with
    | object h =>
      obtain ⟨hvalue, hfields⟩ := List.forall_mem_cons.1 h
      have hread := readFields_write key value fields level fuel rest [] (by simp) hvalue hfields
        (by simp only [Json.size] at hsize; omega)
      rw [List.nil_append] at hread
      have hquote : isSpace '"' = false := by decide
      have htext : (l.first level ++ (e.quoted key ++ ':' :: (l.colon ++ (write e l (level + 1) value ++
          writeFields e l level fields))) ++ rest).dropWhile isSpace =
          e.quoted key ++ ':' :: (l.colon ++ (write e l (level + 1) value ++ (writeFields e l level fields ++ rest))) := by
        rw [List.append_assoc, dropWhile_space (l.space_first level), Escaping.quoted]
        simp [hquote]
      have hopen : isSpace '\x7b' = false := by decide
      rw [write, List.cons_append, readValue, List.dropWhile_cons_of_neg (by simp [hopen])]
      simp only [Char.reduceEq, ↓reduceIte, htext]
      have hmatch := congrArg (Option.map fun x : List (String × Json Token) × List Char => (Json.object x.1, x.2)) hread
      simpa [Escaping.quoted] using hmatch

theorem readItems_write : ∀ (item : Json Token) (items : List (Json Token)) (level fuel : Nat)
    (rest white : List Char), (∀ c ∈ white, isSpace c = true) → item.Ok → (∀ item ∈ items, item.Ok) →
    Json.sizeItems (item :: items) ≤ fuel →
    readItems fuel (white ++ (write e l (level + 1) item ++ (writeItems e l level items ++ rest))) =
      some (item :: items, rest)
  | item, items, level, 0, rest, white => by
    intro _ _ _ hsize
    simp [Json.sizeItems] at hsize
  | item, items, level, fuel + 1, rest, white => by
    intro hwhite hitem hitems hsize
    rw [Json.sizeItems] at hsize
    have hread := readValue_write item (level + 1) fuel (writeItems e l level items ++ rest) hitem (by omega)
      (numberEnd_writeItems e l level items rest)
    rw [readItems, readValue_space hwhite, hread]
    cases items with
    | nil =>
      have hclose : isSpace ']' = false := by decide
      rw [writeItems, List.append_assoc]
      simp only [dropWhile_space (l.space_last level)]
      simp [hclose]
    | cons next items =>
      obtain ⟨hnext, hitems⟩ := List.forall_mem_cons.1 hitems
      have hrest := readItems_write next items level fuel rest (l.next level) (l.space_next level) hnext hitems
        (by omega)
      have hcomma : isSpace ',' = false := by decide
      rw [writeItems, List.cons_append]
      simp only [List.append_assoc, List.dropWhile_cons_of_neg (by simp [hcomma] : ¬ isSpace ',' = true), hrest]
      rfl

theorem readFields_write : ∀ (key : String) (value : Json Token) (fields : List (String × Json Token))
    (level fuel : Nat) (rest white : List Char), (∀ c ∈ white, isSpace c = true) → value.Ok →
    (∀ field ∈ fields, field.2.Ok) → Json.sizeFields ((key, value) :: fields) ≤ fuel →
    readFields fuel (white ++ (e.quoted key ++ ':' :: (l.colon ++
      (write e l (level + 1) value ++ (writeFields e l level fields ++ rest))))) = some ((key, value) :: fields, rest)
  | key, value, fields, level, 0, rest, white => by
    intro _ _ _ hsize
    simp [Json.sizeFields] at hsize
  | key, value, fields, level, fuel + 1, rest, white => by
    intro hwhite hvalue hfields hsize
    rw [Json.sizeFields] at hsize
    have hread := readValue_write value (level + 1) fuel (writeFields e l level fields ++ rest) hvalue (by omega)
      (numberEnd_writeFields e l level fields rest)
    have hquote : isSpace '"' = false := by decide
    have hcolon : isSpace ':' = false := by decide
    have hkey := readString_quoted e key.toList (':' :: (l.colon ++
      (write e l (level + 1) value ++ (writeFields e l level fields ++ rest))))
    have htext : (white ++ (e.quoted key ++ ':' :: (l.colon ++ (write e l (level + 1) value ++
        (writeFields e l level fields ++ rest))))).dropWhile isSpace =
        '"' :: (key.toList.flatMap e.escape ++ '"' :: ':' :: (l.colon ++ (write e l (level + 1) value ++
          (writeFields e l level fields ++ rest)))) := by
      rw [dropWhile_space hwhite, Escaping.quoted]
      simp [hquote]
    rw [readFields, htext]
    simp only [hkey, List.dropWhile_cons_of_neg (by simp [hcolon] : ¬ isSpace ':' = true),
      readValue_space l.space_colon, hread, String.ofList_toList]
    cases fields with
    | nil =>
      have hclose : isSpace '\x7d' = false := by decide
      rw [writeFields, List.append_assoc]
      simp only [dropWhile_space (l.space_last level)]
      simp [hclose]
    | cons field fields =>
      obtain ⟨next, value'⟩ := field
      obtain ⟨hnext, hfields⟩ := List.forall_mem_cons.1 hfields
      have hrest := readFields_write next value' fields level fuel rest (l.next level) (l.space_next level) hnext
        hfields (by omega)
      have hcomma : isSpace ',' = false := by decide
      rw [writeFields, List.cons_append]
      simp only [List.append_assoc, List.cons_append,
        List.dropWhile_cons_of_neg (by simp [hcomma] : ¬ isSpace ',' = true), hrest]
      rfl

end

mutual

theorem size_le : ∀ (t : Json Token) (level : Nat), t.Ok → t.size + 1 ≤ 2 * (write e l level t).length
  | .null, _, _ => by simp [Json.size, write]
  | .bool true, _, _ => by simp [Json.size, write]
  | .bool false, _, _ => by simp [Json.size, write]
  | .number token, _, .number h => by
    obtain ⟨c, rest, rfl, -⟩ := exists_first h
    simp only [Json.size, write, List.length_cons]
    omega
  | .string s, _, _ => by
    simp only [Json.size, write, Escaping.quoted, List.length_cons, List.length_append]
    omega
  | .array [], _, _ => by simp [Json.size, Json.sizeItems, write]
  | .array (item :: items), level, .array h => by
    obtain ⟨hitem, hitems⟩ := List.forall_mem_cons.1 h
    have h1 := size_le item (level + 1) hitem
    have h2 := sizeItems_le items level hitems
    simp only [Json.size, Json.sizeItems, write, List.length_cons, List.length_append]
    omega
  | .object [], _, _ => by simp [Json.size, Json.sizeFields, write]
  | .object ((key, value) :: fields), level, .object h => by
    obtain ⟨hvalue, hfields⟩ := List.forall_mem_cons.1 h
    have h1 := size_le value (level + 1) hvalue
    have h2 := sizeFields_le fields level hfields
    simp only [Json.size, Json.sizeFields, write, List.length_cons, List.length_append]
    omega

theorem sizeItems_le : ∀ (items : List (Json Token)) (level : Nat), (∀ item ∈ items, item.Ok) →
    Json.sizeItems items ≤ 2 * (writeItems e l level items).length
  | [], _, _ => by simp [Json.sizeItems]
  | item :: items, level, h => by
    obtain ⟨hitem, hitems⟩ := List.forall_mem_cons.1 h
    have h1 := size_le item (level + 1) hitem
    have h2 := sizeItems_le items level hitems
    simp only [Json.sizeItems, writeItems, List.length_cons, List.length_append]
    omega

theorem sizeFields_le : ∀ (fields : List (String × Json Token)) (level : Nat), (∀ field ∈ fields, field.2.Ok) →
    Json.sizeFields fields ≤ 2 * (writeFields e l level fields).length
  | [], _, _ => by simp [Json.sizeFields]
  | (key, value) :: fields, level, h => by
    obtain ⟨hvalue, hfields⟩ := List.forall_mem_cons.1 h
    have h1 := size_le value (level + 1) hvalue
    have h2 := sizeFields_le fields level hfields
    simp only [Json.sizeFields, writeFields, List.length_cons, List.length_append]
    omega

end

/-- Whatever the layout and the escapes, the text is read back as the value it was written from. -/
theorem read_write {t : Json Token} (h : t.Ok) (level : Nat) : read (write e l level t) = some t := by
  have hsize := size_le e l t level h
  have hread := readValue_write e l t level (2 * (write e l level t).length + 1) [] h (by omega) (by simp [NumberEnd])
  rw [List.append_nil] at hread
  simp [read, hread]

end

end Rfc8259
