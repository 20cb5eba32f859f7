import Mathlib.Data.List.Basic

/-!
# Percent-encoding

The percent-encoding of a text by its UTF-8 bytes, and the form encoding of a query, with their decoders.  A decoder
takes any text; `decode_encode` and `formDecode_formEncode` say that it undoes the encoder, whatever the text and
whatever characters are kept.
-/

namespace Percent

/-! ### UTF-8 -/

def utf8 (text : List Char) : List UInt8 := text.flatMap String.utf8EncodeChar

/-- How many bytes at the front are the beginning of a character that breaks off. -/
def brokenLength : List UInt8 → Nat
  | lead :: second :: rest =>
    let lead := lead.toNat
    let second := second.toNat
    let low := if lead = 0xE0 then 0xA0 else if lead = 0xF0 then 0x90 else 0x80
    let high := if lead = 0xED then 0x9F else if lead = 0xF4 then 0x8F else 0xBF
    if lead < 0xE0 ∨ 0xF4 < lead ∨ second < low ∨ high < second then 1
    else if 0xF0 ≤ lead ∧ rest.head?.any (fun third => 0x80 ≤ third.toNat ∧ third.toNat ≤ 0xBF) then 3
    else 2
  | _ => 1

/-- With no more characters than bytes. -/
def readLossy : Nat → List UInt8 → List Char
  | 0, _ => []
  | _ + 1, [] => []
  | n + 1, bytes =>
    match bytes.toByteArray.utf8DecodeChar? 0 with
    | some c => c :: readLossy n (bytes.drop c.utf8Size)
    | none => '\uFFFD' :: readLossy n (bytes.drop (brokenLength bytes))

/-- What breaks off is replaced. -/
def fromUtf8Lossy (bytes : List UInt8) : List Char := readLossy bytes.length bytes

theorem utf8_cons (c : Char) (text : List Char) : utf8 (c :: text) = String.utf8EncodeChar c ++ utf8 text :=
  List.flatMap_cons

theorem readLossy_utf8 (text : List Char) {n : Nat} (h : text.length ≤ n) : readLossy n (utf8 text) = text := by
  induction text generalizing n with
  | nil => cases n <;> rfl
  | cons c text ih =>
    obtain ⟨n, rfl⟩ := Nat.exists_eq_succ_of_ne_zero (Nat.ne_of_gt (Nat.lt_of_lt_of_le (Nat.succ_pos _) h))
    have hlength : (String.utf8EncodeChar c).length = c.utf8Size := String.length_utf8EncodeChar c
    have hne : utf8 (c :: text) ≠ [] := by
      intro hnil
      rw [utf8_cons, List.append_eq_nil_iff, ← List.length_eq_zero_iff, hlength] at hnil
      exact Nat.ne_of_gt c.utf8Size_pos hnil.1
    have hread : (utf8 (c :: text)).toByteArray.utf8DecodeChar? 0 = some c := by
      rw [utf8_cons, List.toByteArray_append]
      exact ByteArray.utf8DecodeChar?_utf8EncodeChar_append
    rw [readLossy, hread]
    · dsimp only
      rw [utf8_cons, ← hlength, List.drop_left, ih (Nat.le_of_succ_le_succ h)]
    · exact hne

/-- The bytes of a text are read as the text. -/
theorem fromUtf8Lossy_utf8 (text : List Char) : fromUtf8Lossy (utf8 text) = text := by
  refine readLossy_utf8 text ?_
  induction text with
  | nil => exact Nat.le_refl _
  | cons c text ih =>
    have hpos := c.utf8Size_pos
    rw [utf8_cons, List.length_append, String.length_utf8EncodeChar, List.length_cons]
    omega

/-! ### Encoding -/

def hexDigit (n : Nat) : Char := Char.ofNat (if n < 10 then 0x30 + n else 0x37 + n)

def encodeByte (b : UInt8) : List Char := ['%', hexDigit (b.toNat / 16), hexDigit (b.toNat % 16)]

/-- A character that is not kept, by its bytes. -/
def encodeChar (keep : Char → Bool) (c : Char) : List Char :=
  if keep c then [c] else (String.utf8EncodeChar c).flatMap encodeByte

def encode (keep : Char → Bool) (text : List Char) : List Char := text.flatMap (encodeChar keep)

/-! ### Decoding -/

/-- `char::to_digit(16)`. -/
def hexValue (c : Char) : Option Nat :=
  let n := c.toNat
  if 0x30 ≤ n ∧ n ≤ 0x39 then some (n - 0x30)
  else if 0x41 ≤ n ∧ n ≤ 0x46 then some (n - 0x37)
  else if 0x61 ≤ n ∧ n ≤ 0x66 then some (n - 0x57)
  else none

/-- A percent sign without two digits stands for itself. -/
def decode : List Char → List UInt8
  | '%' :: high :: low :: rest =>
    match hexValue high, hexValue low with
    | some x, some y => UInt8.ofNat (16 * x + y) :: decode rest
    | _, _ => 0x25 :: decode (high :: low :: rest)
  | c :: rest => String.utf8EncodeChar c ++ decode rest
  | [] => []

theorem hexValue_hexDigit : ∀ n < 16, hexValue (hexDigit n) = some n := by decide

theorem decode_cons {c : Char} (h : c ≠ '%') (rest : List Char) :
    decode (c :: rest) = String.utf8EncodeChar c ++ decode rest := by
  rw [decode]
  rintro high low tail rfl
  exact absurd rfl h

theorem decode_encodeByte (b : UInt8) (rest : List Char) : decode (encodeByte b ++ rest) = b :: decode rest := by
  have hb : b.toNat < 256 := b.toNat_lt
  have hvalue : UInt8.ofNat (16 * (b.toNat / 16) + b.toNat % 16) = b := by
    rw [Nat.div_add_mod]
    exact UInt8.ofNat_toNat
  change decode ('%' :: hexDigit (b.toNat / 16) :: hexDigit (b.toNat % 16) :: rest) = _
  rw [decode, hexValue_hexDigit _ (by omega), hexValue_hexDigit _ (by omega)]
  dsimp only
  rw [hvalue]

theorem decode_encodeChar {keep : Char → Bool} (hkeep : keep '%' = false) (c : Char) (rest : List Char) :
    decode (encodeChar keep c ++ rest) = String.utf8EncodeChar c ++ decode rest := by
  unfold encodeChar
  split
  · rename_i hc
    refine decode_cons ?_ rest
    rintro rfl
    rw [hkeep] at hc
    cases hc
  · induction String.utf8EncodeChar c with
    | nil => rfl
    | cons b bytes ih => rw [List.flatMap_cons, List.append_assoc, decode_encodeByte, ih, List.cons_append]

/-- The decoder undoes the encoder. -/
theorem decode_encode {keep : Char → Bool} (hkeep : keep '%' = false) (text : List Char) :
    decode (encode keep text) = utf8 text := by
  unfold encode
  induction text with
  | nil => rfl
  | cons c text ih => rw [List.flatMap_cons, decode_encodeChar hkeep, ih, utf8_cons]

/-- A text without a percent sign is its own encoding. -/
theorem decode_of_not_mem {text : List Char} (h : '%' ∉ text) : decode text = utf8 text := by
  induction text with
  | nil => rfl
  | cons c text ih =>
    have hc : c ≠ '%' := fun hc => h (hc ▸ List.mem_cons_self)
    rw [decode_cons hc, ih fun hmem => h (List.mem_cons_of_mem c hmem), utf8_cons]

/-! ### What an encoding is made of -/

def isHexDigit (c : Char) : Bool := (hexValue c).isSome

theorem isHexDigit_hexDigit : ∀ n < 16, isHexDigit (hexDigit n) = true := by decide

theorem mem_encodeChar {keep : Char → Bool} {c d : Char} (h : d ∈ encodeChar keep c) :
    keep d = true ∨ d = '%' ∨ isHexDigit d = true := by
  unfold encodeChar at h
  split at h
  · rename_i hc
    rw [List.mem_singleton.1 h]
    exact .inl hc
  · obtain ⟨b, -, hb⟩ := List.mem_flatMap.1 h
    have hlt : b.toNat < 256 := b.toNat_lt
    unfold encodeByte at hb
    rcases List.mem_cons.1 hb with rfl | hb
    · exact .inr (.inl rfl)
    · rcases List.mem_cons.1 hb with rfl | hb
      · exact .inr (.inr (isHexDigit_hexDigit _ (by omega)))
      · rw [List.mem_singleton.1 hb]
        exact .inr (.inr (isHexDigit_hexDigit _ (by omega)))

theorem mem_encode {keep : Char → Bool} {text : List Char} {d : Char} (h : d ∈ encode keep text) :
    keep d = true ∨ d = '%' ∨ isHexDigit d = true := by
  obtain ⟨c, -, hc⟩ := List.mem_flatMap.1 h
  exact mem_encodeChar hc

/-! ### Forms -/

def isAlphanumeric (c : Char) : Bool := c.isAlpha || c.isDigit

theorem isAlphanumeric_iff {c : Char} :
    isAlphanumeric c = true ↔
      (0x41 ≤ c.toNat ∧ c.toNat ≤ 0x5A) ∨ (0x61 ≤ c.toNat ∧ c.toNat ≤ 0x7A) ∨ (0x30 ≤ c.toNat ∧ c.toNat ≤ 0x39) := by
  unfold isAlphanumeric Char.isAlpha Char.isUpper Char.isLower Char.isDigit
  simp only [Bool.or_eq_true, Bool.and_eq_true, decide_eq_true_eq, ge_iff_le, UInt32.le_iff_toNat_le, or_assoc]
  exact Iff.rfl

theorem isAlphanumeric_of_isHexDigit {c : Char} (h : isHexDigit c = true) : isAlphanumeric c = true := by
  rw [isAlphanumeric_iff]
  unfold isHexDigit hexValue at h
  dsimp only at h
  split at h
  · omega
  · split at h
    · omega
    · split at h
      · omega
      · cases h

/-- `*`, `-`, `.`, `_`, and the letters and digits of ASCII. -/
def formKeep (c : Char) : Bool := isAlphanumeric c || c == '*' || c == '-' || c == '.' || c == '_'

/-- A blank is written as a plus sign. -/
def formEncode (text : List Char) : List Char :=
  text.flatMap fun c => if c = ' ' then ['+'] else encodeChar formKeep c

def formDecode (text : List Char) : List Char :=
  fromUtf8Lossy (decode (text.map fun c => if c = '+' then ' ' else c))

theorem formEncode_eq_encode {text : List Char} (h : ' ' ∉ text) : formEncode text = encode formKeep text := by
  refine List.flatMap_congr fun c hc => if_neg ?_
  rintro rfl
  exact h hc

theorem mem_formEncode {text : List Char} {d : Char} (h : d ∈ formEncode text) :
    formKeep d = true ∨ d = '%' ∨ d = '+' ∨ isHexDigit d = true := by
  obtain ⟨c, -, hc⟩ := List.mem_flatMap.1 h
  split at hc
  · exact .inr (.inr (.inl (List.mem_singleton.1 hc)))
  · rcases mem_encodeChar hc with hkeep | hpercent | hhex
    · exact .inl hkeep
    · exact .inr (.inl hpercent)
    · exact .inr (.inr (.inr hhex))

theorem map_plus (text : List Char) :
    ((formEncode text).map fun c => if c = '+' then ' ' else c) = encode (fun c => c == ' ' || formKeep c) text := by
  unfold formEncode encode
  rw [List.map_flatMap]
  refine congrArg (fun f => List.flatMap f text) (funext fun c => ?_)
  split
  · rename_i hc
    subst hc
    rfl
  · rename_i hc
    have hkeep : (c == ' ' || formKeep c) = formKeep c := by rw [beq_false_of_ne hc, Bool.false_or]
    have hsame : encodeChar (fun c => c == ' ' || formKeep c) c = encodeChar formKeep c := by
      simp only [encodeChar, hkeep]
    rw [hsame]
    refine (List.map_congr_left fun d hd => ?_).trans (List.map_id _)
    refine if_neg ?_
    rintro rfl
    rcases mem_encodeChar hd with h | h | h <;> revert h <;> decide

/-- The form decoder undoes the form encoder. -/
theorem formDecode_formEncode (text : List Char) : formDecode (formEncode text) = text := by
  unfold formDecode
  rw [map_plus, decode_encode (by decide), fromUtf8Lossy_utf8]

/-- The pairs of a query. -/
def parsePairs (query : List Char) : List (List Char × List Char) :=
  ((query.splitOn '&').filter (!·.isEmpty)).map fun pair =>
    (formDecode (pair.takeWhile (· != '=')), formDecode (pair.dropWhile (· != '=')).tail)

/-- The characters that cut a query are encoded. -/
theorem not_mem_formEncode {c : Char} (hc : c = '&' ∨ c = '=') (text : List Char) : c ∉ formEncode text := by
  intro hmem
  rcases hc with rfl | rfl
  · rcases mem_formEncode hmem with h | h | h | h <;> revert h <;> decide
  · rcases mem_formEncode hmem with h | h | h | h <;> revert h <;> decide

/-- A pair that was written is the one that is read. -/
theorem parsePairs_pair (key value : List Char) :
    parsePairs (formEncode key ++ '=' :: formEncode value) = [(key, value)] := by
  have hone : '&' ∉ formEncode key ++ '=' :: formEncode value := by
    rw [List.mem_append, List.mem_cons]
    rintro (h | h | h)
    · exact not_mem_formEncode (.inl rfl) key h
    · cases h
    · exact not_mem_formEncode (.inl rfl) value h
  have hkey : ∀ c ∈ formEncode key, (c != '=') = true := by
    intro c hc
    rw [bne_iff_ne]
    rintro rfl
    exact not_mem_formEncode (.inr rfl) key hc
  have hfull : [formEncode key ++ '=' :: formEncode value].filter (!·.isEmpty) =
      [formEncode key ++ '=' :: formEncode value] := by
    refine List.filter_eq_self.2 fun pair hpair => ?_
    rw [List.mem_singleton.1 hpair,
      List.isEmpty_eq_false_iff.2 (List.append_ne_nil_of_right_ne_nil _ (List.cons_ne_nil _ _))]
    rfl
  have htake : ('=' :: formEncode value).takeWhile (· != '=') = [] := rfl
  have hdrop : ('=' :: formEncode value).dropWhile (· != '=') = '=' :: formEncode value := rfl
  unfold parsePairs
  rw [List.splitOn_eq_singleton hone, hfull, List.map_singleton,
    List.takeWhile_append_of_pos hkey, List.dropWhile_append_of_pos hkey, htake, hdrop, List.append_nil,
    List.tail_cons, formDecode_formEncode, formDecode_formEncode]

end Percent
