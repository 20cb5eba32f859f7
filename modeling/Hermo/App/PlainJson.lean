import Mathlib.Data.Nat.Prime.Basic
import Mathlib.Data.Rat.Lemmas
import Mathlib.Tactic.FieldSimp
import Hermo.App.RowCodec

/-!
# Libraries that keep their laws

A writer and readers of plain JSON texts, for `serde_json`, `org.json` and Foundation.  A number is written in full:
an integer, an integer with a fraction of zero, or an integer and a negative power of ten.
-/

namespace Hermo

open Rfc8259 (Json Token)

/-! ### Numbers -/

/-- A sum of powers of two, in full. -/
def plainNumber (q : ℚ) : Token :=
  if q.den = 1 then (toString q.num).toList ++ ['.', '0']
  else (toString (q.num * 5 ^ q.den.log2)).toList ++ 'e' :: '-' :: q.den.log2.repr.toList

def plainValue (token : Token) : Option ℚ :=
  match parseInt token with
  | some (n, 'e' :: '-' :: digits) => (parseNat digits).map fun (k, _) => (n : ℚ) / 10 ^ k
  | some (n, _) => some n
  | none => none

theorem isNumber_plainNumber (q : ℚ) : Rfc8259.isNumber (plainNumber q) = true := by
  unfold plainNumber
  split
  · exact Rfc8259.isNumber_append _ ⟨by simp [Rfc8259.fractionOk, Rfc8259.exponentOk], by simp⟩
  · refine Rfc8259.isNumber_append _ ⟨?_, by simp⟩
    have hdigit : ∀ c ∈ Nat.toDigits 10 q.den.log2, c.isDigit = true :=
      fun c hc => Nat.isDigit_of_mem_toDigits (by decide) (by decide) hc
    simpa [Rfc8259.fractionOk, Rfc8259.exponentOk] using hdigit

theorem plainValue_int (n : ℤ) : plainValue (toString n).toList = some (n : ℚ) := by
  have hint := parseInt_repr n (by simp [NoDigit] : NoDigit [])
  rw [List.append_nil] at hint
  rw [plainValue, hint]

theorem plainValue_plainNumber {q : ℚ} {k : ℕ} (h : q.den = 2 ^ k) : plainValue (plainNumber q) = some q := by
  unfold plainNumber
  split
  · rename_i hone
    have hint := parseInt_repr q.num (by simp [NoDigit] : NoDigit ['.', '0'])
    rw [plainValue, hint]
    exact congrArg some ((Rat.den_eq_one_iff q).1 hone)
  · have hlog : q.den.log2 = k := by rw [h, Nat.log2_two_pow]
    have hint := parseInt_repr (q.num * 5 ^ k) (by simp [NoDigit] : NoDigit ('e' :: '-' :: k.repr.toList))
    have hnat := parseNat_repr k (by simp [NoDigit] : NoDigit [])
    rw [List.append_nil] at hnat
    rw [hlog, plainValue, hint]
    change (parseNat k.repr.toList).map _ = _
    rw [hnat, Option.map_some]
    congr 1
    have hq : q = q.num / 2 ^ k := by
      have hdiv := (Rat.num_div_den q).symm
      rwa [h, Nat.cast_pow, Nat.cast_ofNat] at hdiv
    have hten : (10 : ℚ) ^ k = 2 ^ k * 5 ^ k := by rw [← mul_pow]; norm_num
    change ((q.num * 5 ^ k : ℤ) : ℚ) / 10 ^ k = q
    rw [hten]
    conv_rhs => rw [hq]
    push_cast
    field_simp

/-- What `m * 2 ^ e` is has a denominator that is a power of two. -/
theorem den_of_pow {q : ℚ} {m e : ℤ} (h : q = m * 2 ^ e) : ∃ k : ℕ, q.den = 2 ^ k := by
  by_cases he : 0 ≤ e
  · obtain ⟨n, rfl⟩ := Int.eq_ofNat_of_zero_le he
    have hint : q = (m * 2 ^ n : ℤ) := by rw [h]; push_cast; rfl
    exact ⟨0, by rw [hint, Rat.den_intCast, pow_zero]⟩
  · obtain ⟨n, hn⟩ := Int.eq_ofNat_of_zero_le (show 0 ≤ -e by omega)
    have hfrac : q = Rat.divInt m (2 ^ n) := by
      have he : e = -n := by omega
      rw [h, he, zpow_neg, Rat.divInt_eq_div]
      push_cast
      rfl
    have hdvd : (q.den : ℤ) ∣ (2 ^ n : ℤ) := by
      rw [hfrac]
      exact Rat.den_dvd m (2 ^ n)
    have hnat : q.den ∣ 2 ^ n := by exact_mod_cast hdvd
    obtain ⟨k, -, hk⟩ := (Nat.dvd_prime_pow Nat.prime_two).1 hnat
    exact ⟨k, hk⟩

/-! ### Foundation -/

open Classical in
/-- The double a number is, if it is one. -/
noncomputable def plainDouble (q : ℚ) : Option Double :=
  if h : ∃ m e : ℤ, |m| < 2 ^ 53 ∧ -1074 ≤ e ∧ e ≤ 971 ∧ q = m * 2 ^ e then some ⟨q, h⟩ else none

theorem plainDouble_value (x : Double) : plainDouble x.value = some x := dif_pos x.isDouble

/-- The JSON text of a value. -/
def plainText (t : Json Token) : String := String.ofList (Rfc8259.write LooseJSON.escaping LooseJSON.compactLayout 0 t)

theorem read_plainText {t : Json Token} (h : t.Ok) : Rfc8259.read (plainText t).toList = some t := by
  rw [plainText, String.toList_ofList]
  exact Rfc8259.read_write _ _ h 0

open Classical in
/-- The value of a text in which no name comes twice and no more than 512 arrays and objects lie in each other. -/
noncomputable def plainRead {μ : Type} (f : Token → Option μ) (text : String) : Option (Json μ) :=
  (Rfc8259.read text.toList).bind fun t => if t.Distinct ∧ t.depth ≤ 512 then t.traverse f else none

private theorem plainRead_of_read {μ : Type} (f : Token → Option μ) {text : String} {t : Json Token}
    (h : Rfc8259.read text.toList = some t) (hdistinct : t.Distinct) (hdepth : t.depth ≤ 512) :
    plainRead f text = t.traverse f := by
  rw [plainRead, h, Option.bind_some, if_pos ⟨hdistinct, hdepth⟩]

private theorem distinct_plainRead {μ : Type} {f : Token → Option μ} {text : String} {parsed : Json μ}
    (h : plainRead f text = some parsed) : parsed.Distinct ∧ parsed.depth ≤ 512 := by
  rw [plainRead, Option.bind_eq_some_iff] at h
  obtain ⟨t, -, ht⟩ := h
  split at ht
  · rename_i hok
    exact ⟨hok.1.traverse ht, Json.depth_traverse t ht ▸ hok.2⟩
  · cases ht

/-- The double of a token. -/
noncomputable def plainDoubleOf (token : Token) : Option Double := (plainValue token).bind plainDouble

theorem plainDoubleOf_int {x : Double} {n : ℤ} (h : x.value = n) : plainDoubleOf (toString n).toList = some x := by
  rw [plainDoubleOf, plainValue_int, Option.bind_some, ← h, plainDouble_value]

theorem plainDoubleOf_plainNumber {x : Double} {q : ℚ} (h : x.value = q) : plainDoubleOf (plainNumber q) = some x := by
  obtain ⟨m, e, -, -, -, hvalue⟩ := x.isDouble
  obtain ⟨k, hk⟩ := den_of_pow (h ▸ hvalue)
  rw [plainDoubleOf, plainValue_plainNumber hk, Option.bind_some, ← h, plainDouble_value]

/-! ### The libraries -/

@[reducible] noncomputable def Foundation.plain : Foundation where
  jsonObject := plainRead plainDoubleOf
  allKeys := id
  description x := String.ofList (plainNumber x.value)
  parseDouble text := (plainDoubleOf text.toList).map .finite
  sameIgnoringCase s s' := s.toLower == s'.toLower
  isWhitespaceOrNewline := Markdown.isWhiteSpace
  stringsText ss := plainText (.array (ss.map .string))
  doubleValue := plainDoubleOf

private theorem ok_strings (ss : List String) : (Json.array (ss.map .string) : Json Token).Ok := by
  refine .array fun item hitem => ?_
  obtain ⟨s, -, rfl⟩ := List.mem_map.1 hitem
  exact .string s

theorem Foundation.lawful_plain : @LawfulFoundation Foundation.plain :=
  @LawfulFoundation.mk Foundation.plain
    (fun _ _ h hdistinct hdepth => plainRead_of_read plainDoubleOf h hdistinct hdepth)
    (fun _ _ h => distinct_plainRead h)
    (fun keys _ => List.Perm.refl keys)
    (fun x => by
      change Rfc8259.isNumber (String.ofList (plainNumber x.value)).toList = true
      rw [String.toList_ofList]
      exact isNumber_plainNumber x.value)
    (fun x => by
      change plainDoubleOf (String.ofList (plainNumber x.value)).toList = some x
      rw [String.toList_ofList]
      exact plainDoubleOf_plainNumber rfl)
    (fun ss => read_plainText (ok_strings ss))
    (fun c h => by
      change Markdown.isWhiteSpace c = true
      simp only [Rfc8259.isSpace, Bool.or_eq_true, beq_iff_eq] at h
      rcases h with ((rfl | rfl) | rfl) | rfl <;> decide)
    (fun c hlow hhigh => by
      change Markdown.isWhiteSpace c = false
      simp [Markdown.isWhiteSpace]
      omega)
    (fun x n h _ => plainDoubleOf_int h)

noncomputable def OrgJson.plainNumberOf (token : Token) : Option OrgNumber :=
  match parseInt token with
  | some (n, []) => some (.integer n)
  | _ => (plainDoubleOf token).map .double

/-- A number that is written with a fraction or an exponent is a double. -/
theorem OrgJson.plainNumberOf_plainNumber {x : Double} {q : ℚ} (h : x.value = q) :
    OrgJson.plainNumberOf (plainNumber q) = some (.double x) := by
  have hread := plainDoubleOf_plainNumber h
  have hint : ∃ n c rest, parseInt (plainNumber q) = some (n, c :: rest) := by
    unfold plainNumber
    split
    · exact ⟨_, _, _, parseInt_repr _ (by simp [NoDigit])⟩
    · exact ⟨_, _, _, parseInt_repr _ (by simp [NoDigit])⟩
  obtain ⟨n, c, rest, hint⟩ := hint
  rw [OrgJson.plainNumberOf, hint, hread]
  rfl

def OrgJson.plainNumberText : OrgNumber → String
  | .integer n => toString n
  | .double x => String.ofList (plainNumber x.value)

@[reducible] noncomputable def OrgJson.plain : OrgJson where
  jsonObject text :=
    match plainRead OrgJson.plainNumberOf text with
    | some (.object fields) => some fields
    | _ => none
  jsonArray text :=
    match plainRead OrgJson.plainNumberOf text with
    | some (.array items) => some items
    | _ => none
  nextValue := plainRead OrgJson.plainNumberOf
  prettyText t := String.ofList (Rfc8259.write LooseJSON.escaping (LooseJSON.prettyLayout 2) 0
    (t.map fun n => (OrgJson.plainNumberText n).toList))
  numberText := OrgJson.plainNumberText
  text t := plainText (t.map fun n => (OrgJson.plainNumberText n).toList)
  parseDouble text := (plainDoubleOf text.toList).map .finite
  equalsIgnoreCase s s' := s.toLower == s'.toLower
  numberOf := OrgJson.plainNumberOf

private theorem ok_plainNumberText (t : Json OrgNumber) :
    (t.map fun n => (OrgJson.plainNumberText n).toList).Ok := by
  refine (Json.all_of_forall (fun n => ?_) t).map
  cases n with
  | integer n => exact Rfc8259.isNumber_toString n
  | double x =>
    change Rfc8259.isNumber (String.ofList (plainNumber x.value)).toList = true
    rw [String.toList_ofList]
    exact isNumber_plainNumber x.value

theorem OrgJson.lawful_plain : @LawfulOrgJson OrgJson.plain :=
  @LawfulOrgJson.mk OrgJson.plain
    (fun text fields h hdistinct hdepth => by
      have hread := plainRead_of_read OrgJson.plainNumberOf h hdistinct hdepth
      change (match plainRead OrgJson.plainNumberOf text with
        | some (.object fields) => some fields
        | _ => none) = Json.traverseFields OrgJson.plainNumberOf fields
      rw [hread, Json.traverse]
      cases Json.traverseFields OrgJson.plainNumberOf fields <;> rfl)
    (fun text items h hdistinct hdepth => by
      have hread := plainRead_of_read OrgJson.plainNumberOf h hdistinct hdepth
      change (match plainRead OrgJson.plainNumberOf text with
        | some (.array items) => some items
        | _ => none) = Json.traverseItems OrgJson.plainNumberOf items
      rw [hread, Json.traverse]
      cases Json.traverseItems OrgJson.plainNumberOf items <;> rfl)
    (fun items => read_plainText (ok_plainNumberText (.array items)))
    (fun t => by
      change Rfc8259.read (String.ofList _).toList = some _
      rw [String.toList_ofList]
      exact Rfc8259.read_write _ _ (ok_plainNumberText t) 0)
    (fun _ _ h hdistinct hdepth => plainRead_of_read OrgJson.plainNumberOf h hdistinct hdepth)
    (fun n _ => by
      have hint := parseInt_repr n (by simp [NoDigit] : NoDigit [])
      rw [List.append_nil] at hint
      change OrgJson.plainNumberOf (toString n).toList = some (.integer n)
      rw [OrgJson.plainNumberOf, hint])

/-! ### The core -/

@[reducible] def JsonReader.plain : JsonReader := ⟨Value.parse, fun x => String.ofList (plainNumber x.toRat)⟩

@[reducible] def Serializer.plain : Serializer := ⟨fun v => plainText (v.json.map (@numberToken JsonReader.plain)), quote⟩

theorem serdeText_plain : @SerdeText Serializer.plain JsonReader.plain OrgJson.plain Foundation.plain :=
  @SerdeText.mk Serializer.plain JsonReader.plain OrgJson.plain Foundation.plain
    (fun v => by
      refine read_plainText (Json.all_of_forall (fun n => ?_) _).map
      cases n with
      | int n => exact Rfc8259.isNumber_toString n
      | float x =>
        change Rfc8259.isNumber (String.ofList (plainNumber x.toRat)).toList = true
        rw [String.toList_ofList]
        exact isNumber_plainNumber x.toRat)
    (fun x d h => by
      change OrgJson.plainNumberOf (String.ofList (plainNumber x.toRat)).toList = some (.double d)
      rw [String.toList_ofList]
      exact OrgJson.plainNumberOf_plainNumber h)
    (fun x d h => by
      change plainDoubleOf (String.ofList (plainNumber x.toRat)).toList = some d
      rw [String.toList_ofList]
      exact plainDoubleOf_plainNumber h)

end Hermo
