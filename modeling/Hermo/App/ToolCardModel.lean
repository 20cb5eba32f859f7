import Hermo.App.MarkdownReadings
import Hermo.App.PlainJson
import Hermo.App.PromptCards

/-!
# Tool cards

`prettyTechnicalValue` of `ToolCardModel.kt` and `ToolCardModel.swift`: a payload that is JSON is printed over several
lines, whatever else it is stays as it is.
-/

namespace Hermo

open Rfc8259 (Json Token)

/-- A text that starts like an object or an array.  Swift compares characters, but a mark behind the brace makes the
text no JSON. -/
def looksLikeJson (text : String) : Bool := text.toList.head? == some '\x7b' || text.toList.head? == some '['

/-- The trimmed text of an array or an object is taken for one. -/
private theorem looksLikeJson_of_read {white : Char → Bool} (hwhite : ∀ c, Rfc8259.isSpace c = true → white c = true)
    {value : String} {t : Json Token} (h : Rfc8259.read (trimmed white value).toList = some t)
    (ht : t.opening.isSome) : looksLikeJson (trimmed white value) = true := by
  obtain ⟨c, hc⟩ := Option.isSome_iff_exists.1 ht
  have hfirst := Rfc8259.opening_read h hc
  have hdrop : (trimmed white value).toList.dropWhile Rfc8259.isSpace = (trimmed white value).toList := by
    cases htext : (trimmed white value).toList with
    | nil => rfl
    | cons d rest =>
      have hd : white d = false := by
        rw [trimmed, String.toList_ofList] at htext
        exact Markdown.Android.trim_head white (congrArg List.head? htext)
      refine List.dropWhile_cons_of_neg fun hspace => ?_
      rw [hwhite d hspace] at hd
      cases hd
  rw [hdrop] at hfirst
  rw [looksLikeJson, hfirst]
  cases t with
  | array items =>
    cases hc
    rfl
  | object fields =>
    cases hc
    rfl
  | _ => cases hc

namespace Android

open Markdown.Android (isWhitespace)

variable [OrgJson]

def prettyTechnicalValue (value : String) : String :=
  if !looksLikeJson (trimmed isWhitespace value) then value
  else
    match OrgJson.nextValue (trimmed isWhitespace value) with
    | some (.object fields) => OrgJson.prettyText (.object fields)
    | some (.array items) => OrgJson.prettyText (.array items)
    | _ => value

variable [LawfulOrgJson] (value : String)

/-- What is printed is the value that was read. -/
theorem prettyTechnicalValue_cases :
    prettyTechnicalValue value = value ∨ ∃ t, OrgJson.nextValue (trimmed isWhitespace value) = some t ∧
      Rfc8259.read (prettyTechnicalValue value).toList = some (t.map fun n => (OrgJson.numberText n).toList) := by
  unfold prettyTechnicalValue
  split
  · exact .inl rfl
  · split
    · exact .inr ⟨_, by assumption, LawfulOrgJson.read_prettyText _⟩
    · exact .inr ⟨_, by assumption, LawfulOrgJson.read_prettyText _⟩
    · exact .inl rfl

omit [OrgJson] [LawfulOrgJson] in
private theorem isWhitespace_space (c : Char) (h : Rfc8259.isSpace c = true) : isWhitespace c = true := by
  simp only [Rfc8259.isSpace, Bool.or_eq_true, beq_iff_eq] at h
  rcases h with ((rfl | rfl) | rfl) | rfl <;> decide

variable {value} {t : Json Token} {x : Json OrgNumber}

theorem read_prettyTechnicalValue (h : Rfc8259.read (trimmed isWhitespace value).toList = some t)
    (ht : t.opening.isSome) (hdistinct : t.Distinct) (hdepth : t.depth ≤ 512)
    (hx : t.traverse OrgJson.numberOf = some x) :
    Rfc8259.read (prettyTechnicalValue value).toList = some (x.map fun n => (OrgJson.numberText n).toList) := by
  have hnext := (LawfulOrgJson.nextValue_of_read _ t h hdistinct hdepth).trans hx
  rw [prettyTechnicalValue, looksLikeJson_of_read isWhitespace_space h ht, Bool.not_true, if_neg Bool.false_ne_true,
    hnext]
  cases t with
  | array items =>
    obtain ⟨read, -, rfl⟩ := Option.map_eq_some_iff.1 hx
    exact LawfulOrgJson.read_prettyText _
  | object fields =>
    obtain ⟨read, -, rfl⟩ := Option.map_eq_some_iff.1 hx
    exact LawfulOrgJson.read_prettyText _
  | _ => cases ht

end Android

namespace Ios

open Foundation (isWhitespaceOrNewline)

variable [Foundation]

def prettyTechnicalValue (value : String) : String :=
  if !looksLikeJson (trimmed isWhitespaceOrNewline value) then value
  else
    match LooseJSON.ofText (trimmed isWhitespaceOrNewline value) with
    | none => value
    | some parsed => parsed.pretty 2

variable [LawfulFoundation] (value : String)

/-- What is printed is the value that was read, and the app reads it back up to the order of fields. -/
theorem prettyTechnicalValue_cases :
    prettyTechnicalValue value = value ∨ ∃ parsed again,
      LooseJSON.ofText (trimmed isWhitespaceOrNewline value) = some parsed ∧
      Rfc8259.read (prettyTechnicalValue value).toList = some (parsed.root.map LooseJSON.token) ∧
      LooseJSON.ofText (prettyTechnicalValue value) = some again ∧ parsed.root.Same again.root := by
  unfold prettyTechnicalValue
  split
  · exact .inl rfl
  · split
    · exact .inl rfl
    · rename_i parsed hparsed
      obtain ⟨hdistinct, hdepth⟩ := LooseJSON.distinct_ofText hparsed
      have hread := LooseJSON.read_render 2 0 parsed.root
      exact .inr ⟨parsed, _, hparsed, hread, LooseJSON.ofText_of_read hread hdistinct hdepth,
        LooseJSON.same_convert hdistinct⟩

variable {value} {t : Json Token} {x : Json Double}

theorem read_prettyTechnicalValue (h : Rfc8259.read (trimmed isWhitespaceOrNewline value).toList = some t)
    (ht : t.opening.isSome) (hdistinct : t.Distinct) (hdepth : t.depth ≤ 512)
    (hx : t.traverse Foundation.doubleValue = some x) :
    ∃ y, x.Same y ∧ Rfc8259.read (prettyTechnicalValue value).toList = some (y.map LooseJSON.token) := by
  have hparsed : LooseJSON.ofText (trimmed isWhitespaceOrNewline value) = some ⟨LooseJSON.convert x⟩ := by
    rw [LooseJSON.ofText, LawfulFoundation.jsonObject_of_read _ t h hdistinct hdepth, hx, Option.map_some]
  rw [prettyTechnicalValue, looksLikeJson_of_read LawfulFoundation.isWhitespaceOrNewline_space h ht, Bool.not_true,
    if_neg Bool.false_ne_true, hparsed]
  exact ⟨_, LooseJSON.same_convert (hdistinct.traverse hx), LooseJSON.read_render 2 0 _⟩

end Ios

section

variable [OrgJson] [LawfulOrgJson] [Foundation] [LawfulFoundation]

end

section

attribute [local instance] OrgJson.plain OrgJson.lawful_plain Foundation.plain Foundation.lawful_plain

private def one : Double := .ofInt 1 (by decide)

end

end Hermo
