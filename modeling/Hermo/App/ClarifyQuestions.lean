import Hermo.App.PromptCards
import Hermo.App.RowCodec

/-!
# The questions of a clarify card

The text of the questions passes through two JSON writers on its way from the core to the screen, on either app.
-/

namespace Hermo

open Rfc8259 (Json Token)

/-- The question an app asks for one of the core; a blank one is not asked. -/
def ClarifyQuestion.asked (white : Char → Bool) (q : ClarifyQuestion) : Option ClarifyQuestionUi :=
  let text := trimmed white q.question
  if text = "" then none
  else
    let choices := (q.choices.map (trimmed white)).filter (· ≠ "")
    some ⟨q.qid, text, choices, q.multiSelect && !choices.isEmpty⟩

private theorem map_items {ν μ : Type} (f : ν → μ) (questions : List ClarifyQuestion) :
    (Json.array (questionItems questions)).map f = .array (questionItems questions) := by
  rw [Json.map, Json.mapItems_eq, map_questionItems]

private theorem distinct_items {ν : Type} (questions : List ClarifyQuestion) :
    (Json.array (questionItems questions) : Json ν).Distinct := .array (distinct_questions questions)

private theorem depth_items {ν : Type} (questions : List ClarifyQuestion) :
    (Json.array (questionItems questions) : Json ν).depth ≤ 512 :=
  Nat.le_trans (Json.depth_array_le (depth_questions questions)) (by decide)

/-- Something is left of a text that is not all white space. -/
private theorem trimmed_ne_empty {white : Char → Bool} {s : String} {c : Char} (hc : c ∈ s.toList)
    (hwhite : white c = false) : trimmed white s ≠ "" := by
  intro h
  have hnil : Markdown.trim white s.toList = [] := by
    have htext := congrArg String.toList h
    rwa [trimmed, String.toList_ofList] at htext
  rw [Markdown.trim, List.rdropWhile_eq_nil_iff] at hnil
  rw [← List.takeWhile_append_dropWhile (p := white) (l := s.toList), List.mem_append] at hc
  have hall : white c = true := by
    rcases hc with hc | hc
    · exact List.mem_takeWhile_imp hc
    · exact hnil c hc
  rw [hwhite] at hall
  cases hall

/-! ### Android -/

namespace Android

open Markdown.Android (isWhitespace)

variable [OrgJson]

private theorem parseClarifyQuestion_eq (q : ClarifyQuestion) :
    parseClarifyQuestion (.object (questionFields q)) = q.asked isWhitespace := by
  have hchoices : (JSONObject.mk (questionFields q)).optJSONArray "choices" = some (q.choices.map .string) := rfl
  rw [parseClarifyQuestion, hchoices, Option.getD_some, List.map_map]
  rfl

/-- Every question of the core is asked, save for the blank ones. -/
theorem parseClarifyQuestions_text [LawfulOrgJson] (questions : List ClarifyQuestion) :
    parseClarifyQuestions (OrgJson.text (.array (questionItems questions))) =
      questions.filterMap (ClarifyQuestion.asked isWhitespace) := by
  have hread := LawfulOrgJson.read_text (questionItems questions)
  rw [map_items] at hread
  have hblank : isBlank isWhitespace (OrgJson.text (.array (questionItems questions))) = false := by
    rw [isBlank, List.all_eq_false]
    exact ⟨'[', Rfc8259.bracket_mem hread, by decide⟩
  have hitems := Json.traverse_map (f := OrgJson.numberOf) (g := fun n : OrgNumber => (OrgJson.numberText n).toList)
    (h := id) (t := .array (questionItems questions)) (.array (all_questions _ questions))
  rw [map_items, map_items, Json.traverse, Option.map_eq_some_iff] at hitems
  obtain ⟨items, hitems, heq⟩ := hitems
  cases heq
  rw [parseClarifyQuestions, hblank, if_neg Bool.false_ne_true,
    LawfulOrgJson.jsonArray_of_read _ _ hread (distinct_items questions) (depth_items questions), hitems]
  dsimp only
  rw [questionItems, List.filterMap_map]
  refine List.filterMap_congr fun q _ => ?_
  rw [Function.comp_apply, parseClarifyQuestion_eq]

end Android

/-! ### iOS -/

namespace Ios

open Foundation (isWhitespaceOrNewline)

variable [Foundation] [LawfulFoundation]

omit [LawfulFoundation] in
private theorem convert_strings (ss : List String) : LooseJSON.convert (strings ss) = strings ss := by
  rw [strings, LooseJSON.convert, LooseJSON.convertItems_eq, List.map_map]
  rfl

omit [LawfulFoundation] in
private theorem convert_fields (q : ClarifyQuestion) :
    (questionFields q).map (fun field => (field.1, LooseJSON.convert field.2)) = questionFields q := by
  simp [questionFields, LooseJSON.convert, convert_strings]

/-- A question is converted when its row is read, and again when the questions are. -/
private theorem field_ofParsed (q : ClarifyQuestion) (key : String) :
    (LooseJSON.ofParsed (LooseJSON.convert (.object (questionFields q)))).field key = (questionFields q).lookup key := by
  have hdistinct : (Json.object (questionFields q) : Json Double).Distinct :=
    distinct_questions [q] _ List.mem_cons_self
  have hlookup := Json.lookup_map LooseJSON.convert (questionFields q) key
  rw [convert_fields] at hlookup
  have hfirst : (LooseJSON.mk (LooseJSON.convert (.object (questionFields q)))).field key =
      (questionFields q).lookup key := by
    cases hdistinct with
    | object hkeys _ => rw [LooseJSON.field_convert hkeys, ← hlookup]
  have hagain := LooseJSON.distinct_convert hdistinct
  cases hconvert : LooseJSON.convert (.object (questionFields q)) with
  | object fields =>
    rw [hconvert] at hfirst hagain
    cases hagain with
    | object hkeys _ =>
      have hfield : fields.reverse.lookup key = (questionFields q).lookup key := hfirst
      rw [LooseJSON.ofParsed, LooseJSON.field_convert hkeys, ← Json.lookup_reverse hkeys, hfield, ← hlookup]
  | _ => simp [LooseJSON.convert] at hconvert

private theorem parseClarifyQuestion_eq (q : ClarifyQuestion) :
    parseClarifyQuestion (LooseJSON.convert (.object (questionFields q))) = q.asked isWhitespaceOrNewline := by
  have hfield := field_ofParsed q
  cases hconvert : LooseJSON.convert (.object (questionFields q)) with
  | object fields =>
    rw [hconvert] at hfield
    have hqid : (LooseJSON.ofParsed (.object fields)).optString "qid" = q.qid := by
      rw [LooseJSON.optString, hfield]
      rfl
    have hquestion : (LooseJSON.ofParsed (.object fields)).optString "question" = q.question := by
      rw [LooseJSON.optString, hfield]
      rfl
    have hmulti : (LooseJSON.ofParsed (.object fields)).optBool "multi_select" = q.multiSelect := by
      rw [LooseJSON.optBool, hfield]
      rfl
    have hchoices : (LooseJSON.ofParsed (.object fields)).optArray "choices" =
        q.choices.map fun choice => ⟨.string choice⟩ := by
      rw [LooseJSON.optArray, hfield]
      exact List.map_map
    rw [parseClarifyQuestion, hqid, hquestion, hmulti, hchoices, List.map_map]
    rfl
  | _ => simp [LooseJSON.convert] at hconvert

/-- Every question of the core is asked, save for the blank ones. -/
theorem parseClarifyQuestions_text (questions : List ClarifyQuestion) :
    parseClarifyQuestions (LooseJSON.renderCompact (LooseJSON.convert (.array (questionItems questions)))) =
      questions.filterMap (ClarifyQuestion.asked isWhitespaceOrNewline) := by
  have hread := LooseJSON.read_renderCompact (LooseJSON.convert (.array (questionItems questions)))
  have hdistinct := LooseJSON.distinct_convert (distinct_items questions)
  have hdepth := Nat.le_trans (LooseJSON.depth_convert (distinct_items questions)) (depth_items questions)
  have hparsed := LooseJSON.jsonObject_of_read hread hdistinct hdepth
  have hbracket : '[' ∈ (LooseJSON.renderCompact (LooseJSON.convert (.array (questionItems questions)))).toList := by
    rw [LooseJSON.convert, Json.map] at hread
    exact Rfc8259.bracket_mem hread
  have hblank : trimmed isWhitespaceOrNewline
      (LooseJSON.renderCompact (LooseJSON.convert (.array (questionItems questions)))) ≠ "" :=
    trimmed_ne_empty hbracket (LawfulFoundation.isWhitespaceOrNewline_ascii '[' (by decide) (by decide))
  rw [parseClarifyQuestions, if_neg hblank, hparsed, LooseJSON.convert, LooseJSON.convertItems_eq]
  dsimp only
  rw [questionItems, List.map_map, List.filterMap_map]
  refine List.filterMap_congr fun q _ => ?_
  rw [Function.comp_apply, Function.comp_apply, parseClarifyQuestion_eq]

end Ios

end Hermo
