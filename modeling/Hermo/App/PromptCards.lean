import Hermo.App.ChatRow

/-!
# Approval and clarify cards

`PromptCards.kt` and `PromptCards.swift`: the buttons of an approval, the questions of a clarify card and the answer
that is sent for one.
-/

namespace Hermo

open Rfc8259 (Json)

inductive ApprovalChoice where
  | run | allowSession | always | reject
  deriving DecidableEq, Repr

namespace ApprovalChoice

def wire : ApprovalChoice → String
  | run => "once"
  | allowSession => "session"
  | always => "always"
  | reject => "deny"

def label : ApprovalChoice → String
  | run => "Run"
  | allowSession => "Allow this session"
  | always => "Always allow"
  | reject => "Reject"

def values : List ApprovalChoice := [run, allowSession, always, reject]

def fromWire (wire : String) : Option ApprovalChoice := values.find? fun choice => choice.wire == wire

end ApprovalChoice

/-- The choice the row highlights. -/
def primaryApprovalChoice (choices : List String) : Option ApprovalChoice :=
  ((choices.find? (· == "once")).or (choices.find? (· == "deny"))).bind ApprovalChoice.fromWire

def secondaryApprovalChoices (choices : List String) : List ApprovalChoice :=
  (choices.filterMap ApprovalChoice.fromWire).filter fun choice => some choice ≠ primaryApprovalChoice choices

/-- One question of a clarify card. -/
structure ClarifyQuestionUi where
  qid : String
  question : String
  choices : List String
  multiSelect : Bool
  deriving DecidableEq, Repr

/-- A string without white space at its ends. -/
def trimmed (white : Char → Bool) (s : String) : String := String.ofList (Markdown.trim white s.toList)

namespace Android

open Markdown.Android (isWhitespace)

variable [OrgJson]

/-- One entry of the array; one that is no object, or has a blank question, is skipped. -/
def parseClarifyQuestion : Json OrgNumber → Option ClarifyQuestionUi
  | .object fields =>
    let entry : JSONObject := ⟨fields⟩
    let text := trimmed isWhitespace (entry.optString "question")
    if text = "" then none
    else
      let choices := (((entry.optJSONArray "choices").getD []).map fun choice =>
        trimmed isWhitespace (JSONObject.toText choice)).filter (· ≠ "")
      some ⟨entry.optString "qid", text, choices, entry.optBoolean "multi_select" && !choices.isEmpty⟩
  | _ => none

def parseClarifyQuestions (questionsJson : String) : List ClarifyQuestionUi :=
  if isBlank isWhitespace questionsJson then []
  else
    match OrgJson.jsonArray questionsJson with
    | none => []
    | some array => array.filterMap parseClarifyQuestion

/-- `JSONArray(picks).toString()` is the text of the array of the picks. -/
def encodeClarifyAnswer (question : ClarifyQuestionUi) (picks : List String) (draft : String) : String :=
  match picks with
  | [] => trimmed isWhitespace draft
  | pick :: _ => if question.multiSelect then OrgJson.text (.array (picks.map .string)) else pick

end Android

namespace Ios

open Foundation (isWhitespaceOrNewline)

variable [Foundation]

def parseClarifyQuestion : Json Double → Option ClarifyQuestionUi
  | .object dict =>
    let entry := LooseJSON.ofParsed (.object dict)
    let text := trimmed isWhitespaceOrNewline (entry.optString "question")
    if text = "" then none
    else
      let choices := ((entry.optArray "choices").map fun choice =>
        trimmed isWhitespaceOrNewline choice.stringValue).filter (· ≠ "")
      some ⟨entry.optString "qid", text, choices, entry.optBool "multi_select" && !choices.isEmpty⟩
  | _ => none

def parseClarifyQuestions (questionsJson : String) : List ClarifyQuestionUi :=
  if trimmed isWhitespaceOrNewline questionsJson = "" then []
  else
    match Foundation.jsonObject questionsJson with
    | some (.array array) => array.filterMap parseClarifyQuestion
    | _ => []

def encodeClarifyAnswer (question : ClarifyQuestionUi) (picks : List String) (draft : String) : String :=
  match picks with
  | [] => trimmed isWhitespaceOrNewline draft
  | pick :: _ => if question.multiSelect then Foundation.stringsText picks else pick

end Ios

end Hermo
