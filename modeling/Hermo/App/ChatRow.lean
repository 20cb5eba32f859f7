import Hermo.App.OrgJson
import Hermo.App.Mirror

/-!
# Rows as the apps decode them

`ChatRow.kt` and `ChatRow.swift`: one row of the transcript from the row JSON of the core.
-/

namespace Hermo

open Rfc8259 (Json Token)

inductive ChatRow where
  | user (id : ℕ) (text : String)
  | assistant (id : ℕ) (text : String) (streaming : Bool) (warning usageJson : String)
  | thinking (id : ℕ) (text : String)
  | tool (id : ℕ) (name : String) (complete : Bool) (context argsJson resultJson inlineDiff : String)
      (durationS : ParsedDouble) (exitCode : Option ℤ)
  | approval (id : ℕ) (requestId command description : String) (choices : List String) (resolved : Bool)
  | clarify (id : ℕ) (requestId questions : String) (resolved : Bool)
  | status (id : ℕ) (kind text : String)
  | error (id : ℕ) (message : String)

/-- `isBlank`, for a notion of white space. -/
def isBlank (white : Char → Bool) (s : String) : Bool := s.toList.all white

namespace Android

open Markdown.Android (isWhitespace)

variable [OrgJson]

/-- `JSONObject(raw)` of the result, `null` where it throws. -/
def resultOf (obj : JSONObject) : Option JSONObject :=
  (obj.optStringOrNull "result").bind fun raw => (OrgJson.jsonObject raw).map JSONObject.mk

def inlineDiffOf (obj : JSONObject) : String :=
  let result := resultOf obj
  let sources := [obj.optStringOrNull "inline_diff", obj.optStringOrNull "diff",
    result.bind (·.optStringOrNull "inline_diff"), result.bind (·.optStringOrNull "diff")].filterMap id
  (sources.find? fun s => !isBlank isWhitespace s).getD ""

def exitCodeOf (obj : JSONObject) : Option ℤ :=
  if obj.has "exit_code" && !obj.isNull "exit_code" then some (obj.optInt "exit_code")
  else
    match resultOf obj with
    | none => none
    | some result =>
      if result.has "exit_code" && !result.isNull "exit_code" then some (result.optInt "exit_code") else none

def parseChatRow (id : ℕ) (rowJson : String) : ChatRow :=
  match OrgJson.jsonObject rowJson with
  | none => .status id "unknown" ""
  | some fields =>
    let obj : JSONObject := ⟨fields⟩
    match obj.optString "kind" with
    | "user" => .user id (obj.optString "text")
    | "assistant" =>
      .assistant id (obj.optString "text") (obj.optBoolean "streaming") (obj.optString "warning")
        ((obj.optStringOrNull "usage").getD "")
    | "thinking" => .thinking id (obj.optString "text")
    | "tool" =>
      .tool id (obj.optString "name") (obj.optBoolean "complete") (obj.optString "context") (obj.optString "args")
        (obj.optString "result") (inlineDiffOf obj) (obj.optDouble "duration_s" (.finite 0)) (exitCodeOf obj)
    | "approval" =>
      .approval id (obj.optString "request_id") (obj.optString "command") (obj.optString "description")
        (((obj.optJSONArray "choices").map fun arr =>
          (arr.map JSONObject.toText).filter fun s => !isBlank isWhitespace s).getD [])
        (obj.optBoolean "resolved")
    | "clarify" =>
      .clarify id (obj.optString "request_id")
        (((obj.optJSONArray "questions").map fun items => OrgJson.text (.array items)).getD "[]")
        (obj.optBoolean "resolved")
    | "status" => .status id (obj.optString "status") (obj.optString "text")
    | "error" => .error id (obj.optString "message")
    | kind => .status id kind ""

end Android

namespace Ios

open Foundation (isWhitespaceOrNewline)

variable [Foundation]

def questionsJson (obj : LooseJSON) : String :=
  let items := obj.optArray "questions"
  if items.isEmpty then "[]" else "[" ++ String.intercalate "," (items.map LooseJSON.compact) ++ "]"

def inlineDiffOf (obj : LooseJSON) : String :=
  let result := LooseJSON.ofText (obj.optString "result")
  let sources := [obj.optString "inline_diff", obj.optString "diff",
    (result.map (·.optString "inline_diff")).getD "", (result.map (·.optString "diff")).getD ""]
  (sources.find? fun s => !isBlank isWhitespaceOrNewline s).getD ""

def exitCodeOf (obj : LooseJSON) : Option ℤ :=
  if obj.has "exit_code" then some (obj.optInt "exit_code")
  else
    match LooseJSON.ofText (obj.optString "result") with
    | none => none
    | some result => if result.has "exit_code" then some (result.optInt "exit_code") else none

def parseChatRow (id : ℕ) (rowJson : String) : ChatRow :=
  match LooseJSON.ofText rowJson with
  | none => .status id "unknown" ""
  | some obj =>
    if !obj.isObject then .status id "unknown" ""
    else
      match obj.optString "kind" with
      | "user" => .user id (obj.optString "text")
      | "assistant" =>
        .assistant id (obj.optString "text") (obj.optBool "streaming") (obj.optString "warning")
          (obj.optString "usage")
      | "thinking" => .thinking id (obj.optString "text")
      | "tool" =>
        .tool id (obj.optString "name") (obj.optBool "complete") (obj.optString "context") (obj.optString "args")
          (obj.optString "result") (inlineDiffOf obj) (obj.optDouble "duration_s") (exitCodeOf obj)
      | "approval" =>
        .approval id (obj.optString "request_id") (obj.optString "command") (obj.optString "description")
          (((obj.optArray "choices").map (·.stringValue)).filter fun s => !isBlank isWhitespaceOrNewline s)
          (obj.optBool "resolved")
      | "clarify" => .clarify id (obj.optString "request_id") (questionsJson obj) (obj.optBool "resolved")
      | "status" => .status id (obj.optString "status") (obj.optString "text")
      | "error" => .error id (obj.optString "message")
      | kind => .status id kind ""

end Ios

end Hermo
