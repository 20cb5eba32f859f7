import Mathlib.Data.List.TakeWhile
import Hermo.JsonText
import Hermo.Protocol

/-!
# The frame codec

Text frames hold newline-delimited JSON-RPC 2.0 (`rpc/frames.rs`).  A line decodes to a response, an event, or
something to ignore; every reader is tolerant, so a mistyped field never drops an event.
-/

namespace Hermo.Rpc

structure RpcError where
  code : Int
  message : String
  data : Value

/-- A decoded inbound line. -/
inductive Decoded where
  | result (id : String) (result : Value)
  | error (id : String) (error : RpcError)
  | event (params : EventParams)
  | ignored

/-- `char::is_whitespace`: the code points with the property `White_Space`. -/
def isWhitespace (c : Char) : Bool :=
  (0x09 ≤ c.toNat && c.toNat ≤ 0x0d) || (0x2000 ≤ c.toNat && c.toNat ≤ 0x200a) ||
    [0x20, 0x85, 0xa0, 0x1680, 0x2028, 0x2029, 0x202f, 0x205f, 0x3000].contains c.toNat

/-- `trim_end_matches` of the characters that satisfy `p`. -/
def trimEnd (p : Char → Bool) (text : List Char) : List Char := (text.reverse.dropWhile p).reverse

/-- `str::trim`. -/
def trim (text : List Char) : List Char := trimEnd isWhitespace (text.dropWhile isWhitespace)

theorem trimEnd_append (p : Char → Bool) (text : List Char) :
    ∃ dropped, trimEnd p text ++ dropped = text ∧ ∀ c ∈ dropped, p c = true := by
  refine ⟨(text.reverse.takeWhile p).reverse, ?_, ?_⟩
  · unfold trimEnd
    rw [← List.reverse_append, List.takeWhile_append_dropWhile, List.reverse_reverse]
  · intro c hc
    exact List.mem_takeWhile_imp (List.mem_reverse.1 hc)

theorem trim_white_append {white : List Char} (h : ∀ c ∈ white, isWhitespace c = true) (text : List Char) :
    trim (white ++ text) = trim text := by
  unfold trim
  rw [List.dropWhile_append_of_pos h]

theorem trim_append_white {white : List Char} (h : ∀ c ∈ white, isWhitespace c = true) (text : List Char) :
    trim (text ++ white) = trim text := by
  have hall : white.reverse.dropWhile isWhitespace = [] :=
    List.dropWhile_eq_nil_iff.2 fun c hc => h c (List.mem_reverse.1 hc)
  unfold trim trimEnd
  rw [List.dropWhile_append]
  split
  · rename_i hnil
    have hwhite : white.dropWhile isWhitespace = [] := List.dropWhile_eq_nil_iff.2 h
    rw [List.isEmpty_iff.1 hnil, hwhite]
  · rw [List.reverse_append, List.dropWhile_append_of_pos fun c hc => h c (List.mem_reverse.1 hc)]

/-- White space may be cut off at the end before the text is trimmed. -/
theorem trim_trimEnd {p : Char → Bool} (hp : ∀ c, p c = true → isWhitespace c = true) (text : List Char) :
    trim (trimEnd p text) = trim text := by
  obtain ⟨dropped, happend, hdropped⟩ := trimEnd_append p text
  have hwhite : ∀ c ∈ dropped, isWhitespace c = true := fun c hc => hp c (hdropped c hc)
  have htrim := trim_append_white hwhite (trimEnd p text)
  rw [happend] at htrim
  exact htrim.symm

/-- Nothing is cut off between two characters that are no white space. -/
theorem trim_of_ends {text : List Char} (hfirst : ∀ c ∈ text.head?, isWhitespace c = false)
    (hlast : ∀ c ∈ text.getLast?, isWhitespace c = false) : trim text = text := by
  have hfront : text.dropWhile isWhitespace = text := by
    cases text with
    | nil => rfl
    | cons c text => exact List.dropWhile_cons_of_neg (Bool.eq_false_iff.1 (hfirst c rfl))
  have hback : text.reverse.dropWhile isWhitespace = text.reverse := by
    have hhead : ∀ c ∈ text.reverse.head?, isWhitespace c = false := by
      rw [List.head?_reverse]
      exact hlast
    cases hrev : text.reverse with
    | nil => rfl
    | cons c rest => exact List.dropWhile_cons_of_neg (Bool.eq_false_iff.1 (hhead c (hrev ▸ rfl)))
  unfold trim trimEnd
  rw [hfront, hback, List.reverse_reverse]

/-- Split one text frame into its lines; blank lines are dropped. -/
def splitLines (frame : String) : List String :=
  let lines := (frame.toList.splitOn '\n').map (trimEnd (· == '\r'))
  (lines.filter fun l => !(trim l).isEmpty).map String.ofList

/-- The `seq` of an event: a number, whatever its type. -/
def seqOf (params : Value) : Option Int :=
  match params.get "seq" with
  | some (.number _) => some (params.i64At "seq")
  | _ => none

/-- An event takes a default for every field that is missing or mistyped. -/
def decodeEvent (value : Value) : EventParams :=
  let params := (value.get "params").getD .null
  { eventType := params.strAt "type"
    sessionId := params.strAt "session_id"
    seq := seqOf params
    payload := (params.get "payload").getD .null }

section

variable [JsonReader]

/-- An id is a string or a number. -/
def idToString : Option Value → Option String
  | some (.string s) => some s
  | some (.number n) => some n.text
  | _ => none

/-- `decode` of a text that is JSON. -/
def decodeValue (value : Value) : Decoded :=
  if (value.get "jsonrpc").bind Value.asStr ≠ some "2.0" then .ignored
  else if (value.get "method").bind Value.asStr = some "event" then .event (decodeEvent value)
  else
    match idToString (value.get "id") with
    | none => .ignored
    | some id =>
      match value.get "error" with
      | some err => .error id ⟨err.i64At "code", err.strAt "message", (err.get "data").getD .null⟩
      | none =>
        match value.get "result" with
        | some result => .result id result
        | none => .ignored

/-- `decode`: `none` when the line is not JSON. -/
def decode (line : String) : Option Decoded := (fromStr (String.ofList (trim line.toList))).map decodeValue

end

end Hermo.Rpc
