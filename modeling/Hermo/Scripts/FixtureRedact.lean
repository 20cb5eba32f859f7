import Hermo.Rpc.Frames

/-!
# Redacting a fixture

The scrub of recorded frames (`scripts/fixture_redact.py`).  It goes by the name of a field and by the type of its value;
where the name is sensitive and the type is none it expects, it goes on inside.  `redact_line_iff` says for which lines
nothing slips through.
-/

namespace Hermo.Scripts

def redacted : String := "<redacted>"

/-- What a value may be replaced by. -/
def placeholders : List String := [redacted, "/redacted"]

/-! ### The fields -/

/-- `_SCALAR_FIELDS`. -/
def scalarFields : List String :=
  ["system_prompt", "systemPrompt", "instructions", "stored_session_id", "storedSessionId", "conversation_id",
    "conversationId", "session_key", "sessionKey", "working_directory", "working_dir"]

/-- `_COLLECTION_FIELDS`. -/
def collectionFields : List String := ["skills", "mcp_servers", "skill_commands", "tools"]

/-- `_SESSION_ID_VALUE_FIELDS`. -/
def sessionIdValueFields : List String := ["session_id", "stored_session_id", "sessionId", "storedSessionId"]

def sensitive (key : String) : Bool :=
  scalarFields.contains key || collectionFields.contains key || key == "cwd" || sessionIdValueFields.contains key ||
    key == "prompt"

/-- The truth value of an object in Python. -/
def truthy : Value → Bool
  | .null => false
  | .bool b => b
  | .number (.int n) => n != 0
  | .number (.float x) => x.mantissa != 0
  | .string s => s != ""
  | .array items => !items.isEmpty
  | .object fields => !fields.isEmpty

/-- A string that is not empty. -/
def fullString : Value → Bool
  | .string s => s != ""
  | _ => false

/-- The collection without its entries. -/
def emptied : Value → Option Value
  | .object _ => some (.object [])
  | .array _ => some (.array [])
  | _ => none

/-- What `_scrub` assigns to a field; `none` where it goes on inside. -/
def replacement (key : String) (value : Value) : Option Value :=
  if scalarFields.contains key && truthy value then some (.string redacted)
  else if collectionFields.contains key && (emptied value).isSome then emptied value
  else if key == "cwd" && fullString value then some (.string "/redacted")
  else if sessionIdValueFields.contains key && fullString value then some (.string redacted)
  else if key == "prompt" && fullString value then some (.string redacted)
  else none

mutual

/-- `_scrub`. -/
def scrub : Value → Value
  | .array items => .array (scrubItems items)
  | .object fields => .object (scrubFields fields)
  | value => value

def scrubItems : List Value → List Value
  | [] => []
  | item :: items => scrub item :: scrubItems items

def scrubFields : List (String × Value) → List (String × Value)
  | [] => []
  | (key, value) :: fields => (key, (replacement key value).getD (scrub value)) :: scrubFields fields

end

/-- A frame that is no object is left alone. -/
def redactFrame (frame : Value) : Value := if frame.isObject then scrub frame else frame

/-! ### Lines -/

/-- `json.loads` and `json.dumps` with compact separators; `none` is a `JSONDecodeError`. -/
class Json where
  loads : String → Option Value
  dumps : Value → String

export Json (loads dumps)

/-- `str.isspace`, of a character. -/
def isSpace (c : Char) : Bool := Rpc.isWhitespace c || (0x1c ≤ c.toNat && c.toNat ≤ 0x1f)

/-- `str.strip`. -/
def strip (text : String) : String := String.ofList (Rpc.trimEnd isSpace (text.toList.dropWhile isSpace))

section

variable [Json]

/-- A line that is not JSON is left alone. -/
def redactLine (line : String) : String :=
  let stripped := strip line
  if stripped = "" then stripped
  else
    match loads stripped with
    | none => stripped
    | some frame => dumps (redactFrame frame)

end

/-! ### What is asked of it -/

mutual

/-- The strings in a value; `names` says whether those of its fields count. -/
def strings (names : Bool) : Value → List String
  | .string s => [s]
  | .array items => stringsItems names items
  | .object fields => stringsFields names fields
  | _ => []

def stringsItems (names : Bool) : List Value → List String
  | [] => []
  | item :: items => strings names item ++ stringsItems names items

def stringsFields (names : Bool) : List (String × Value) → List String
  | [] => []
  | (key, value) :: fields => (if names then [key] else []) ++ strings names value ++ stringsFields names fields

end

/-- No string is in the value but a placeholder. -/
def blank (names : Bool) (value : Value) : Bool := (strings names value).all placeholders.contains

mutual

/-- No sensitive field, however deep, has a string in its value but a placeholder. -/
def clean (names : Bool) : Value → Bool
  | .array items => cleanItems names items
  | .object fields => cleanFields names fields
  | _ => true

def cleanItems (names : Bool) : List Value → Bool
  | [] => true
  | item :: items => clean names item && cleanItems names items

def cleanFields (names : Bool) : List (String × Value) → Bool
  | [] => true
  | (key, value) :: fields => (!sensitive key || blank names value) && clean names value && cleanFields names fields

end

mutual

/-- The value without what stands in its sensitive fields. -/
def mask : Value → Value
  | .array items => .array (maskItems items)
  | .object fields => .object (maskFields fields)
  | value => value

def maskItems : List Value → List Value
  | [] => []
  | item :: items => mask item :: maskItems items

def maskFields : List (String × Value) → List (String × Value)
  | [] => []
  | (key, value) :: fields => (key, if sensitive key then .null else mask value) :: maskFields fields

end

/-! ### What slips through -/

mutual

/-- The strings in a value that stand in no field whose value is replaced. -/
def kept (names : Bool) : Value → List String
  | .string s => [s]
  | .array items => keptItems names items
  | .object fields => keptFields names fields
  | _ => []

def keptItems (names : Bool) : List Value → List String
  | [] => []
  | item :: items => kept names item ++ keptItems names items

def keptFields (names : Bool) : List (String × Value) → List String
  | [] => []
  | (key, value) :: fields =>
    (if names then [key] else []) ++ (if (replacement key value).isSome then [] else kept names value) ++
      keptFields names fields

end

mutual

/-- Where a sensitive field is not replaced, what it keeps is a placeholder. -/
def covered (names : Bool) : Value → Bool
  | .array items => coveredItems names items
  | .object fields => coveredFields names fields
  | _ => true

def coveredItems (names : Bool) : List Value → Bool
  | [] => true
  | item :: items => covered names item && coveredItems names items

def coveredFields (names : Bool) : List (String × Value) → Bool
  | [] => true
  | (key, value) :: fields =>
    ((replacement key value).isSome ||
      (!sensitive key || (kept names value).all placeholders.contains) && covered names value) &&
      coveredFields names fields

end

/-- The frames that nothing slips out of. -/
def safe (names : Bool) (frame : Value) : Bool := if frame.isObject then covered names frame else clean names frame

/-! ### Replaced values -/

theorem emptied_eq_some {value r : Value} (h : emptied value = some r) : r = .object [] ∨ r = .array [] := by
  cases value with
  | object fields => exact .inl (Option.some_inj.1 h).symm
  | array items => exact .inr (Option.some_inj.1 h).symm
  | _ => cases h

/-- A value is replaced in a sensitive field only. -/
theorem sensitive_of_replacement {key : String} {value r : Value} (h : replacement key value = some r) :
    sensitive key = true := by
  unfold replacement at h
  unfold sensitive
  simp only [Bool.or_eq_true]
  split at h
  · rename_i hkey
    exact .inl (.inl (.inl (.inl (Bool.and_eq_true_iff.1 hkey).1)))
  · split at h
    · rename_i hkey
      exact .inl (.inl (.inl (.inr (Bool.and_eq_true_iff.1 hkey).1)))
    · split at h
      · rename_i hkey
        exact .inl (.inl (.inr (Bool.and_eq_true_iff.1 hkey).1))
      · split at h
        · rename_i hkey
          exact .inl (.inr (Bool.and_eq_true_iff.1 hkey).1)
        · split at h
          · rename_i hkey
            exact .inr (Bool.and_eq_true_iff.1 hkey).1
          · cases h

/-- What a value is replaced by has nothing in it but a placeholder, and nothing to scrub. -/
theorem replacement_eq_some {key : String} {value r : Value} (h : replacement key value = some r) :
    r = .string redacted ∨ r = .string "/redacted" ∨ r = .object [] ∨ r = .array [] := by
  unfold replacement at h
  split at h
  · exact .inl (Option.some_inj.1 h).symm
  · split at h
    · exact .inr (.inr (emptied_eq_some h))
    · split at h
      · exact .inr (.inl (Option.some_inj.1 h).symm)
      · split at h
        · exact .inl (Option.some_inj.1 h).symm
        · split at h
          · exact .inl (Option.some_inj.1 h).symm
          · cases h

theorem blank_of_replacement {key : String} {value r : Value} (h : replacement key value = some r) (names : Bool) :
    blank names r = true ∧ clean names r = true := by
  rcases replacement_eq_some h with rfl | rfl | rfl | rfl
  · exact ⟨(by decide : [redacted].all placeholders.contains = true), rfl⟩
  · exact ⟨(by decide : ["/redacted"].all placeholders.contains = true), rfl⟩
  · exact ⟨rfl, rfl⟩
  · exact ⟨rfl, rfl⟩

/-- A value that was put in place of another stays. -/
theorem replacement_replaced {key : String} {value r : Value} (h : replacement key value = some r) :
    replacement key r = some r := by
  have hcwd : replacement "cwd" (.string "/redacted") = some (.string "/redacted") := rfl
  have hprompt : replacement "prompt" (.string redacted) = some (.string redacted) := rfl
  have hscalar (hkey : scalarFields.contains key = true) :
      replacement key (.string redacted) = some (.string redacted) := by
    unfold replacement
    rw [hkey]
    rfl
  unfold replacement at h
  split at h
  · rename_i hkey
    cases h
    exact hscalar (Bool.and_eq_true_iff.1 hkey).1
  · split at h
    · rename_i hkey
      have hcollection := (Bool.and_eq_true_iff.1 hkey).1
      rcases emptied_eq_some h with rfl | rfl
      · unfold replacement
        rw [hcollection, show truthy (.object []) = false from rfl, Bool.and_false]
        rfl
      · unfold replacement
        rw [hcollection, show truthy (.array []) = false from rfl, Bool.and_false]
        rfl
    · split at h
      · rename_i hkey
        cases h
        rw [beq_iff_eq.1 (Bool.and_eq_true_iff.1 hkey).1]
        exact hcwd
      · split at h
        · rename_i hkey
          cases h
          have hid := (Bool.and_eq_true_iff.1 hkey).1
          by_cases hboth : scalarFields.contains key = true
          · exact hscalar hboth
          · have hother : ∀ k ∈ sessionIdValueFields, (k == "cwd") = false := by decide
            unfold replacement
            rw [Bool.eq_false_iff.2 hboth, hid, hother key (List.contains_iff_mem.1 hid), Bool.false_and,
              show emptied (.string redacted) = none from rfl]
            simp [show fullString (.string redacted) = true from rfl]
        · split at h
          · rename_i hkey
            cases h
            rw [beq_iff_eq.1 (Bool.and_eq_true_iff.1 hkey).1]
            exact hprompt
          · cases h

theorem isSome_replacement (key : String) (value : Value) :
    (replacement key value).isSome =
      (scalarFields.contains key && truthy value || collectionFields.contains key && (emptied value).isSome ||
        key == "cwd" && fullString value || sessionIdValueFields.contains key && fullString value ||
        key == "prompt" && fullString value) := by
  unfold replacement
  split
  · rename_i h
    rw [h]
    rfl
  · rename_i hscalar
    rw [Bool.eq_false_iff.2 hscalar, Bool.false_or]
    split
    · rename_i h
      rw [h]
      exact (Bool.and_eq_true_iff.1 h).2
    · rename_i hcollection
      rw [Bool.eq_false_iff.2 hcollection, Bool.false_or]
      split
      · rename_i h
        rw [h]
        rfl
      · rename_i hcwd
        rw [Bool.eq_false_iff.2 hcwd, Bool.false_or]
        split
        · rename_i h
          rw [h]
          rfl
        · rename_i hid
          rw [Bool.eq_false_iff.2 hid, Bool.false_or]
          split
          · rename_i h
            rw [h]
            rfl
          · rename_i h
            rw [Bool.eq_false_iff.2 h]
            rfl

/-- What is scrubbed keeps its type, and its entries. -/
theorem replacement_scrub {key : String} {value : Value} (h : replacement key value = none) :
    replacement key (scrub value) = none := by
  have htruthy : truthy (scrub value) = truthy value := by
    cases value with
    | array items => cases items <;> rfl
    | object fields => cases fields <;> rfl
    | _ => rfl
  have hemptied : (emptied (scrub value)).isSome = (emptied value).isSome := by cases value <;> rfl
  have hfull : fullString (scrub value) = fullString value := by cases value <;> rfl
  have hnone := isSome_replacement key value
  rw [h] at hnone
  have hscrubbed := isSome_replacement key (scrub value)
  rw [htruthy, hemptied, hfull, ← hnone] at hscrubbed
  exact Option.not_isSome_iff_eq_none.1 (Bool.eq_false_iff.1 hscrubbed)

/-! ### The scrub -/

mutual

/-- The strings that are left are the placeholders and those that were kept. -/
theorem blank_scrub (names : Bool) : ∀ value : Value,
    blank names (scrub value) = (kept names value).all placeholders.contains
  | .array items => blank_scrubItems names items
  | .object fields => blank_scrubFields names fields
  | .null | .bool _ | .number _ | .string _ => rfl

theorem blank_scrubItems (names : Bool) : ∀ items : List Value,
    (stringsItems names (scrubItems items)).all placeholders.contains =
      (keptItems names items).all placeholders.contains
  | [] => rfl
  | item :: items => by
    have hitem : (strings names (scrub item)).all placeholders.contains = _ := blank_scrub names item
    rw [scrubItems, stringsItems, keptItems, List.all_append, List.all_append, hitem, blank_scrubItems names items]

theorem blank_scrubFields (names : Bool) : ∀ fields : List (String × Value),
    (stringsFields names (scrubFields fields)).all placeholders.contains =
      (keptFields names fields).all placeholders.contains
  | [] => rfl
  | (key, value) :: fields => by
    rw [scrubFields, stringsFields, keptFields, List.all_append, List.all_append, List.all_append, List.all_append,
      blank_scrubFields names fields]
    cases h : replacement key value with
    | none =>
      have hvalue : (strings names (scrub value)).all placeholders.contains = _ := blank_scrub names value
      rw [Option.getD_none, hvalue]
      rfl
    | some r =>
      have hr : (strings names r).all placeholders.contains = true := (blank_of_replacement h names).1
      rw [Option.getD_some, hr]
      rfl

end

mutual

theorem clean_scrub (names : Bool) : ∀ value : Value, clean names (scrub value) = covered names value
  | .array items => clean_scrubItems names items
  | .object fields => clean_scrubFields names fields
  | .null | .bool _ | .number _ | .string _ => rfl

theorem clean_scrubItems (names : Bool) : ∀ items : List Value,
    cleanItems names (scrubItems items) = coveredItems names items
  | [] => rfl
  | item :: items => by
    rw [scrubItems, cleanItems, coveredItems, clean_scrub names item, clean_scrubItems names items]

theorem clean_scrubFields (names : Bool) : ∀ fields : List (String × Value),
    cleanFields names (scrubFields fields) = coveredFields names fields
  | [] => rfl
  | (key, value) :: fields => by
    rw [scrubFields, cleanFields, coveredFields, clean_scrubFields names fields]
    cases h : replacement key value with
    | none =>
      rw [Option.getD_none, blank_scrub names value, clean_scrub names value]
      rfl
    | some r =>
      obtain ⟨hblank, hclean⟩ := blank_of_replacement h names
      rw [Option.getD_some, hblank, hclean, Bool.or_true]
      rfl

end

mutual

/-- What stands in no sensitive field is left as it is. -/
theorem mask_scrub : ∀ value : Value, mask (scrub value) = mask value
  | .array items => congrArg Value.array (mask_scrubItems items)
  | .object fields => congrArg Value.object (mask_scrubFields fields)
  | .null | .bool _ | .number _ | .string _ => rfl

theorem mask_scrubItems : ∀ items : List Value, maskItems (scrubItems items) = maskItems items
  | [] => rfl
  | item :: items => by rw [scrubItems, maskItems, maskItems, mask_scrub item, mask_scrubItems items]

theorem mask_scrubFields : ∀ fields : List (String × Value), maskFields (scrubFields fields) = maskFields fields
  | [] => rfl
  | (key, value) :: fields => by
    rw [scrubFields, maskFields, maskFields, mask_scrubFields fields]
    cases h : replacement key value with
    | none => rw [Option.getD_none, mask_scrub value]
    | some r => rw [if_pos (sensitive_of_replacement h), if_pos (sensitive_of_replacement h)]

end

mutual

theorem scrub_scrub : ∀ value : Value, scrub (scrub value) = scrub value
  | .array items => congrArg Value.array (scrub_scrubItems items)
  | .object fields => congrArg Value.object (scrub_scrubFields fields)
  | .null | .bool _ | .number _ | .string _ => rfl

theorem scrub_scrubItems : ∀ items : List Value, scrubItems (scrubItems items) = scrubItems items
  | [] => rfl
  | item :: items => by rw [scrubItems, scrubItems, scrub_scrub item, scrub_scrubItems items]

theorem scrub_scrubFields : ∀ fields : List (String × Value), scrubFields (scrubFields fields) = scrubFields fields
  | [] => rfl
  | (key, value) :: fields => by
    rw [scrubFields, scrubFields, scrub_scrubFields fields]
    cases h : replacement key value with
    | none => rw [Option.getD_none, replacement_scrub h, Option.getD_none, scrub_scrub value]
    | some r => rw [Option.getD_some, replacement_replaced h, Option.getD_some]

end

theorem redactFrame_redactFrame (frame : Value) : redactFrame (redactFrame frame) = redactFrame frame := by
  cases frame with
  | object fields => exact scrub_scrub (.object fields)
  | _ => rfl

theorem mask_redactFrame (frame : Value) : mask (redactFrame frame) = mask frame := by
  cases frame with
  | object fields => exact mask_scrub (.object fields)
  | _ => rfl

theorem clean_redactFrame (names : Bool) (frame : Value) : clean names (redactFrame frame) = safe names frame := by
  cases frame with
  | object fields => exact clean_scrub names (.object fields)
  | _ => rfl

/-! ### The line -/

section

variable [Json]

/-- Nothing sensitive is left, nothing else is changed, and the line is redacted for good. -/
def Redacts (names : Bool) (line : String) (frame : Value) : Prop :=
  (∃ out, loads (strip (redactLine line)) = some out ∧ clean names out = true ∧ mask out = mask frame) ∧
    redactLine (redactLine line) = redactLine line

theorem redactLine_of_loads {line : String} {frame : Value} (hnothing : loads "" = none)
    (hparse : loads (strip line) = some frame) : redactLine line = dumps (redactFrame frame) := by
  have hline : strip line ≠ "" := by
    intro hnil
    rw [hnil, hnothing] at hparse
    cases hparse
  unfold redactLine
  dsimp only
  rw [if_neg hline, hparse]

/-- Whether the names of fields count as strings or not, a line is redacted if it holds an object in which every
sensitive field that is not replaced keeps placeholders only. -/
theorem redact_line_iff (names : Bool) {line : String} {frame : Value} (hnothing : loads "" = none)
    (hparse : loads (strip line) = some frame)
    (hback : loads (strip (dumps (redactFrame frame))) = some (redactFrame frame)) :
    Redacts names line frame ↔ safe names frame = true := by
  have honce := redactLine_of_loads hnothing hparse
  have htwice : redactLine (redactLine line) = redactLine line := by
    rw [honce, redactLine_of_loads hnothing hback, redactFrame_redactFrame]
  constructor
  · rintro ⟨⟨out, hout, hclean, -⟩, -⟩
    rw [honce, hback, Option.some_inj] at hout
    rw [← clean_redactFrame, hout]
    exact hclean
  · intro hsafe
    refine ⟨⟨redactFrame frame, ?_, ?_, mask_redactFrame frame⟩, htwice⟩
    · rw [honce]
      exact hback
    · rw [clean_redactFrame]
      exact hsafe

end

/-- `json`, for compact texts. -/
@[reducible] def Json.compact : Json := ⟨Value.parse, Value.print⟩

section

attribute [local instance] Json.compact

/-- A frame with a directory, a prompt and a token count. -/
def sessionInfo : Value :=
  .object [("cwd", .string "/home/me"), ("usage", .object [("prompt", .number (.int 5))]), ("prompt", .string "hello")]

theorem loads_compact {text : String} {value : Value} (htext : strip text = value.print) (hplain : value.plain = true) :
    loads (strip text) = some value := by
  rw [htext]
  exact Value.parse_print hplain

theorem redact_line_iff_sessionInfo :
    Redacts true sessionInfo.print sessionInfo ↔ safe true sessionInfo = true :=
  redact_line_iff true (by decide +kernel) (loads_compact (by decide +kernel) (by decide))
    (loads_compact (by decide +kernel) (by decide))

/-- A path in a list is not replaced. -/
def listedPath : Value := .object [("cwd", .array [.string "/home/me"])]

theorem path_slips_through : ¬ Redacts false "\x7b\"cwd\":[\"/home/me\"]\x7d" listedPath := by
  rintro ⟨⟨out, hout, hclean, -⟩, -⟩
  have hnothing : loads "" = none := by decide +kernel
  have hparse : loads (strip "\x7b\"cwd\":[\"/home/me\"]\x7d") = some listedPath :=
    loads_compact (by decide +kernel) (by decide)
  have hback : loads (strip (dumps (redactFrame listedPath))) = some listedPath :=
    loads_compact (by decide +kernel) (by decide)
  rw [redactLine_of_loads hnothing hparse, hback, Option.some_inj] at hout
  rw [← hout] at hclean
  revert hclean
  decide

end

end Hermo.Scripts
