import Hermo.RegistryFile
import Hermo.Rpc.Wire

/-!
# Frames carry lines

Messages as they stand on lines, lines as they are cut into frames, and what the reader makes of them: the messages, in
their order, however the server coalesced them (`decode_frames`).
-/

namespace Hermo.Rpc

/-! ### Messages -/

/-- The value says the message, with its fields in any order and whatever else stands beside them. -/
inductive Carries : Decoded → Value → Prop where
  | result {id : String} {result value : Value} (version : value.get "jsonrpc" = some (.string "2.0"))
      (method : value.get "method" = none) (hid : value.get "id" = some (.string id))
      (herror : value.get "error" = none) (hresult : value.get "result" = some result) : Carries (.result id result) value
  | error {id : String} {code : Int} {message : String} {data err value : Value}
      (version : value.get "jsonrpc" = some (.string "2.0")) (method : value.get "method" = none)
      (hid : value.get "id" = some (.string id)) (herror : value.get "error" = some err)
      (hcode : err.get "code" = some (.number (.int code))) (hi64 : IsI64 code)
      (hmessage : err.get "message" = some (.string message)) (hdata : (err.get "data").getD .null = data) :
      Carries (.error id ⟨code, message, data⟩) value
  | event {params : EventParams} {fields value : Value} (version : value.get "jsonrpc" = some (.string "2.0"))
      (method : value.get "method" = some (.string "event")) (hparams : value.get "params" = some fields)
      (htype : fields.get "type" = some (.string params.eventType))
      (hsession : fields.get "session_id" = some (.string params.sessionId))
      (hseq : fields.get "seq" = params.seq.map (.number <| .int ·)) (hi64 : ∀ n ∈ params.seq, IsI64 n)
      (hpayload : (fields.get "payload").getD .null = params.payload) : Carries (.event params) value

/-- The decoder reads the fields in an order of its own. -/
theorem Carries.decodeValue [JsonReader] {decoded : Decoded} {value : Value} (h : Carries decoded value) :
    decodeValue value = decoded := by
  have hi64At {value : Value} {key : String} {n : Int} (hkey : value.get key = some (.number (.int n)))
      (hn : IsI64 n) : value.i64At key = n := by
    unfold Value.i64At
    rw [hkey]
    exact if_pos hn
  have hstrAt {value : Value} {key s : String} (hkey : value.get key = some (.string s)) : value.strAt key = s := by
    unfold Value.strAt
    rw [hkey]
    rfl
  unfold Rpc.decodeValue
  cases h with
  | result version method hid herror hresult =>
    simp [version, method, hid, herror, hresult, idToString, Value.asStr]
  | error version method hid herror hcode hi64 hmessage hdata =>
    simp [version, method, hid, herror, idToString, Value.asStr, hi64At hcode hi64, hstrAt hmessage, hdata]
  | @event params fields _ version method hparams htype hsession hseq hi64 hpayload =>
    have hnumber : seqOf fields = params.seq := by
      unfold seqOf
      rw [hseq]
      cases hn : params.seq with
      | none => rfl
      | some n =>
        rw [hn] at hseq
        exact congrArg some (hi64At hseq (hi64 n hn))
    simp [version, method, Value.asStr, decodeEvent, hparams, hstrAt htype, hstrAt hsession, hnumber, hpayload]

/-- A message as JSON. -/
structure Message where
  decoded : Decoded
  value : Value
  carries : Carries decoded value

namespace Message

def ofResult (id : String) (result : Value) : Message where
  decoded := .result id result
  value := .object [("jsonrpc", .string "2.0"), ("id", .string id), ("result", result)]
  carries := .result rfl rfl rfl rfl rfl

def ofError (id : String) (code : Int) (h : IsI64 code) (message : String) (data : Value) : Message where
  decoded := .error id ⟨code, message, data⟩
  value := .object [("jsonrpc", .string "2.0"), ("id", .string id),
    ("error", .object [("code", .number (.int code)), ("message", .string message), ("data", data)])]
  carries := .error rfl rfl rfl rfl rfl h rfl rfl

/-- An event without a `seq` has no such field. -/
def ofEvent (params : EventParams) (h : ∀ n ∈ params.seq, IsI64 n) : Message where
  decoded := .event params
  value := .object [("jsonrpc", .string "2.0"), ("method", .string "event"),
    ("params", .object ([("type", .string params.eventType), ("session_id", .string params.sessionId)] ++
      (params.seq.map fun n => ("seq", .number (.int n))).toList ++ [("payload", params.payload)]))]
  carries := by
    obtain ⟨eventType, sessionId, seq, payload⟩ := params
    cases seq with
    | none => exact .event rfl rfl rfl rfl rfl rfl h rfl
    | some n => exact .event rfl rfl rfl rfl rfl rfl h rfl

end Message

/-! ### Lines -/

/-- White space on a line; a carriage return is one. -/
def Space (white : List Char) : Prop := ∀ c ∈ white, isWhitespace c = true ∧ c ≠ '\n'

theorem space_nil : Space [] := fun _ hc => absurd hc List.not_mem_nil

theorem space_cr : Space ['\r'] := by
  intro c hc
  rw [List.mem_singleton.1 hc]
  decide

/-- A blank line, or a message with white space around it. -/
inductive Line where
  | blank (white : List Char) (h : Space white)
  | message (before : List Char) (m : Message) (after : List Char) (hbefore : Space before) (hafter : Space after)

/-- What printing a value is taken for: it is read back, and stands on one line, in braces. -/
structure Printable [Serializer] [JsonReader] (value : Value) : Prop where
  reads : fromStr (toCompactString value) = some value
  line : '\n' ∉ (toCompactString value).toList
  begins : (toCompactString value).toList.head? = some '\x7b'
  ends : (toCompactString value).toList.getLast? = some '\x7d'

namespace Line

def message? : Line → Option Message
  | blank _ _ => none
  | message _ m _ _ _ => some m

section

variable [Serializer]

def text : Line → List Char
  | blank white _ => white
  | message before m after _ _ => before ++ (toCompactString m.value).toList ++ after

end

end Line

/-- A frame is its lines, one behind the other. -/
def frameText [Serializer] (lines : List Line) : String :=
  String.ofList (['\n'].intercalate (lines.map Line.text))

section

variable [Serializer] [JsonReader]

theorem Printable.trim {value : Value} (h : Printable value) :
    trim (toCompactString value).toList = (toCompactString value).toList := by
  refine trim_of_ends ?_ ?_
  · rw [h.begins]
    rintro c ⟨⟩
    decide
  · rw [h.ends]
    rintro c ⟨⟩
    decide

theorem Line.not_mem_text {line : Line} (h : ∀ m ∈ line.message?, Printable m.value) : '\n' ∉ line.text := by
  have hspace {white : List Char} (hwhite : Space white) : '\n' ∉ white := fun hmem => (hwhite _ hmem).2 rfl
  cases line with
  | blank white hwhite => exact hspace hwhite
  | message before m after hbefore hafter =>
    unfold text
    rw [List.mem_append, List.mem_append, not_or, not_or]
    exact ⟨⟨hspace hbefore, (h m rfl).line⟩, hspace hafter⟩

/-- What trimming leaves of a line. -/
theorem Line.trim_text {line : Line} (h : ∀ m ∈ line.message?, Printable m.value) :
    trim line.text = (line.message?.map fun m => (toCompactString m.value).toList).getD [] := by
  have hspace {white : List Char} (hwhite : Space white) : ∀ c ∈ white, isWhitespace c = true :=
    fun c hc => (hwhite c hc).1
  cases line with
  | blank white hwhite =>
    have htrim := trim_append_white (hspace hwhite) []
    rw [List.nil_append] at htrim
    exact htrim
  | message before m after hbefore hafter =>
    unfold text
    rw [trim_append_white (hspace hafter), trim_white_append (hspace hbefore), (h m rfl).trim]
    rfl

/-- The lines of a frame are those that were put into it, less the blank ones. -/
theorem decode_frameText {lines : List Line} (h : ∀ line ∈ lines, ∀ m ∈ line.message?, Printable m.value) :
    (splitLines (frameText lines)).map decode = (lines.filterMap Line.message?).map (some ·.decoded) := by
  have hcr : ∀ c, (c == '\r') = true → isWhitespace c = true := by
    intro c hc
    rw [beq_iff_eq.1 hc]
    decide
  have hdecode {text : List Char} : decode (String.ofList text) = (fromStr (String.ofList (trim text))).map decodeValue := by
    unfold decode
    rw [String.toList_ofList]
  have hpieces : splitLines (frameText lines) =
      (((lines.map Line.text).map (trimEnd (· == '\r'))).filter fun l => !(trim l).isEmpty).map String.ofList := by
    unfold splitLines frameText
    rw [String.toList_ofList]
    by_cases hnil : lines = []
    · subst hnil
      rfl
    · have hsplit : (['\n'].intercalate (lines.map Line.text)).splitOn '\n' = lines.map Line.text := by
        refine List.splitOn_intercalate '\n' ?_ (fun hmap => hnil (List.map_eq_nil_iff.1 hmap))
        intro l hl
        obtain ⟨line, hline, rfl⟩ := List.mem_map.1 hl
        exact Line.not_mem_text (h line hline)
      rw [hsplit]
  rw [hpieces]
  clear hpieces
  induction lines with
  | nil => rfl
  | cons line lines ih =>
    have hline := h line List.mem_cons_self
    have hrest := ih fun l hl => h l (List.mem_cons_of_mem line hl)
    have htrim : trim (trimEnd (· == '\r') line.text) = _ := (trim_trimEnd hcr line.text).trans (Line.trim_text hline)
    rw [List.map_cons, List.map_cons, List.filterMap_cons]
    cases hmessage : line.message? with
    | none =>
      rw [hmessage] at htrim
      rw [List.filter_cons_of_neg (by simp [htrim])]
      exact hrest
    | some m =>
      rw [hmessage] at htrim hline
      have hprint := hline m rfl
      have hfull : (toCompactString m.value).toList ≠ [] := by
        intro hnil
        have hbegins := hprint.begins
        rw [hnil] at hbegins
        cases hbegins
      have hfirst : decode (String.ofList (trimEnd (· == '\r') line.text)) = some m.decoded := by
        rw [hdecode, htrim]
        dsimp only [Option.map_some, Option.getD_some]
        rw [String.ofList_toList, hprint.reads, Option.map_some, m.carries.decodeValue]
      rw [List.filter_cons_of_pos (by simp [htrim, hfull]), List.map_cons, List.map_cons, hfirst, hrest, List.map_cons]

end

/-! ### The reader -/

section

variable [JsonReader]

/-- The reader sees of a line what it decodes to. -/
theorem Wire.handle_congr {a b : String} (h : decode a = decode b) (s : Wire) (reader : Nat) :
    s.handle reader a = s.handle reader b := by
  unfold handle
  rw [h]

theorem Wire.foldlM_handle_congr {a b : List String} (h : a.map decode = b.map decode) (s : Wire) (reader : Nat) :
    a.foldlM (fun s line => s.handle reader line) s = b.foldlM (fun s line => s.handle reader line) s := by
  induction a generalizing b s with
  | nil =>
    have hnil : b = [] := List.map_eq_nil_iff.1 h.symm
    rw [hnil]
  | cons line a ih =>
    obtain ⟨other, rest, rfl, hfirst, hrest⟩ := List.map_eq_cons_iff.1 h.symm
    rw [List.foldlM_cons, List.foldlM_cons, handle_congr hfirst.symm]
    exact congrArg _ (funext fun t => ih hrest.symm t)

end

section

variable [Serializer] [JsonReader]

/-- Whatever blank lines stand between the messages and however the lines are cut into frames, the reader decodes the
messages, and goes on as if each had come in a frame of its own. -/
theorem decode_frames {messages : List Message} (hprint : ∀ m ∈ messages, Printable m.value) {lines : List Line}
    (hlines : lines.filterMap Line.message? = messages) {groups : List (List Line)} (hcut : groups.flatten = lines) :
    (groups.flatMap fun group => (splitLines (frameText group)).map decode) = messages.map (some ·.decoded) ∧
      ∀ (s : Wire) (reader : Nat),
        (groups.flatMap fun group => splitLines (frameText group)).foldlM (fun s line => s.handle reader line) s =
          (messages.flatMap fun m => splitLines (toCompactString m.value)).foldlM
            (fun s line => s.handle reader line) s := by
  have hgroups : (groups.flatMap fun group => (splitLines (frameText group)).map decode) =
      messages.map (some ·.decoded) := by
    have hframe : ∀ group ∈ groups, (splitLines (frameText group)).map decode =
        (group.filterMap Line.message?).map (some ·.decoded) := by
      intro group hgroup
      refine decode_frameText fun line hline m hm => hprint m ?_
      rw [← hlines, ← hcut]
      exact List.mem_filterMap.2 ⟨line, List.mem_flatten.2 ⟨group, hgroup, hline⟩, hm⟩
    rw [List.flatMap_congr hframe, ← List.map_flatMap, ← hlines, ← hcut, List.filterMap_flatten]
    rfl
  refine ⟨hgroups, fun s reader => Wire.foldlM_handle_congr ?_ s reader⟩
  have hsingle : ∀ m ∈ messages, (splitLines (toCompactString m.value)).map decode = [some m.decoded] := by
    intro m hm
    have hone : (splitLines (frameText [.message [] m [] space_nil space_nil])).map decode = [some m.decoded] := by
      refine decode_frameText fun line hline other hother => ?_
      rw [List.mem_singleton.1 hline] at hother
      cases hother
      exact hprint m hm
    have htext : frameText [.message [] m [] space_nil space_nil] = toCompactString m.value := by
      unfold frameText
      rw [List.map_singleton, List.intercalate_singleton]
      change String.ofList ([] ++ (toCompactString m.value).toList ++ []) = _
      rw [List.nil_append, List.append_nil, String.ofList_toList]
    rw [htext] at hone
    exact hone
  rw [List.map_flatMap, List.map_flatMap, hgroups, List.flatMap_congr hsingle]
  exact List.map_eq_flatMap

end

/-! ### The compact printer -/

theorem line_quote (s : String) : '\n' ∉ (quote s).toList := by
  have hescape (c : Char) : '\n' ∉ (escapeChar c).toList := by
    unfold escapeChar
    split <;> try decide
    split <;> try decide
    split <;> try decide
    rename_i hnewline
    split <;> try decide
    split <;> try decide
    rw [Char.toString_eq_singleton, String.toList_singleton, List.mem_singleton]
    exact Ne.symm hnewline
  rw [quote_toList, List.mem_cons, List.mem_append, List.mem_flatMap, not_or, not_or]
  refine ⟨by decide, ?_, by decide⟩
  rintro ⟨c, -, hc⟩
  exact hescape c hc

theorem line_int (n : Int) : '\n' ∉ (toString n).toList := by
  have hdigits (n : Nat) : '\n' ∉ n.repr.toList := by
    intro hmem
    rw [Nat.toList_repr] at hmem
    exact absurd (Nat.isDigit_of_mem_toDigits (by decide) (by decide) hmem) (by decide)
  cases n with
  | ofNat n => exact hdigits n
  | negSucc n =>
    change '\n' ∉ ("-" ++ n.succ.repr).toList
    rw [String.toList_append, List.mem_append, not_or]
    exact ⟨by decide, hdigits n.succ⟩

mutual

/-- A value stands on one line. -/
theorem line_print : ∀ v : Value, '\n' ∉ v.print.toList
  | .null => by decide
  | .bool b => by cases b <;> decide
  | .number (.int n) => line_int n
  | .number (.float _) => (by decide : '\n' ∉ "0.0".toList)
  | .string s => line_quote s
  | .array items => by
    rw [Value.print, String.toList_append, String.toList_append, List.mem_append, List.mem_append, not_or, not_or]
    exact ⟨⟨by decide, line_printItems items⟩, by decide⟩
  | .object fields => by
    rw [Value.print, String.toList_append, String.toList_append, List.mem_append, List.mem_append, not_or, not_or]
    exact ⟨⟨by decide, line_printFields fields⟩, by decide⟩

theorem line_printItems : ∀ items : List Value, '\n' ∉ (Value.printItems items).toList
  | [] => by decide
  | [item] => line_print item
  | item :: other :: items => by
    rw [Value.printItems, String.toList_append, String.toList_append, List.mem_append, List.mem_append, not_or, not_or]
    · exact ⟨⟨line_print item, by decide⟩, line_printItems (other :: items)⟩
    · nofun

theorem line_printFields : ∀ fields : List (String × Value), '\n' ∉ (Value.printFields fields).toList
  | [] => by decide
  | [(key, value)] => by
    rw [Value.printFields, String.toList_append, String.toList_append, List.mem_append, List.mem_append, not_or, not_or]
    exact ⟨⟨line_quote key, by decide⟩, line_print value⟩
  | (key, value) :: other :: fields => by
    rw [Value.printFields]
    · simp only [String.toList_append, List.mem_append, not_or]
      exact ⟨⟨⟨⟨line_quote key, by decide⟩, line_print value⟩, by decide⟩, line_printFields (other :: fields)⟩
    · nofun

end

section

attribute [local instance] Serializer.compact JsonReader.compact

/-- Every object that survives a text is printable. -/
theorem printable_compact {fields : List (String × Value)} (h : (Value.object fields).plain = true) :
    Printable (.object fields) := by
  have htext : (Value.object fields).print.toList = '\x7b' :: ((Value.printFields fields).toList ++ ['\x7d']) := by
    rw [Value.print, String.toList_append, String.toList_append]
    rfl
  refine ⟨Value.parse_print h, line_print _, ?_, ?_⟩
  · exact congrArg List.head? htext
  · refine (congrArg List.getLast? htext).trans ?_
    rw [← List.cons_append, List.getLast?_concat]

/-- A result that looks like an event. -/
def answer : Message := .ofResult "1" (.object [("method", .string "event"), ("error", .null)])

def delta : Message :=
  .ofEvent ⟨"message.delta", "s", some 3, .object [("id", .string "1"), ("text", .string "a\nb")]⟩ (by decide)

def status : Message := .ofEvent ⟨"status.update", "", none, .null⟩ (by decide)

theorem printable_exchange : ∀ m ∈ [answer, delta, status], Printable m.value := by
  intro m hm
  simp only [List.mem_cons, List.not_mem_nil, or_false] at hm
  rcases hm with rfl | rfl | rfl
  · exact printable_compact (by decide)
  · exact printable_compact (by decide)
  · exact printable_compact (by decide)

/-- The first two in one frame, an empty frame, and the third. -/
def coalesced : List (List Line) :=
  [[.message [] answer ['\r'] space_nil space_cr, .blank [] space_nil,
      .message [] delta [] space_nil space_nil], [], [.message [] status [] space_nil space_nil]]

theorem decode_frames_coalesced :
    (coalesced.flatMap fun group => (splitLines (frameText group)).map decode) =
        [answer, delta, status].map (some ·.decoded) ∧
      ∀ (s : Wire) (reader : Nat),
        (coalesced.flatMap fun group => splitLines (frameText group)).foldlM (fun s line => s.handle reader line) s =
          ([answer, delta, status].flatMap fun m => splitLines (toCompactString m.value)).foldlM
            (fun s line => s.handle reader line) s :=
  decode_frames printable_exchange rfl rfl

end

end Hermo.Rpc
