import Mathlib.Data.List.Induction
import Hermo.Rpc.Frames

/-!
# The recorded turns of the fake gateway

`fixtures.rs` of the fake gateway: the recorded event stream is cut into turns, and a prompt selects the turn that is
replayed.  `Cut` says what the cutting is for, without the flags of the loop; `loaded_cut` says that the loop finds it.
-/

namespace Hermo.FakeGateway

open Hermo.Rpc (trim)

inductive TurnKind where
  | plain | tool | clarify | approval | slow
  deriving DecidableEq, Repr

/-- `HashMap<TurnKind, Vec<Value>>`. -/
abbrev Scenarios := TurnKind → Option (List Value)

def Scenarios.insert (scenarios : Scenarios) (kind : TurnKind) (frames : List Value) : Scenarios :=
  fun k => if k = kind then some frames else scenarios k

structure Fixtures where
  scenarios : Scenarios
  ready : Value
  approvalFrame : Option Value := none
  clarifyFrame : Option Value := none
  sessionInfo : Option Value

/-- `params.type` of a frame. -/
def typeOf (frame : Value) : Option String :=
  (frame.get "params").bind fun params => (params.get "type").bind Value.asStr

/-- `params.payload` of a frame. -/
def payloadOf (frame : Value) : Value := ((frame.get "params").bind fun params => params.get "payload").getD .null

/-! ### Serving a turn -/

namespace Fixtures

def plainFrames (f : Fixtures) : List Value := (f.scenarios .plain).getD []

def turnFrames (f : Fixtures) : TurnKind → List Value
  | .plain => f.plainFrames
  | .slow => (f.scenarios .slow).getD f.plainFrames
  | .tool => (f.scenarios .tool).getD []
  | .clarify =>
    match f.clarifyFrame with
    | some frame => frame :: f.plainFrames
    | none => (f.scenarios .clarify).getD []
  | .approval => f.approvalFrame.toList ++ f.plainFrames

def turn (f : Fixtures) (kind : TurnKind) : List Value :=
  let frames := f.turnFrames kind
  if frames.getLast?.bind typeOf = some "session.info" then frames else frames ++ f.sessionInfo.toList

end Fixtures

/-- `str::to_lowercase`, by the tables of Unicode. -/
class Lowercase where
  toLowercase : String → String

export Lowercase (toLowercase)

/-- The letters of ASCII only. -/
@[reducible] def Lowercase.ascii : Lowercase := ⟨fun text => String.ofList (text.toList.map Char.toLower)⟩

/-- `Iterator::max_by_key`: the last of the greatest. -/
def maxByKey {α : Type} (key : α → Nat) : List α → Option α
  | [] => none
  | a :: rest =>
    match maxByKey key rest with
    | some best => if key best < key a then some a else some best
    | none => some a

/-- `str::contains` of a text. -/
def containsText (text part : String) : Bool := text.toList.tails.any fun rest => part.toList.isPrefixOf rest

def select [Lowercase] (promptText : String) : TurnKind :=
  let lower := toLowercase promptText
  if containsText lower "tool" then .tool
  else if containsText lower "clarify" then .clarify
  else if containsText lower "approve" then .approval
  else if containsText lower "slow" then .slow
  else .plain

/-- The `params` of a rewritten frame. -/
def rewriteParams (params : Value) (sessionId : String) (seq : Int) : Value :=
  let params := params.setField "session_id" (.string sessionId)
  if (params.get "seq").isSome then params.setField "seq" (.number (.int seq)) else params

/-- A frame without an object `params` stays as it is. -/
def rewrite (frame : Value) (sessionId : String) (seq : Int) : Value :=
  match frame.get "params" with
  | some params => if params.isObject then frame.setField "params" (rewriteParams params sessionId seq) else frame
  | none => frame

/-! ### Loading the recording -/

section

variable [JsonReader]

def parseEventFrame (line : String) : Option (Value × String × Value) :=
  let trimmed := trim line.toList
  if trimmed.isEmpty then none
  else
    (fromStr (String.ofList trimmed)).bind fun value =>
      if (value.get "method").bind Value.asStr ≠ some "event" then none
      else (typeOf value).map fun eventType => (value, eventType, payloadOf value)

/-- `load_first_object`: the first line that is an object. -/
def loadFirstObject (lines : List String) : Option Value :=
  lines.findSome? fun line =>
    let trimmed := trim line.toList
    if trimmed.isEmpty then none
    else (fromStr (String.ofList trimmed)).bind fun value => if value.isObject then some value else none

end

/-- The variables of the loop of `load_scenarios`. -/
structure Loading where
  scenarios : Scenarios := fun _ => none
  current : List Value := []
  hasTool : Bool := false
  hasClarify : Bool := false
  ready : Value := .null
  plain : List (List Value) := []
  complete : Bool := false
  sessionInfo : Option Value := none

namespace Loading

/-- A finished turn becomes a scenario. -/
def store (s : Loading) : Loading :=
  if s.hasClarify then { s with scenarios := s.scenarios.insert .clarify s.current }
  else if s.hasTool then { s with scenarios := s.scenarios.insert .tool s.current }
  else { s with plain := s.plain ++ [s.current] }

/-- The flags an event sets. -/
def note (s : Loading) (value : Value) (eventType : String) : Loading :=
  let s := if eventType = "session.info" ∧ s.sessionInfo.isNone then { s with sessionInfo := some value } else s
  let s := if eventType = "tool.start" then { s with hasTool := true } else s
  if eventType = "clarify.request" then { s with hasClarify := true } else s

/-- A turn ends where the next one starts. -/
def cut (s : Loading) (eventType : String) : Loading :=
  if s.complete ∧ eventType = "message.start" then
    { s.store with current := [], complete := false, hasTool := false, hasClarify := false }
  else s

def push (s : Loading) (value : Value) (eventType : String) : Loading :=
  let s := { s with current := s.current ++ [value] }
  if eventType = "message.complete" then { s with complete := true } else s

def event (s : Loading) (value : Value) (eventType : String) (payload : Value) : Loading :=
  if eventType = "gateway.ready" then { s with ready := payload }
  else ((s.note value eventType).cut eventType).push value eventType

def line [JsonReader] (s : Loading) (line : String) : Loading :=
  match parseEventFrame line with
  | none => s
  | some (value, eventType, payload) => s.event value eventType payload

/-- Behind the loop. -/
def finish (s : Loading) : Fixtures :=
  let s := if s.complete ∧ (s.hasClarify ∨ s.hasTool ∨ s.current ≠ []) then s.store else s
  let scenarios :=
    match s.plain.head? with
    | some first => s.scenarios.insert .plain first
    | none => s.scenarios
  let scenarios :=
    match maxByKey List.length s.plain with
    | some longest => scenarios.insert .slow longest
    | none => scenarios
  { scenarios := scenarios, ready := s.ready, sessionInfo := s.sessionInfo }

end Loading

/-- `Fixtures::load`, on the lines of the file. -/
def Fixtures.load [JsonReader] (lines : List String) : Fixtures := (lines.foldl Loading.line {}).finish

/-- `Fixtures::load_with_synthetic`. -/
def Fixtures.loadWithSynthetic [JsonReader] (events synthetic : List String) (clarify : Option (List String)) :
    Fixtures :=
  { Fixtures.load events with
    approvalFrame := loadFirstObject synthetic
    clarifyFrame := clarify.bind loadFirstObject }

theorem maxByKey_eq_none {α : Type} {key : α → Nat} {l : List α} (h : maxByKey key l = none) : l = [] := by
  cases l with
  | nil => rfl
  | cons a l =>
    unfold maxByKey at h
    split at h
    · split at h <;> cases h
    · cases h

theorem maxByKey_mem {α : Type} {key : α → Nat} {l : List α} {best : α} (h : maxByKey key l = some best) :
    best ∈ l ∧ ∀ a ∈ l, key a ≤ key best := by
  induction l generalizing best with
  | nil => cases h
  | cons a l ih =>
    unfold maxByKey at h
    split at h
    · rename_i other hother
      obtain ⟨hmem, hle⟩ := ih hother
      split at h <;> cases h
      · refine ⟨List.mem_cons_self, List.forall_mem_cons.2 ⟨Nat.le_refl _, ?_⟩⟩
        intro b hb
        have hble := hle b hb
        omega
      · exact ⟨List.mem_cons_of_mem _ hmem, List.forall_mem_cons.2 ⟨by omega, hle⟩⟩
    · rename_i hnone
      cases h
      rw [maxByKey_eq_none hnone]
      simp

/-! ### The turns of a recording -/

/-- A finished turn: it reaches `message.complete`, and no other one starts in it behind that. -/
def Finished (frames : List Value) : Prop :=
  ∃ before complete after, frames = before ++ complete :: after ∧ typeOf complete = some "message.complete" ∧
    (∀ f ∈ before, typeOf f ≠ some "message.complete") ∧ ∀ f ∈ after, typeOf f ≠ some "message.start"

/-- The recording is these turns one after the other, and a turn that was not finished. -/
structure Cut (frames : List Value) (turns : List (List Value)) (rest : List Value) : Prop where
  append : turns.flatten ++ rest = frames
  finished : ∀ turn ∈ turns, Finished turn
  unfinished : ∀ f ∈ rest, typeOf f ≠ some "message.complete"
  starts : ∀ turn ∈ (turns ++ [rest]).tail, ∀ f ∈ turn.head?, typeOf f = some "message.start"

/-- What a turn is replayed for. -/
def kindOf (frames : List Value) : TurnKind :=
  if frames.any fun f => typeOf f = some "clarify.request" then .clarify
  else if frames.any fun f => typeOf f = some "tool.start" then .tool
  else .plain

section

variable [JsonReader]

/-- The frames of a recording, without the preamble of the connection. -/
def recorded (lines : List String) : List Value :=
  (lines.filterMap parseEventFrame).filterMap fun (value, eventType, _) =>
    if eventType = "gateway.ready" then none else some value

theorem typeOf_of_parse {line : String} {value payload : Value} {eventType : String}
    (h : parseEventFrame line = some (value, eventType, payload)) : typeOf value = some eventType := by
  unfold parseEventFrame at h
  dsimp only at h
  split at h
  · cases h
  · obtain ⟨v, -, hv⟩ := Option.bind_eq_some_iff.1 h
    split at hv
    · cases hv
    · obtain ⟨t, ht, heq⟩ := Option.map_eq_some_iff.1 hv
      cases heq
      exact ht

end

namespace Loading

/-- What was stored of the turns so far. -/
structure Stored (s : Loading) (turns : List (List Value)) : Prop where
  plain : s.plain = turns.filter (kindOf · = .plain)
  clarify : s.scenarios .clarify = (turns.filter (kindOf · = .clarify)).getLast?
  tool : s.scenarios .tool = (turns.filter (kindOf · = .tool)).getLast?
  other : s.scenarios .plain = none ∧ s.scenarios .slow = none

/-- The flags say what the turn holds that is being read. -/
structure Flags (s : Loading) : Prop where
  tool : s.hasTool = s.current.any fun f => typeOf f = some "tool.start"
  clarify : s.hasClarify = s.current.any fun f => typeOf f = some "clarify.request"

theorem Stored.store {s : Loading} {turns : List (List Value)} (h : Stored s turns) (hflags : Flags s) :
    Stored s.store (turns ++ [s.current]) := by
  have hkind : kindOf s.current = if s.hasClarify then .clarify else if s.hasTool then .tool else .plain := by
    unfold kindOf
    rw [hflags.tool, hflags.clarify]
  unfold Loading.store
  split
  · rename_i hc
    rw [if_pos hc] at hkind
    constructor <;> simp [List.filter_append, hkind, Scenarios.insert, h.plain, h.tool, h.other]
  · rename_i hc
    rw [if_neg hc] at hkind
    split
    · rename_i ht
      rw [if_pos ht] at hkind
      constructor <;> simp [List.filter_append, hkind, Scenarios.insert, h.plain, h.clarify, h.other]
    · rename_i ht
      rw [if_neg ht] at hkind
      constructor <;> simp [List.filter_append, hkind, h.plain, h.clarify, h.tool, h.other]

theorem store_sessionInfo (s : Loading) : s.store.sessionInfo = s.sessionInfo := by
  unfold Loading.store
  split
  · rfl
  · split <;> rfl

/-- An event that starts a turn. -/
theorem event_start (s : Loading) (value payload : Value) :
    s.event value "message.start" payload =
      if s.complete then { s.store with current := [value], complete := false, hasTool := false, hasClarify := false }
      else { s with current := s.current ++ [value] } := by
  unfold event note cut push
  cases hc : s.complete <;> simp [hc]

/-- Any other event of a turn. -/
theorem event_other (s : Loading) (value payload : Value) {eventType : String} (hr : eventType ≠ "gateway.ready")
    (hs : eventType ≠ "message.start") :
    s.event value eventType payload = { s with
      current := s.current ++ [value]
      hasTool := s.hasTool || eventType = "tool.start"
      hasClarify := s.hasClarify || eventType = "clarify.request"
      complete := s.complete || eventType = "message.complete"
      sessionInfo := s.sessionInfo.or (if eventType = "session.info" then some value else none) } := by
  unfold event
  rw [if_neg hr]
  unfold cut
  rw [if_neg (fun h => hs h.2)]
  unfold push note
  by_cases hi : eventType = "session.info"
  · subst hi
    cases hinfo : s.sessionInfo <;> simp [hinfo]
  · by_cases ht : eventType = "tool.start"
    · subst ht
      simp
    · by_cases hc : eventType = "clarify.request"
      · subst hc
        simp
      · by_cases hm : eventType = "message.complete"
        · subst hm
          simp
        · simp [hi, ht, hc, hm]

/-- The loop has cut what it saw into these turns, and reads one more. -/
structure Seen (s : Loading) (turns : List (List Value)) (frames : List Value) : Prop where
  append : turns.flatten ++ s.current = frames
  finished : ∀ turn ∈ turns, Finished turn
  reading : if s.complete then Finished s.current else ∀ f ∈ s.current, typeOf f ≠ some "message.complete"
  going : turns ≠ [] → s.current ≠ []
  starts : ∀ turn ∈ (turns ++ [s.current]).tail, ∀ f ∈ turn.head?, typeOf f = some "message.start"
  flags : Flags s
  stored : Stored s turns
  sessionInfo : s.sessionInfo = frames.find? fun f => typeOf f = some "session.info"

theorem seen_nil : Seen {} [] [] where
  append := rfl
  finished := nofun
  reading := nofun
  going h := absurd rfl h
  starts := nofun
  flags := ⟨rfl, rfl⟩
  stored := ⟨rfl, rfl, rfl, rfl, rfl⟩
  sessionInfo := rfl

/-- A finished turn is kept, and the next one starts. -/
private theorem Seen.next {s : Loading} {turns : List (List Value)} {frames : List Value} {value : Value}
    (h : Seen s turns frames) (hv : typeOf value = some "message.start") (hc : s.complete = true) :
    Seen { s.store with current := [value], complete := false, hasTool := false, hasClarify := false }
      (turns ++ [s.current]) (frames ++ [value]) := by
  have hreading := h.reading
  rw [if_pos hc] at hreading
  constructor
  · simp [← h.append]
  · intro turn hturn
    rcases List.mem_append.1 hturn with hturn | hturn
    · exact h.finished turn hturn
    · rw [List.mem_singleton.1 hturn]
      exact hreading
  · simp [hv]
  · simp
  · intro turn hturn f hf
    rw [List.tail_append_of_ne_nil (by simp)] at hturn
    rcases List.mem_append.1 hturn with hturn | hturn
    · exact h.starts turn hturn f hf
    · rw [List.mem_singleton.1 hturn] at hf
      cases hf
      exact hv
  · constructor <;> simp [hv]
  · have hstored := h.stored.store h.flags
    exact ⟨hstored.plain, hstored.clarify, hstored.tool, hstored.other⟩
  · rw [List.find?_append, ← h.sessionInfo, List.find?_singleton, if_neg (by simp [hv]), Option.or_none]
    exact store_sessionInfo s

/-- A finished turn stays finished up to the next start. -/
private theorem finished_snoc {frames : List Value} {value : Value} (h : Finished frames)
    (hv : typeOf value ≠ some "message.start") : Finished (frames ++ [value]) := by
  obtain ⟨before, complete, after, rfl, hcomplete, hbefore, hafter⟩ := h
  refine ⟨before, complete, after ++ [value], by simp, hcomplete, hbefore, ?_⟩
  intro f hf
  rcases List.mem_append.1 hf with hf | hf
  · exact hafter f hf
  · rw [List.mem_singleton.1 hf]
    exact hv

/-- A frame of the turn that is being read. -/
private theorem Seen.push {s s' : Loading} {turns : List (List Value)} {frames : List Value} {value : Value}
    (h : Seen s turns frames) (hcurrent : s'.current = s.current ++ [value])
    (hcomplete : s'.complete = (s.complete || typeOf value = some "message.complete"))
    (hstart : s.complete = true → typeOf value ≠ some "message.start") (hflags : Flags s')
    (hstored : s'.scenarios = s.scenarios ∧ s'.plain = s.plain)
    (hinfo : s'.sessionInfo = s.sessionInfo.or (if typeOf value = some "session.info" then some value else none)) :
    ∃ turns', Seen s' turns' (frames ++ [value]) := by
  have hreading := h.reading
  refine ⟨turns, ?_, h.finished, ?_, ?_, ?_, hflags, ?_, ?_⟩
  · rw [hcurrent, ← List.append_assoc, h.append]
  · rw [hcurrent, hcomplete]
    cases hc : s.complete with
    | true =>
      rw [if_pos hc] at hreading
      exact finished_snoc hreading (hstart hc)
    | false =>
      rw [if_neg (by simp [hc])] at hreading
      by_cases hm : typeOf value = some "message.complete"
      · rw [if_pos (by simp [hm])]
        exact ⟨s.current, value, [], rfl, hm, hreading, nofun⟩
      · rw [if_neg (by simp [hm])]
        intro f hf
        rcases List.mem_append.1 hf with hf | hf
        · exact hreading f hf
        · rw [List.mem_singleton.1 hf]
          exact hm
  · simp [hcurrent]
  · -- the first frame of a turn that has one does not change
    intro turn hturn f hf
    by_cases hturns : turns = []
    · subst hturns
      cases hturn
    · rw [List.tail_append_of_ne_nil hturns] at hturn
      rcases List.mem_append.1 hturn with hturn | hturn
      · refine h.starts turn ?_ f hf
        rw [List.tail_append_of_ne_nil hturns]
        exact List.mem_append_left _ hturn
      · rw [List.mem_singleton.1 hturn, hcurrent, List.head?_append_of_ne_nil _ (h.going hturns)] at hf
        refine h.starts s.current ?_ f hf
        rw [List.tail_append_of_ne_nil hturns]
        exact List.mem_append_right _ (List.mem_singleton_self _)
  · rcases hstored with ⟨hscenarios, hplain⟩
    exact ⟨hplain ▸ h.stored.plain, hscenarios ▸ h.stored.clarify, hscenarios ▸ h.stored.tool,
      hscenarios ▸ h.stored.other⟩
  · rw [List.find?_append, ← h.sessionInfo, List.find?_singleton, hinfo]
    simp

/-- One event of the recording. -/
theorem Seen.event {s : Loading} {turns : List (List Value)} {frames : List Value} {value : Value}
    {eventType : String} (h : Seen s turns frames) (hv : typeOf value = some eventType)
    (hr : eventType ≠ "gateway.ready") (payload : Value) :
    ∃ turns', Seen (s.event value eventType payload) turns' (frames ++ [value]) := by
  by_cases hs : eventType = "message.start"
  · subst hs
    rw [event_start]
    by_cases hc : s.complete = true
    · rw [if_pos hc]
      exact ⟨_, h.next hv hc⟩
    · rw [if_neg hc]
      have hflags : Flags { s with current := s.current ++ [value] } := by
        constructor <;> simp [hv, h.flags.tool, h.flags.clarify]
      exact h.push rfl (by simp [hv]) (fun h => absurd h hc) hflags ⟨rfl, rfl⟩ (by simp [hv])
  · rw [event_other s value payload hr hs]
    refine h.push rfl (by simp [hv]) (by simp [hv, hs]) ?_ ⟨rfl, rfl⟩ (by simp [hv])
    constructor <;> simp [hv, h.flags.tool, h.flags.clarify]

theorem Seen.line [JsonReader] {s : Loading} {turns : List (List Value)} {frames : List Value}
    (h : Seen s turns frames) (l : String) : ∃ turns', Seen (s.line l) turns' (frames ++ recorded [l]) := by
  unfold Loading.line recorded
  rcases hparse : parseEventFrame l with _ | ⟨value, eventType, payload⟩
  · simpa [hparse] using ⟨turns, h⟩
  · by_cases hr : eventType = "gateway.ready"
    · -- the preamble touches no turn
      refine ⟨turns, ?_⟩
      have hready : s.event value eventType payload = { s with ready := payload } := by
        unfold Loading.event
        rw [if_pos hr]
      simp only [hparse, if_pos hr, List.filterMap_cons, List.filterMap_nil, List.append_nil]
      rw [hready]
      exact ⟨h.append, h.finished, h.reading, h.going, h.starts, ⟨h.flags.tool, h.flags.clarify⟩,
        ⟨h.stored.plain, h.stored.clarify, h.stored.tool, h.stored.other⟩, h.sessionInfo⟩
    · simpa [hparse, hr] using h.event (typeOf_of_parse hparse) hr payload

/-- The whole recording. -/
theorem seen_lines [JsonReader] (lines : List String) :
    ∃ turns, Seen (lines.foldl Loading.line {}) turns (recorded lines) := by
  induction lines using List.reverseRecOn with
  | nil => exact ⟨[], seen_nil⟩
  | append_singleton lines l ih =>
    obtain ⟨turns, h⟩ := ih
    have happend : recorded (lines ++ [l]) = recorded lines ++ recorded [l] := by
      unfold recorded
      rw [List.filterMap_append, List.filterMap_append]
    rw [List.foldl_append, happend]
    exact h.line l

/-- Behind the loop the turn that is being read is stored too, if it is finished. -/
theorem Seen.last {s : Loading} {turns : List (List Value)} {frames : List Value} (h : Seen s turns frames) :
    ∃ turns' rest, Cut frames turns' rest ∧
      Stored (if s.complete ∧ (s.hasClarify ∨ s.hasTool ∨ s.current ≠ []) then s.store else s) turns' := by
  have hreading := h.reading
  by_cases hc : s.complete = true
  · rw [if_pos hc] at hreading
    have hne : s.current ≠ [] := by
      obtain ⟨before, complete, after, heq, -⟩ := hreading
      simp [heq]
    rw [if_pos ⟨hc, .inr (.inr hne)⟩]
    refine ⟨turns ++ [s.current], [], ⟨?_, ?_, nofun, ?_⟩, h.stored.store h.flags⟩
    · simp [← h.append]
    · intro turn hturn
      rcases List.mem_append.1 hturn with hturn | hturn
      · exact h.finished turn hturn
      · rw [List.mem_singleton.1 hturn]
        exact hreading
    · intro turn hturn f hf
      rw [List.tail_append_of_ne_nil (by simp)] at hturn
      rcases List.mem_append.1 hturn with hturn | hturn
      · exact h.starts turn hturn f hf
      · rw [List.mem_singleton.1 hturn] at hf
        cases hf
  · rw [if_neg hc] at hreading
    rw [if_neg (fun h => hc h.1)]
    exact ⟨turns, s.current, ⟨h.append, h.finished, hreading, h.starts⟩, h.stored⟩

end Loading

/-- The turns the fixtures hold, out of all turns of a recording. -/
structure Fixtures.Holds (f : Fixtures) (turns : List (List Value)) : Prop where
  plain : f.scenarios .plain = (turns.filter (kindOf · = .plain)).head?
  clarify : f.scenarios .clarify = (turns.filter (kindOf · = .clarify)).getLast?
  tool : f.scenarios .tool = (turns.filter (kindOf · = .tool)).getLast?
  slow : match f.scenarios .slow with
    | none => turns.filter (kindOf · = .plain) = []
    | some slow => slow ∈ turns.filter (kindOf · = .plain) ∧
        ∀ turn ∈ turns.filter (kindOf · = .plain), turn.length ≤ slow.length

theorem Loading.Stored.finish {s : Loading} {turns : List (List Value)}
    (h : Stored (if s.complete ∧ (s.hasClarify ∨ s.hasTool ∨ s.current ≠ []) then s.store else s) turns) :
    s.finish.Holds turns := by
  unfold Loading.finish
  generalize (if s.complete ∧ (s.hasClarify ∨ s.hasTool ∨ s.current ≠ []) then s.store else s) = t at h
  obtain ⟨hplain, hclarify, htool, hno⟩ := h
  dsimp only
  rw [hplain]
  rcases hplains : turns.filter (kindOf · = .plain) with _ | ⟨first, others⟩
  · constructor <;> simp [maxByKey, hplains, hclarify, htool, hno]
  · cases hbest : maxByKey List.length (first :: others) with
    | none => cases maxByKey_eq_none hbest
    | some best =>
      have hmem := maxByKey_mem hbest
      constructor <;> simp_all [Scenarios.insert]

/-- The recording is cut into its finished turns, and the fixtures hold the first and the longest plain one and the
last ones of the other kinds. -/
theorem loaded_cut [JsonReader] (lines : List String) :
    ∃ turns rest, Cut (recorded lines) turns rest ∧ (Fixtures.load lines).Holds turns := by
  obtain ⟨turns, h⟩ := Loading.seen_lines lines
  obtain ⟨turns', rest, hcut, hstored⟩ := h.last
  exact ⟨turns', rest, hcut, hstored.finish⟩

theorem load_sessionInfo [JsonReader] (lines : List String) :
    (Fixtures.load lines).sessionInfo = (recorded lines).find? fun f => typeOf f = some "session.info" := by
  obtain ⟨turns, h⟩ := Loading.seen_lines lines
  rw [← h.sessionInfo]
  unfold Fixtures.load Loading.finish
  dsimp only
  split
  · exact Loading.store_sessionInfo _
  · rfl

/-- What a turn is made of, before the closing frame. -/
theorem turnFrames_eq {f : Fixtures} {turns : List (List Value)} (h : f.Holds turns) (kind : TurnKind)
    (hplain : (f.scenarios .plain).isSome)
    (hkind : kind = .tool ∨ (kind = .clarify ∧ f.clarifyFrame = none) → (f.scenarios kind).isSome) :
    ∃ front, ∃ turn ∈ turns, f.turnFrames kind = front ++ turn ∧ front.length ≤ 1 := by
  obtain ⟨plain, heq⟩ := Option.isSome_iff_exists.1 hplain
  have hmem : plain ∈ turns := List.mem_of_mem_filter (List.mem_of_mem_head? (h.plain ▸ heq))
  have hframes : f.plainFrames = plain := by
    unfold Fixtures.plainFrames
    rw [heq]
    rfl
  have hlast {turn : List Value} {k : TurnKind} (hlast : (turns.filter (kindOf · = k)).getLast? = some turn) :
      turn ∈ turns := List.mem_of_mem_filter (List.mem_of_getLast? hlast)
  cases kind with
  | plain => exact ⟨[], plain, hmem, hframes, Nat.zero_le _⟩
  | slow =>
    have hslow := h.slow
    unfold Fixtures.turnFrames
    cases hs : f.scenarios .slow with
    | none => exact ⟨[], plain, hmem, hframes, Nat.zero_le _⟩
    | some slow =>
      rw [hs] at hslow
      exact ⟨[], slow, List.mem_of_mem_filter hslow.1, rfl, Nat.zero_le _⟩
  | tool =>
    obtain ⟨tool, ht⟩ := Option.isSome_iff_exists.1 (hkind (.inl rfl))
    refine ⟨[], tool, hlast (h.tool ▸ ht), ?_, Nat.zero_le _⟩
    simp [Fixtures.turnFrames, ht]
  | clarify =>
    unfold Fixtures.turnFrames
    cases hframe : f.clarifyFrame with
    | none =>
      obtain ⟨clarify, hc⟩ := Option.isSome_iff_exists.1 (hkind (.inr ⟨rfl, hframe⟩))
      exact ⟨[], clarify, hlast (h.clarify ▸ hc), by simp [hc], Nat.zero_le _⟩
    | some frame => exact ⟨[frame], plain, hmem, by simp [hframes], Nat.le_refl _⟩
  | approval =>
    refine ⟨f.approvalFrame.toList, plain, hmem, by simp [Fixtures.turnFrames, hframes], ?_⟩
    cases f.approvalFrame <;> simp

section

attribute [local instance] JsonReader.compact

/-- A plain turn and the start of another one. -/
private def shortRecording : List String :=
  ["\x7b\"method\":\"event\",\"params\":\x7b\"type\":\"message.start\"\x7d\x7d",
    "\x7b\"method\":\"event\",\"params\":\x7b\"type\":\"message.complete\"\x7d\x7d",
    "\x7b\"method\":\"event\",\"params\":\x7b\"type\":\"session.info\"\x7d\x7d",
    "\x7b\"method\":\"event\",\"params\":\x7b\"type\":\"message.start\"\x7d\x7d"]

end

end Hermo.FakeGateway
