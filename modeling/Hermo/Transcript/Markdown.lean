import Mathlib.Data.List.DropRight

/-!
# Markdown blocks

`split_blocks` cuts the text of an assistant row into fenced code and plain text, line by line
(`transcript/markdown.rs`).  `Fence.read` is what the loop makes of a line before it touches a block; the app's own
splitter reads lines the same way, but has another notion of white space.
-/

namespace Hermo.Markdown

/-- One block; `isOpen` until the fence that opened it is closed. -/
structure MarkdownBlock where
  language : String
  text : String
  isOpen : Bool
  deriving DecidableEq, Repr

/-! ### Lines -/

/-- The Unicode property `White_Space`. -/
def isWhiteSpace (c : Char) : Bool :=
  let n := c.toNat
  (9 ≤ n && n ≤ 13) || n == 0x20 || n == 0x85 || n == 0xA0 || n == 0x1680 || (0x2000 ≤ n && n ≤ 0x200A) ||
    n == 0x2028 || n == 0x2029 || n == 0x202F || n == 0x205F || n == 0x3000

/-- `trim`, for a notion of white space. -/
def trim (white : Char → Bool) (line : List Char) : List Char := (line.dropWhile white).rdropWhile white

/-- A line that ended in `\n`, without the `\r` that may stand before it. -/
def stripCr (line : List Char) : List Char := if line.getLast? = some '\r' then line.dropLast else line

/-- `str::lines`: what stands behind the last newline is a line when it is not empty. -/
def lines (text : String) : List String :=
  let segments := text.toList.splitOn '\n'
  let rest := segments.getLastD []
  (segments.dropLast.map stripCr ++ if rest = [] then [] else [rest]).map String.ofList

/-! ### Fences -/

/-- `MIN_FENCE`. -/
def minFence : Nat := 3

def tick : Char := '\x60'

/-- `fence_marker`: the length of the run, and whether it is of backticks. -/
def fenceMarker (line : List Char) : Option (Nat × Bool) :=
  let ticks := (line.takeWhile (· == tick)).length
  if minFence ≤ ticks then
    if tick ∈ line.drop ticks then none else some (ticks, true)
  else
    let tildes := (line.takeWhile (· == '~')).length
    if minFence ≤ tildes then
      if '~' ∈ line.drop tildes then none else some (tildes, false)
    else none

/-- The lengths of the run that opened the fence; both are zero outside of one. -/
structure Fence where
  ticks : Nat := 0
  tildes : Nat := 0
  deriving DecidableEq, Repr

/-- What the loop makes of a line. -/
inductive Reading where
  | opens (language : String) (fence : Fence)
  | closes
  | content
  deriving DecidableEq, Repr

def Fence.read (fence : Fence) (white : Char → Bool) (line : String) : Reading :=
  let trimmed := trim white line.toList
  match fenceMarker trimmed with
  | none => .content
  | some (len, isTick) =>
    if fence.ticks = 0 ∧ fence.tildes = 0 then
      .opens (String.ofList (trim white (trimmed.drop len))) (if isTick then ⟨len, 0⟩ else ⟨0, len⟩)
    else if isTick = true ∧ 0 < fence.ticks ∧ fence.ticks ≤ len ∨ isTick = false ∧ 0 < fence.tildes ∧ fence.tildes ≤ len
    then .closes
    else .content

/-! ### The loop -/

/-- The separator rule: a newline goes before a line unless the text is still empty. -/
def appendLine (text line : String) : String := if text = "" then line else text ++ "\n" ++ line

/-- The variables of the loop. -/
structure Splitter where
  blocks : List MarkdownBlock := []
  current : Option MarkdownBlock := none
  fence : Fence := {}

namespace Splitter

def step (s : Splitter) (line : String) : Splitter :=
  match s.fence.read isWhiteSpace line with
  | .opens language fence => ⟨s.blocks ++ s.current.toList, some ⟨language, "", true⟩, fence⟩
  | .closes => ⟨s.blocks ++ (s.current.map fun block => { block with isOpen := false }).toList, none, {}⟩
  | .content =>
    match s.current with
    | some block => { s with current := some { block with text := appendLine block.text line } }
    | none => { s with current := some ⟨"", line, true⟩ }

theorem step_opens {s : Splitter} {line language : String} {fence : Fence}
    (h : s.fence.read isWhiteSpace line = .opens language fence) :
    s.step line = ⟨s.blocks ++ s.current.toList, some ⟨language, "", true⟩, fence⟩ := by
  unfold step
  rw [h]

theorem step_closes {s : Splitter} {line : String} (h : s.fence.read isWhiteSpace line = .closes) :
    s.step line = ⟨s.blocks ++ (s.current.map fun block => { block with isOpen := false }).toList, none, {}⟩ := by
  unfold step
  rw [h]

/-- A first line is appended to an empty text. -/
theorem step_content {s : Splitter} {line : String} (h : s.fence.read isWhiteSpace line = .content) :
    s.step line =
      let block := s.current.getD ⟨"", "", true⟩
      { s with current := some { block with text := appendLine block.text line } } := by
  unfold step
  rw [h]
  cases s.current with
  | none => rfl
  | some block => rfl

/-- The blocks, with the one the loop ended in. -/
def finish (s : Splitter) : List MarkdownBlock := s.blocks ++ s.current.toList

end Splitter

def splitBlocks (text : String) : List MarkdownBlock := ((lines text).foldl Splitter.step {}).finish

example : splitBlocks "before\n\x60\x60\x60rust\nfn\n\x60\x60\x60\nafter" =
    [⟨"", "before", true⟩, ⟨"rust", "fn", false⟩, ⟨"", "after", true⟩] := by decide

end Hermo.Markdown
