import Hermo.Library.Splitting
import Hermo.Transcript.MarkdownLaws

/-!
# The splitter of the Android app

`MarkdownBlocks.split` restates the rules of `split_blocks`, "so the UI can split text for rendering"
(`MarkdownBlocks.kt`).  It differs in what ends a line (`lines_eq`) and in what is white space.
-/

namespace Hermo.Markdown.Android

open Splitting

/-- The data class `MarkdownBlock`. -/
structure Block where
  language : String := ""
  text : String
  isFence : Bool := false
  isOpen : Bool := false
  deriving DecidableEq, Repr

/-- `Char.isWhitespace`: U+0085 is none, U+001C to U+001F are. -/
def isWhitespace (c : Char) : Bool :=
  let n := c.toNat
  (9 ≤ n && n ≤ 13) || (0x1C ≤ n && n ≤ 0x20) || n == 0xA0 || n == 0x1680 || (0x2000 ≤ n && n ≤ 0x200A) ||
    n == 0x2028 || n == 0x2029 || n == 0x202F || n == 0x205F || n == 0x3000

/-- A line ends at `\r\n`, `\n` or `\r`; what stands behind the last end is a line as well. -/
def splitLines : List Char → List (List Char)
  | [] => [[]]
  | '\r' :: '\n' :: rest => [] :: splitLines rest
  | c :: rest => if c = '\n' ∨ c = '\r' then [] :: splitLines rest else (splitLines rest).modifyHead (c :: ·)

/-- `lines`. -/
def lines (text : String) : List String := (splitLines text.toList).map String.ofList

/-- The variables of the loop. -/
structure Splitter where
  blocks : List Block := []
  current : Option String := none
  currentLanguage : String := ""
  currentIsFence : Bool := false
  isOpen : Bool := false
  fence : Fence := {}

namespace Splitter

def flush (s : Splitter) : Splitter :=
  { s with
    blocks := s.blocks ++ (s.current.map fun text =>
      { language := s.currentLanguage, text := text, isFence := s.currentIsFence
        isOpen := s.isOpen && s.currentIsFence }).toList
    current := none }

/-- Inside of a fence there always is a block, see `current_of_fence`. -/
def step (s : Splitter) (line : String) : Splitter :=
  match s.fence.read isWhitespace line with
  | .opens language fence =>
    { s.flush with
      fence := fence, currentLanguage := language, currentIsFence := true, isOpen := true, current := some "" }
  | .closes => { s.flush with fence := {}, currentIsFence := false, isOpen := false, currentLanguage := "" }
  | .content =>
    match s.current with
    | some text => { s with current := some (appendLine text line) }
    | none =>
      { s with currentIsFence := false, isOpen := false, currentLanguage := "", current := some (appendLine "" line) }

end Splitter

def split (text : String) : List Block :=
  if text = "" then [] else ((lines text).foldl Splitter.step {}).flush.blocks

/-- A fence that was closed is open. -/
example : split "a\r\n\x60\x60\x60kt\r\nfun\r\n\x60\x60\x60" =
    [{ text := "a" }, { language := "kt", text := "fun", isFence := true, isOpen := true }] := by decide

/-! ### The current block -/

namespace Splitter

theorem step_current (s : Splitter) (line : String) : (s.step line).fence ≠ {} → (s.step line).current.isSome := by
  unfold step
  cases s.fence.read isWhitespace line with
  | opens language fence => exact fun _ => rfl
  | closes => exact fun hne => absurd rfl hne
  | content =>
    cases s.current with
    | none => exact fun _ => rfl
    | some text => exact fun _ => rfl

/-- The `current!!` of the source never fails. -/
theorem current_of_fence (lines : List String) :
    (lines.foldl step {}).fence ≠ {} → (lines.foldl step {}).current.isSome := by
  induction lines using List.reverseRecOn with
  | nil => exact fun hne => absurd rfl hne
  | append_singleton lines line =>
    rw [List.foldl_append]
    exact step_current _ line

end Splitter

/-! ### Lines -/

theorem splitLines_cons {c : Char} {rest : List Char} (h : ¬ (c = '\r' ∧ rest.head? = some '\n')) :
    splitLines (c :: rest) =
      if c = '\n' ∨ c = '\r' then [] :: splitLines rest else (splitLines rest).modifyHead (c :: ·) := by
  rw [splitLines]
  rintro tail rfl rfl
  exact h ⟨rfl, rfl⟩

theorem splitLines_of_not_mem {line : List Char} (h : '\n' ∉ line) : splitLines line = line.splitOn '\r' := by
  induction line with
  | nil => rfl
  | cons c line ih =>
    have hc : c ≠ '\n' := fun hc => h (hc ▸ List.mem_cons_self)
    have hline : '\n' ∉ line := fun hmem => h (List.mem_cons_of_mem c hmem)
    have hhead : ¬ (c = '\r' ∧ line.head? = some '\n') := fun hhead => hline (List.mem_of_mem_head? hhead.2)
    rw [splitLines_cons hhead, List.splitOn_cons_eq_if_modifyHead, ih hline]
    simp only [hc, false_or, beq_iff_eq]

theorem stripCr_cons (c : Char) {line : List Char} (h : line ≠ []) : stripCr (c :: line) = c :: stripCr line := by
  unfold stripCr
  rw [List.getLast?_cons_of_ne_nil h, List.dropLast_cons_of_ne_nil h]
  split <;> rfl

theorem splitLines_append {line : List Char} (h : '\n' ∉ line) (rest : List Char) :
    splitLines (line ++ '\n' :: rest) = (stripCr line).splitOn '\r' ++ splitLines rest := by
  induction line with
  | nil => rfl
  | cons c line ih =>
    have hc : c ≠ '\n' := fun hc => h (hc ▸ List.mem_cons_self)
    have hline : '\n' ∉ line := fun hmem => h (List.mem_cons_of_mem c hmem)
    by_cases hnil : line = []
    · subst hnil
      by_cases hcr : c = '\r'
      · subst hcr
        rfl
      · have hstrip : stripCr [c] = [c] := if_neg fun hlast => hcr (Option.some_inj.1 hlast)
        have hhead : ¬ (c = '\r' ∧ ('\n' :: rest).head? = some '\n') := fun hhead => hcr hhead.1
        rw [List.cons_append, List.nil_append, splitLines_cons hhead, if_neg (not_or.2 ⟨hc, hcr⟩), hstrip,
          List.splitOn_eq_singleton fun hmem => hcr (List.mem_singleton.1 hmem).symm]
        rfl
    · have hhead : ¬ (c = '\r' ∧ (line ++ '\n' :: rest).head? = some '\n') := by
        rintro ⟨-, hhead⟩
        rw [List.head?_append_of_ne_nil _ hnil] at hhead
        exact hline (List.mem_of_mem_head? hhead)
      rw [List.cons_append, splitLines_cons hhead, ih hline, stripCr_cons c hnil, List.splitOn_cons_eq_if_modifyHead]
      simp only [hc, false_or, beq_iff_eq]
      split
      · rfl
      · exact modifyHead_append _ (List.splitOn_ne_nil _ _) _

/-- The first line of the core. -/
theorem core_lines_append {line : List Char} (h : '\n' ∉ line) (rest : List Char) :
    Markdown.lines (String.ofList (line ++ '\n' :: rest)) =
      String.ofList (stripCr line) :: Markdown.lines (String.ofList rest) := by
  have happend : String.ofList (line ++ '\n' :: rest) = String.ofList line ++ "\n" ++ String.ofList rest := by
    rw [← List.singleton_append, ← List.append_assoc, String.ofList_append, String.ofList_append]
  rw [happend, lines_append_newline, String.toList_ofList, List.splitOn_eq_singleton h]
  rfl

theorem core_lines_of_not_mem {line : List Char} (h : '\n' ∉ line) :
    Markdown.lines (String.ofList line) = if line = [] then [] else [String.ofList line] := by
  unfold Markdown.lines
  rw [String.toList_ofList, List.splitOn_eq_singleton h]
  change (if line = [] then [] else [line]).map String.ofList = _
  split <;> rfl

/-- The lines of the app within a line of the core. -/
def pieces (line : String) : List String := (line.toList.splitOn '\r').map String.ofList

theorem splitLines_eq (text : List Char) :
    (splitLines text).map String.ofList = (Markdown.lines (String.ofList text)).flatMap pieces ++
      if text = [] ∨ text.getLast? = some '\n' then [""] else [] := by
  induction hlength : text.length using Nat.strong_induction_on generalizing text with
  | _ n ih =>
    by_cases hmem : '\n' ∈ text
    · obtain ⟨line, rest, rfl, hline⟩ := List.eq_append_cons_of_mem hmem
      have hshorter : rest.length < n := by
        rw [← hlength, List.length_append, List.length_cons]
        omega
      have hends : (line ++ '\n' :: rest = [] ∨ (line ++ '\n' :: rest).getLast? = some '\n') ↔
          (rest = [] ∨ rest.getLast? = some '\n') := by
        cases rest with
        | nil => simp
        | cons c rest => simp
      rw [splitLines_append hline, core_lines_append hline, List.map_append, ih _ hshorter rest rfl, List.flatMap_cons,
        List.append_assoc, if_congr hends rfl rfl]
      unfold pieces
      rw [String.toList_ofList]
    · have hlast : text.getLast? ≠ some '\n' := fun hlast => hmem (List.mem_of_getLast? hlast)
      rw [splitLines_of_not_mem hmem, core_lines_of_not_mem hmem]
      by_cases hnil : text = []
      · subst hnil
        rfl
      · rw [if_neg hnil, if_neg (not_or.2 ⟨hnil, hlast⟩), List.append_nil, List.flatMap_singleton]
        unfold pieces
        rw [String.toList_ofList]

/-- The app also ends a line at a `\r` of its own, and has one line more where the text ends with a newline. -/
theorem lines_eq (text : String) :
    lines text = (Markdown.lines text).flatMap pieces ++
      if text = "" ∨ text.toList.getLast? = some '\n' then [""] else [] := by
  have hlines := splitLines_eq text.toList
  rw [String.ofList_toList] at hlines
  unfold lines
  rw [hlines]
  simp only [String.toList_eq_nil_iff]

end Hermo.Markdown.Android
