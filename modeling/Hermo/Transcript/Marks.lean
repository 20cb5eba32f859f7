import Mathlib.Algebra.GroupWithZero.Nat
import Hermo.Library.Splitting
import Hermo.Transcript.MarkdownLaws

/-!
# Marks

A splitter reads each line as a mark, and the marks alone decide which blocks are shown.  Of two runs over different
marks `weight`, `languages` and `tally` tell whether they can end in the same blocks.
-/

namespace Hermo.Markdown

open Splitting

/-- What a splitter makes of a line, without the fence. -/
inductive Mark where
  | opens (language : String)
  | closes
  | content (line : String)
  deriving DecidableEq, Repr

/-- The marks of the lines, for a notion of white space. -/
def marks (white : Char → Bool) : Fence → List String → List Mark
  | _, [] => []
  | fence, line :: lines =>
    match fence.read white line with
    | .opens language fence' => .opens language :: marks white fence' lines
    | .closes => .closes :: marks white {} lines
    | .content => .content line :: marks white fence lines

section

variable {white : Char → Bool} {fence fence' : Fence} {line language : String}

theorem marks_opens (h : fence.read white line = .opens language fence') (lines : List String) :
    marks white fence (line :: lines) = .opens language :: marks white fence' lines := by
  rw [marks, h]

theorem marks_closes (h : fence.read white line = .closes) (lines : List String) :
    marks white fence (line :: lines) = .closes :: marks white {} lines := by
  rw [marks, h]

theorem marks_content (h : fence.read white line = .content) (lines : List String) :
    marks white fence (line :: lines) = .content line :: marks white fence lines := by
  rw [marks, h]

/-- The line is a fence line, for some fence. -/
def fenceLine (white : Char → Bool) (line : String) : Bool := (fenceMarker (trim white line.toList)).isSome

theorem read_of_not_fenceLine (h : fenceLine white line = false) : fence.read white line = .content := by
  have hnone : fenceMarker (trim white line.toList) = none := Option.not_isSome_iff_eq_none.1 (Bool.eq_false_iff.1 h)
  unfold Fence.read
  dsimp only
  rw [hnone]

theorem read_empty : fence.read white "" = .content := rfl

theorem marks_blanks (n : Nat) (lines : List String) :
    marks white fence (List.replicate n "" ++ lines) =
      List.replicate n (.content "") ++ marks white fence lines := by
  induction n with
  | zero => rfl
  | succ n ih => rw [List.replicate_succ, List.cons_append, marks_content read_empty, ih, List.replicate_succ,
      List.cons_append]

end

/-! ### The blocks shown -/

/-- Language and text of the blocks so far, and of the one at hand. -/
structure Shown where
  blocks : List (String × String) := []
  current : Option (String × String) := none

namespace Shown

def step (s : Shown) : Mark → Shown
  | .opens language => ⟨s.blocks ++ s.current.toList, some (language, "")⟩
  | .closes => ⟨s.blocks ++ s.current.toList, none⟩
  | .content line =>
    let block := s.current.getD ("", "")
    ⟨s.blocks, some (block.1, appendLine block.2 line)⟩

def run (s : Shown) (marks : List Mark) : Shown := marks.foldl step s

def finish (s : Shown) : List (String × String) := s.blocks ++ s.current.toList

theorem run_cons (s : Shown) (m : Mark) (marks : List Mark) : s.run (m :: marks) = (s.step m).run marks := rfl

theorem run_append (s : Shown) (first second : List Mark) : s.run (first ++ second) = (s.run first).run second :=
  List.foldl_append

theorem finish_opens (s : Shown) (language : String) :
    (s.step (.opens language)).finish = s.finish ++ [(language, "")] := rfl

theorem finish_closes (s : Shown) : (s.step .closes).finish = s.finish := List.append_nil _

theorem finish_content_none {s : Shown} (h : s.current = none) (line : String) :
    (s.step (.content line)).finish = s.finish ++ [("", line)] := by
  have hfirst : appendLine "" line = line := if_pos rfl
  unfold step finish
  dsimp only
  rw [h, Option.getD_none, hfirst, Option.toList_none, List.append_nil, Option.toList_some]

theorem finish_content_some {s : Shown} {b : String × String} (h : s.current = some b) (line : String) :
    s.finish = s.blocks ++ [b] ∧ (s.step (.content line)).finish = s.blocks ++ [(b.1, appendLine b.2 line)] := by
  obtain ⟨blocks, current⟩ := s
  subst h
  exact ⟨rfl, rfl⟩

/-! The languages -/

def languages (s : Shown) : List String := s.finish.map (·.1)

theorem languages_opens (s : Shown) (language : String) :
    (s.step (.opens language)).languages = s.languages ++ [language] := by
  unfold languages
  rw [finish_opens, List.map_append, List.map_singleton]

theorem languages_step (s : Shown) (m : Mark) : s.languages <+: (s.step m).languages := by
  have hmore : ∃ more, (s.step m).languages = s.languages ++ more := by
    cases m with
    | opens language => exact ⟨[language], languages_opens s language⟩
    | closes => exact ⟨[], by unfold languages; rw [finish_closes, List.append_nil]⟩
    | content line =>
      unfold languages
      cases hcurrent : s.current with
      | none => exact ⟨[""], by rw [finish_content_none hcurrent, List.map_append, List.map_singleton]⟩
      | some b =>
        obtain ⟨hbefore, hafter⟩ := finish_content_some hcurrent line
        refine ⟨[], ?_⟩
        rw [hbefore, hafter, List.map_append, List.map_append, List.map_singleton, List.map_singleton, List.append_nil]
  obtain ⟨more, hmore⟩ := hmore
  exact ⟨more, hmore.symm⟩

theorem languages_run (s : Shown) (marks : List Mark) : s.languages <+: (s.run marks).languages := by
  induction marks generalizing s with
  | nil => exact List.prefix_refl _
  | cons m marks ih => exact (s.languages_step m).trans (ih _)

/-! The amount of text -/

/-- The blocks and the characters shown. -/
def weight (s : Shown) : Nat := (s.finish.map fun b => b.2.length + 1).sum

theorem weight_opens (s : Shown) (language : String) : (s.step (.opens language)).weight = s.weight + 1 := by
  unfold weight
  rw [finish_opens, List.map_append, List.sum_append]
  rfl

theorem weight_closes (s : Shown) : (s.step .closes).weight = s.weight := by
  unfold weight
  rw [finish_closes]

theorem weight_content_none {s : Shown} (h : s.current = none) (line : String) :
    (s.step (.content line)).weight = s.weight + (line.length + 1) := by
  unfold weight
  rw [finish_content_none h, List.map_append, List.sum_append]
  rfl

theorem length_appendLine (text line : String) :
    (appendLine text line).length = text.length + line.length + if text = "" then 0 else 1 := by
  unfold appendLine
  split
  · rename_i h
    rw [h]
    exact (Nat.zero_add _).symm
  · rw [String.length_append, String.length_append]
    exact Nat.add_right_comm _ _ _

theorem weight_content_some {s : Shown} {b : String × String} (h : s.current = some b) (line : String) :
    (s.step (.content line)).weight = s.weight + line.length + if b.2 = "" then 0 else 1 := by
  obtain ⟨hbefore, hafter⟩ := finish_content_some h line
  unfold weight
  rw [hbefore, hafter, List.map_append, List.map_append, List.sum_append, List.sum_append]
  simp only [List.map_cons, List.map_nil, List.sum_cons, List.sum_nil, length_appendLine]
  omega

/-! The lines -/

/-- How often the line is in the texts shown. -/
def tally (s : Shown) (line : String) : Nat :=
  (s.finish.map fun b => (b.2.toList.splitOn '\n').count line.toList).sum

theorem count_empty {line : String} (h : line ≠ "") : (("" : String).toList.splitOn '\n').count line.toList = 0 := by
  rw [String.toList_empty, List.splitOn_nil, List.count_eq_zero, List.mem_singleton]
  exact fun hnil => h (String.toList_eq_nil_iff.1 hnil)

theorem count_appendLine {line added : String} (h : line ≠ "") (hadded : '\n' ∉ added.toList) (text : String) :
    ((appendLine text added).toList.splitOn '\n').count line.toList =
      (text.toList.splitOn '\n').count line.toList + [added].count line := by
  have hone : (added.toList.splitOn '\n').count line.toList = [added].count line := by
    rw [List.splitOn_eq_singleton hadded, List.count_singleton, List.count_singleton]
    simp only [beq_iff_eq, String.toList_inj]
  unfold appendLine
  split
  · rename_i htext
    rw [htext, count_empty h, hone, Nat.zero_add]
  · rw [String.toList_append, String.toList_append, List.append_assoc]
    change ((text.toList ++ '\n' :: added.toList).splitOn '\n').count line.toList = _
    rw [List.splitOn_append_cons_self, List.count_append, hone]

end Shown

def Mark.line? : Mark → Option String
  | .content line => some line
  | _ => none

/-- The lines that are no fence lines. -/
def contents (marks : List Mark) : List String := marks.filterMap Mark.line?

theorem contents_append (first second : List Mark) : contents (first ++ second) = contents first ++ contents second :=
  List.filterMap_append

section

variable (white : Char → Bool)

/-- A fence line adds nothing. -/
theorem contents_marks_cons (fence : Fence) (line : String) (lines : List String) :
    ∃ fence', contents (marks white fence (line :: lines)) =
      (if fence.read white line = .content then [line] else []) ++ contents (marks white fence' lines) := by
  cases hread : fence.read white line with
  | opens language fence' => exact ⟨fence', by rw [marks_opens hread, if_neg nofun]; rfl⟩
  | closes => exact ⟨{}, by rw [marks_closes hread, if_neg nofun]; rfl⟩
  | content => exact ⟨fence, by rw [marks_content hread, if_pos rfl]; rfl⟩

theorem contents_marks_sublist (fence : Fence) (lines : List String) :
    (contents (marks white fence lines)).Sublist lines := by
  induction lines generalizing fence with
  | nil => exact List.Sublist.slnil
  | cons line lines ih =>
    obtain ⟨fence', hcons⟩ := contents_marks_cons white fence line lines
    rw [hcons]
    split
    · exact (ih fence').cons_cons line
    · exact (ih fence').cons line

end

/-- A line that is no fence line is content wherever it stands. -/
theorem count_contents {white : Char → Bool} {line : String} (h : fenceLine white line = false) (fence : Fence)
    (lines : List String) :
    (contents (marks white fence lines)).count line = lines.count line := by
  induction lines generalizing fence with
  | nil => rfl
  | cons first lines ih =>
    obtain ⟨fence', hcons⟩ := contents_marks_cons white fence first lines
    rw [hcons, List.count_append, ih fence', count_first]
    split
    · rfl
    · rename_i hread
      have hne : first ≠ line := fun heq => hread (heq ▸ read_of_not_fenceLine h)
      rw [List.count_singleton, if_neg fun heq => hne (beq_iff_eq.1 heq), List.count_nil]

namespace Shown

theorem tally_step {line : String} (h : line ≠ "") (s : Shown) {m : Mark}
    (hm : ∀ added, m.line? = some added → '\n' ∉ added.toList) :
    (s.step m).tally line = s.tally line + (contents [m]).count line := by
  unfold tally
  cases m with
  | opens language =>
    rw [finish_opens, List.map_append, List.sum_append, List.map_singleton, List.sum_singleton, count_empty h]
    rfl
  | closes =>
    rw [finish_closes]
    rfl
  | content added =>
    have hadded := hm added rfl
    have hcontents : contents [.content added] = [added] := rfl
    rw [hcontents]
    cases hcurrent : s.current with
    | none =>
      have hblock := count_appendLine h hadded ""
      have hfirst : appendLine "" added = added := if_pos rfl
      rw [hfirst, count_empty h, Nat.zero_add] at hblock
      rw [finish_content_none hcurrent, List.map_append, List.sum_append, List.map_singleton, List.sum_singleton,
        hblock]
    | some b =>
      obtain ⟨hbefore, hafter⟩ := finish_content_some hcurrent added
      rw [hbefore, hafter, List.map_append, List.map_append, List.sum_append, List.sum_append, List.map_singleton,
        List.map_singleton, List.sum_singleton, List.sum_singleton, count_appendLine h hadded, Nat.add_assoc]

/-- The texts shown hold each line that is not blank as often as it was read as content. -/
theorem tally_run {line : String} (h : line ≠ "") (s : Shown) (marks : List Mark)
    (hmarks : ∀ added ∈ contents marks, '\n' ∉ added.toList) :
    (s.run marks).tally line = s.tally line + (contents marks).count line := by
  induction marks generalizing s with
  | nil => rfl
  | cons m marks ih =>
    have hsplit : contents (m :: marks) = contents [m] ++ contents marks := contents_append [m] marks
    rw [hsplit, List.forall_mem_append] at hmarks
    have hm : ∀ added, m.line? = some added → '\n' ∉ added.toList := by
      intro added hadded
      exact hmarks.1 added (List.mem_filterMap.2 ⟨m, List.mem_singleton_self m, hadded⟩)
    rw [hsplit, List.count_append, ← Nat.add_assoc, ← tally_step h s hm]
    exact ih (s.step m) hmarks.2

end Shown

/-! ### The core -/

def MarkdownBlock.shown (b : MarkdownBlock) : String × String := (b.language, b.text)

def Splitter.shown (s : Splitter) : Shown := ⟨s.blocks.map MarkdownBlock.shown, s.current.map MarkdownBlock.shown⟩

theorem Splitter.finish_shown (s : Splitter) : s.finish.map MarkdownBlock.shown = s.shown.finish := by
  unfold finish Splitter.shown Shown.finish
  rw [List.map_append, ← Option.toList_map]

theorem Splitter.step_shown (s : Splitter) (line : String) (lines : List String) :
    s.shown.run (marks isWhiteSpace s.fence (line :: lines)) =
      (s.step line).shown.run (marks isWhiteSpace (s.step line).fence lines) := by
  have hmap : (s.blocks ++ s.current.toList).map MarkdownBlock.shown = s.shown.blocks ++ s.shown.current.toList :=
    s.finish_shown
  cases hread : s.fence.read isWhiteSpace line with
  | opens language fence =>
    rw [marks_opens hread, step_opens hread]
    unfold Splitter.shown
    rw [hmap]
    rfl
  | closes =>
    -- closing a block changes neither its language nor its text
    have hclosed : (s.blocks ++ (s.current.map fun b : MarkdownBlock => { b with isOpen := false }).toList).map
        MarkdownBlock.shown = (s.blocks ++ s.current.toList).map MarkdownBlock.shown := by
      rw [List.map_append, List.map_append]
      cases s.current <;> rfl
    rw [marks_closes hread, step_closes hread]
    unfold Splitter.shown
    rw [hclosed, hmap]
    rfl
  | content =>
    rw [marks_content hread, step_content hread]
    unfold Splitter.shown
    cases s.current <;> rfl

theorem Splitter.run_shown (s : Splitter) (lines : List String) :
    (lines.foldl step s).shown = s.shown.run (marks isWhiteSpace s.fence lines) := by
  induction lines generalizing s with
  | nil => rfl
  | cons line lines ih => rw [List.foldl_cons, ih, ← step_shown]

theorem splitBlocks_shown (text : String) :
    (splitBlocks text).map MarkdownBlock.shown = (Shown.run {} (marks isWhiteSpace {} (lines text))).finish := by
  unfold splitBlocks
  rw [Splitter.finish_shown, Splitter.run_shown]
  rfl

end Hermo.Markdown
