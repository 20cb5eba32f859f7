import Hermo.Transcript.Markdown

/-!
# Streaming and content of the blocks

While a text streams in, the blocks that were shown stay as they are, and only the last one goes on
(`splitBlocks_stable`).  The text of a block is put together from its lines, but a block that starts with a blank line
loses it when another line follows (`splitBlocks_content`).
-/

namespace Hermo.Markdown

/-! ### A text that streams in -/

/-- The lines before a newline, and those behind it. -/
theorem lines_append_newline (s u : String) :
    lines (s ++ "\n" ++ u) = ((s.toList.splitOn '\n').map stripCr).map String.ofList ++ lines u := by
  have hsplit : (s ++ "\n" ++ u).toList.splitOn '\n' = s.toList.splitOn '\n' ++ u.toList.splitOn '\n' := by
    rw [String.toList_append, String.toList_append, List.append_assoc]
    exact List.splitOnP_append_cons s.toList u.toList (beq_self_eq_true '\n')
  have hne : u.toList.splitOn '\n' ≠ [] := List.splitOn_ne_nil _ _
  have hlast : (s.toList.splitOn '\n' ++ u.toList.splitOn '\n').getLastD [] = (u.toList.splitOn '\n').getLastD [] := by
    rw [List.getLastD_eq_getLast?, List.getLast?_append_of_ne_nil _ hne, List.getLastD_eq_getLast?]
  unfold lines
  dsimp only
  rw [hsplit, hlast, List.dropLast_append_of_ne_nil hne]
  simp only [List.map_append, List.append_assoc]

/-- Complete lines do not depend on what follows. -/
theorem lines_append {t : String} (h : t = "" ∨ ∃ s, t = s ++ "\n") (u : String) :
    lines (t ++ u) = lines t ++ lines u := by
  rcases h with rfl | ⟨s, rfl⟩
  · rw [String.empty_append]
    rfl
  · have hempty : lines "" = [] := rfl
    have hline := lines_append_newline s ""
    rw [String.append_empty, hempty, List.append_nil] at hline
    rw [lines_append_newline, hline]

/-- `b` shown later: the same block, with more text, perhaps closed. -/
structure MarkdownBlock.Continues (b b' : MarkdownBlock) : Prop where
  language : b'.language = b.language
  text : b.text.toList <+: b'.text.toList
  isOpen : b'.isOpen = true → b.isOpen = true

theorem MarkdownBlock.Continues.refl (b : MarkdownBlock) : b.Continues b := ⟨rfl, List.prefix_refl _, id⟩

theorem MarkdownBlock.Continues.trans {a b c : MarkdownBlock} (h : a.Continues b) (h' : b.Continues c) :
    a.Continues c :=
  ⟨h'.language.trans h.language, h.text.trans h'.text, fun hc => h.isOpen (h'.isOpen hc)⟩

/-- Blocks shown later: all but the last are as they were, and the last one goes on. -/
def Continue (old new : List MarkdownBlock) : Prop :=
  ∀ i b, old[i]? = some b → ∃ b', new[i]? = some b' ∧ (i + 1 < old.length → b' = b) ∧ b.Continues b'

theorem Continue.refl (old : List MarkdownBlock) : Continue old old := fun _ b h => ⟨b, h, fun _ => rfl, .refl b⟩

theorem Continue.trans {a b c : List MarkdownBlock} (h : Continue a b) (h' : Continue b c) : Continue a c := by
  intro i x hx
  obtain ⟨y, hy, hsame, hxy⟩ := h i x hx
  obtain ⟨z, hz, hsame', hyz⟩ := h' i y hy
  refine ⟨z, hz, ?_, hxy.trans hyz⟩
  intro hlt
  -- a block that has a successor now has one in the middle
  have hnext : i + 1 < b.length := by
    obtain ⟨w, hw, -⟩ := h (i + 1) a[i + 1] (List.getElem?_eq_getElem hlt)
    exact (List.getElem?_eq_some_iff.1 hw).1
  rw [hsame' hnext, hsame hlt]

/-- Blocks are added. -/
theorem Continue.append (old more : List MarkdownBlock) : Continue old (old ++ more) := by
  intro i b hb
  have hlt : i < old.length := (List.getElem?_eq_some_iff.1 hb).1
  exact ⟨b, by rw [List.getElem?_append_left hlt, hb], fun _ => rfl, .refl b⟩

/-- The last block goes on, and blocks are added. -/
theorem Continue.last (blocks more : List MarkdownBlock) {b b' : MarkdownBlock} (h : b.Continues b') :
    Continue (blocks ++ [b]) (blocks ++ b' :: more) := by
  intro i x hx
  by_cases hi : i < blocks.length
  · rw [List.getElem?_append_left hi] at hx
    exact ⟨x, by rw [List.getElem?_append_left hi, hx], fun _ => rfl, .refl x⟩
  · have hlt : i < (blocks ++ [b]).length := (List.getElem?_eq_some_iff.1 hx).1
    rw [List.length_append, List.length_singleton] at hlt
    have hi' : i = blocks.length := by omega
    subst hi'
    rw [List.getElem?_append_right (Nat.le_refl _), Nat.sub_self, List.getElem?_cons_zero, Option.some_inj] at hx
    subst hx
    refine ⟨b', ?_, ?_, h⟩
    · rw [List.getElem?_append_right (Nat.le_refl _), Nat.sub_self, List.getElem?_cons_zero]
    · intro hlt'
      rw [List.length_append, List.length_singleton] at hlt'
      omega

theorem prefix_appendLine (text line : String) : text.toList <+: (appendLine text line).toList := by
  unfold appendLine
  split
  · rename_i h
    rw [h]
    exact List.nil_prefix
  · rw [String.toList_append, String.toList_append, List.append_assoc]
    exact List.prefix_append _ _

namespace Splitter

/-- What one line does to the blocks shown. -/
theorem step_continue (s : Splitter) (line : String) : Continue s.finish (s.step line).finish := by
  cases hread : s.fence.read isWhiteSpace line with
  | opens language fence =>
    rw [step_opens hread]
    exact .append _ _
  | closes =>
    rw [step_closes hread]
    unfold finish
    cases s.current with
    | none => exact .append _ _
    | some block =>
      simp only [Option.map_some, Option.toList_some, Option.toList_none, List.append_nil]
      exact .last s.blocks [] ⟨rfl, List.prefix_refl _, nofun⟩
  | content =>
    rw [step_content hread]
    unfold finish
    cases s.current with
    | none =>
      simp only [Option.toList_none, List.append_nil]
      exact .append _ _
    | some block => exact .last s.blocks [] ⟨rfl, prefix_appendLine _ _, id⟩

theorem run_continue (s : Splitter) (lines : List String) : Continue s.finish (lines.foldl step s).finish := by
  induction lines generalizing s with
  | nil => exact .refl _
  | cons line lines ih => exact (s.step_continue line).trans (ih _)

end Splitter

/-- After complete lines, every block but the last is final, and the last one keeps its place and its language, its
text only grows, and it is never opened again. -/
theorem splitBlocks_stable (t u : String) (h : t = "" ∨ ∃ s, t = s ++ "\n") :
    (splitBlocks t).dropLast <+: splitBlocks (t ++ u) ∧
      ∀ b, (splitBlocks t).getLast? = some b →
        ∃ b', (splitBlocks (t ++ u))[(splitBlocks t).length - 1]? = some b' ∧ b'.language = b.language ∧
          b.text.toList <+: b'.text.toList ∧ (b'.isOpen = true → b.isOpen = true) := by
  have hcontinue : Continue (splitBlocks t) (splitBlocks (t ++ u)) := by
    unfold splitBlocks
    rw [lines_append h, List.foldl_append]
    exact Splitter.run_continue _ _
  constructor
  · rw [List.prefix_iff_getElem?]
    intro i hi
    rw [List.length_dropLast] at hi
    obtain ⟨b', hb', hsame, -⟩ := hcontinue i _ (List.getElem?_eq_getElem (by omega))
    rw [hb', hsame (by omega), List.getElem_dropLast]
  · intro b hb
    rw [List.getLast?_eq_getElem?] at hb
    obtain ⟨b', hb', -, hgoes⟩ := hcontinue _ b hb
    exact ⟨b', hb', hgoes.language, hgoes.text, hgoes.isOpen⟩

/-- A fence is closed by what streams in. -/
theorem splitBlocks_stable_fence :
    (splitBlocks "a\n\x60\x60\x60\nb\n").dropLast <+: splitBlocks ("a\n\x60\x60\x60\nb\n" ++ "c\n\x60\x60\x60\n") :=
  (splitBlocks_stable "a\n\x60\x60\x60\nb\n" "c\n\x60\x60\x60\n" (.inr ⟨"a\n\x60\x60\x60\nb", rfl⟩)).1

/-! ### The lines of a block -/

/-- The lines that are neither an opening fence line nor the closing one of an open fence. -/
def contentLines : Fence → List String → List String
  | _, [] => []
  | fence, line :: lines =>
    match fence.read isWhiteSpace line with
    | .opens _ fence' => contentLines fence' lines
    | .closes => contentLines {} lines
    | .content => line :: contentLines fence lines

/-- The same lines, those between two fence lines together; `current` are the last ones so far.  A fence has its lines
even when there are none. -/
def blockLines : Fence → Option (List String) → List String → List (List String)
  | _, current, [] => current.toList
  | fence, current, line :: lines =>
    match fence.read isWhiteSpace line with
    | .opens _ fence' => current.toList ++ blockLines fence' (some []) lines
    | .closes => current.toList ++ blockLines {} none lines
    | .content => blockLines fence (some (current.getD [] ++ [line])) lines

theorem flatten_blockLines (fence : Fence) (current : Option (List String)) (lines : List String) :
    (blockLines fence current lines).flatten = current.getD [] ++ contentLines fence lines := by
  have hcurrent : current.toList.flatten = current.getD [] := by
    cases current with
    | none => rfl
    | some part => exact List.append_nil part
  induction lines generalizing fence current with
  | nil => rw [blockLines, contentLines, hcurrent, List.append_nil]
  | cons line lines ih =>
    unfold blockLines contentLines
    cases fence.read isWhiteSpace line with
    | opens language fence' =>
      dsimp only
      rw [List.flatten_append, hcurrent, ih fence' (some []) rfl]
      rfl
    | closes =>
      dsimp only
      rw [List.flatten_append, hcurrent, ih {} none rfl]
      rfl
    | content =>
      dsimp only
      rw [ih fence (some (current.getD [] ++ [line])) (List.append_nil _)]
      exact List.append_assoc _ _ _

/-- Lines put together with the separator rule. -/
def accumulate (part : List String) : String := part.foldl appendLine ""

theorem foldl_appendLine {text : String} (h : text ≠ "") (part : List String) :
    part.foldl appendLine text = "\n".intercalate (text :: part) := by
  induction part generalizing text with
  | nil => exact String.intercalate_singleton.symm
  | cons line part ih =>
    have hne : text ++ "\n" ++ line ≠ "" := by
      intro hempty
      rw [String.append_assoc, String.append_eq_empty_iff] at hempty
      exact h hempty.1
    have happend : appendLine text line = text ++ "\n" ++ line := if_neg h
    rw [List.foldl_cons, happend, ih hne, String.intercalate_cons_append, String.intercalate_cons_cons]

/-- A line that is not blank keeps those behind it. -/
theorem accumulate_cons {line : String} (h : line ≠ "") (part : List String) :
    accumulate (line :: part) = "\n".intercalate (line :: part) := by
  have hfirst : appendLine "" line = line := if_pos rfl
  unfold accumulate
  rw [List.foldl_cons, hfirst, foldl_appendLine h]

/-- A blank line at the start leaves no trace. -/
theorem accumulate_blank (part : List String) : accumulate ("" :: part) = accumulate part := rfl

theorem length_accumulate_le (part : List String) :
    (accumulate part).length ≤ ("\n".intercalate part).length := by
  induction part with
  | nil => exact Nat.le_refl _
  | cons line part ih =>
    by_cases h : line = ""
    · subst h
      rw [accumulate_blank]
      cases part with
      | nil => exact Nat.le_refl _
      | cons line part =>
        rw [String.intercalate_cons_cons, String.length_append, String.length_append]
        omega
    · rw [accumulate_cons h]

/-- The lines begin with a blank one, and another one follows. -/
def StartsBlank (part : List String) : Prop := ∃ line rest, part = "" :: line :: rest

theorem accumulate_eq_iff (part : List String) : accumulate part = "\n".intercalate part ↔ ¬ StartsBlank part := by
  constructor
  · rintro h ⟨line, rest, rfl⟩
    have hle := length_accumulate_le (line :: rest)
    have hlength := congrArg String.length h
    rw [accumulate_blank, String.intercalate_cons_cons, String.length_append, String.length_append] at hlength
    have hnewline : "\n".length = 1 := rfl
    omega
  · intro h
    cases part with
    | nil => rfl
    | cons line part =>
      by_cases hline : line = ""
      · subst hline
        cases part with
        | nil => rfl
        | cons line' part => exact absurd ⟨line', part, rfl⟩ h
      · exact accumulate_cons hline part

private theorem texts_toList {current : Option MarkdownBlock} {part : Option (List String)}
    (h : current.map (·.text) = part.map accumulate) : current.toList.map (·.text) = part.toList.map accumulate := by
  rw [← Option.toList_map, ← Option.toList_map, h]

/-- What the loop makes of the texts of the blocks. -/
theorem Splitter.run_text (s : Splitter) (part : Option (List String)) (lines : List String)
    (h : s.current.map (·.text) = part.map accumulate) :
    (lines.foldl step s).finish.map (·.text) =
      s.blocks.map (·.text) ++ (blockLines s.fence part lines).map accumulate := by
  induction lines generalizing s part with
  | nil =>
    change (s.blocks ++ s.current.toList).map (·.text) = _
    rw [List.map_append, texts_toList h, blockLines]
  | cons line lines ih =>
    rw [List.foldl_cons]
    unfold blockLines
    cases hread : s.fence.read isWhiteSpace line with
    | opens language fence =>
      rw [step_opens hread, ih _ (some []) rfl]
      dsimp only
      rw [List.map_append, List.map_append, texts_toList h, List.append_assoc]
    | closes =>
      -- closing a block keeps its text
      have hclosed : (s.current.map fun block => { block with isOpen := false }).map (·.text) = part.map accumulate := by
        rw [Option.map_map, ← h]
        rfl
      rw [step_closes hread, ih _ none rfl]
      dsimp only
      rw [List.map_append, List.map_append, texts_toList hclosed, List.append_assoc]
    | content =>
      rw [step_content hread, ih _ (some (part.getD [] ++ [line]))]
      dsimp only
      have htext : (s.current.getD ⟨"", "", true⟩).text = accumulate (part.getD []) := by
        have hgetD : (s.current.getD ⟨"", "", true⟩).text = (s.current.map (·.text)).getD "" := by
          cases s.current <;> rfl
        rw [hgetD, h]
        cases part <;> rfl
      unfold accumulate
      rw [Option.map_some, Option.map_some, List.foldl_append, htext]
      rfl

/-- The blocks hold the lines of the text that are no fence lines, each block those of its own part; its text is these
lines, put together by newlines, for all blocks exactly when none of them begins with a blank line that another one
follows. -/
theorem splitBlocks_content (text : String) :
    let parts := blockLines {} none (lines text)
    parts.flatten = contentLines {} (lines text) ∧
      ((splitBlocks text).map (·.text) = parts.map ("\n").intercalate ↔ ∀ part ∈ parts, ¬ StartsBlank part) := by
  intro parts
  refine ⟨flatten_blockLines {} none (lines text), ?_⟩
  have htexts : (splitBlocks text).map (·.text) = parts.map accumulate := Splitter.run_text {} none (lines text) rfl
  rw [htexts, List.map_inj_left]
  exact forall₂_congr fun part _ => accumulate_eq_iff part

/-- A fence that starts with a blank line. -/
theorem splitBlocks_loses_line :
    let text := "\x60\x60\x60\n\nx\n\x60\x60\x60"
    splitBlocks text = [⟨"", "x", false⟩] ∧ contentLines {} (lines text) = ["", "x"] ∧
      blockLines {} none (lines text) = [["", "x"]] ∧
        (splitBlocks text).map (·.text) ≠ (blockLines {} none (lines text)).map ("\n").intercalate := by
  decide

end Hermo.Markdown
