import Hermo.App.MarkdownReadings

/-!
# Runs of the apps' loop

The loop of the apps over any reading of its lines: the marks it makes (`run_shown_by`), and how the blocks it has go on
(`blocks_stay`, `current_goes_on`).
-/

namespace Hermo.Markdown

/-- What a loop makes of a line, within a fence. -/
abbrev Reader := Fence → String → Reading

/-- What a fence makes of a marker, and of the language behind it. -/
def Fence.apply (fence : Fence) (marker : Option (Nat × Bool)) (language : Nat → String) : Reading :=
  match marker with
  | none => .content
  | some (len, isTick) =>
    if fence.ticks = 0 ∧ fence.tildes = 0 then .opens (language len) (if isTick then ⟨len, 0⟩ else ⟨0, len⟩)
    else if isTick = true ∧ 0 < fence.ticks ∧ fence.ticks ≤ len ∨ isTick = false ∧ 0 < fence.tildes ∧ fence.tildes ≤ len
    then .closes
    else .content

theorem Fence.read_eq_apply (fence : Fence) (white : Char → Bool) (line : String) :
    fence.read white line = fence.apply (fenceMarker (trim white line.toList))
      fun len => String.ofList (trim white ((trim white line.toList).drop len)) := rfl

theorem Fence.apply_opens {fence fence' : Fence} {marker : Option (Nat × Bool)} {language : Nat → String}
    {opened : String} (h : fence.apply marker language = .opens opened fence') :
    fence = {} ∧ ∃ len isTick, marker = some (len, isTick) ∧ opened = language len ∧
      fence' = if isTick then ⟨len, 0⟩ else ⟨0, len⟩ := by
  obtain ⟨ticks, tildes⟩ := fence
  unfold apply at h
  split at h
  · cases h
  · rename_i len isTick
    split at h
    · rename_i houtside
      obtain ⟨rfl, rfl⟩ := houtside
      cases h
      exact ⟨rfl, len, isTick, rfl, rfl, rfl⟩
    · split at h <;> cases h

theorem Fence.apply_closes {fence : Fence} {marker : Option (Nat × Bool)} {language : Nat → String}
    (h : fence.apply marker language = .closes) : fence ≠ {} ∧ marker.isSome := by
  unfold apply at h
  split at h
  · cases h
  · split at h
    · cases h
    · rename_i houtside
      refine ⟨?_, rfl⟩
      rintro rfl
      exact houtside ⟨rfl, rfl⟩

theorem fenceMarker_min {line : List Char} {m : Nat × Bool} (h : fenceMarker line = some m) : minFence ≤ m.1 := by
  unfold fenceMarker at h
  dsimp only at h
  split at h
  · rename_i hticks
    split at h
    · cases h
    · cases h
      exact hticks
  · split at h
    · rename_i htildes
      split at h
      · cases h
      · cases h
        exact htildes
    · cases h

/-- `marks`, for a reader. -/
def marksBy (read : Reader) : Fence → List String → List Mark
  | _, [] => []
  | fence, line :: lines =>
    match read fence line with
    | .opens language fence' => .opens language :: marksBy read fence' lines
    | .closes => .closes :: marksBy read {} lines
    | .content => .content line :: marksBy read fence lines

theorem marksBy_white (white : Char → Bool) (fence : Fence) (lines : List String) :
    marksBy (·.read white) fence lines = marks white fence lines := by
  induction lines generalizing fence with
  | nil => rfl
  | cons line lines ih =>
    cases hread : fence.read white line with
    | opens language fence' => rw [marks_opens hread, marksBy, hread, ← ih]
    | closes => rw [marks_closes hread, marksBy, hread, ← ih]
    | content => rw [marks_content hread, marksBy, hread, ← ih]

section

variable {read : Reader} {fence fence' : Fence} {line language : String}

theorem marksBy_opens (h : read fence line = .opens language fence') (lines : List String) :
    marksBy read fence (line :: lines) = .opens language :: marksBy read fence' lines := by
  rw [marksBy, h]

theorem marksBy_closes (h : read fence line = .closes) (lines : List String) :
    marksBy read fence (line :: lines) = .closes :: marksBy read {} lines := by
  rw [marksBy, h]

theorem marksBy_content (h : read fence line = .content) (lines : List String) :
    marksBy read fence (line :: lines) = .content line :: marksBy read fence lines := by
  rw [marksBy, h]

theorem contents_marksBy_sublist (read : Reader) (fence : Fence) (lines : List String) :
    (contents (marksBy read fence lines)).Sublist lines := by
  induction lines generalizing fence with
  | nil => exact List.Sublist.slnil
  | cons line lines ih =>
    cases hread : read fence line with
    | opens language fence' =>
      rw [marksBy_opens hread]
      exact (ih fence').cons line
    | closes =>
      rw [marksBy_closes hread]
      exact (ih {}).cons line
    | content =>
      rw [marksBy_content hread]
      exact (ih fence).cons_cons line

end

/-! ### The amount of a character -/

/-- How often the character is in the language or in the line. -/
def Mark.count (c : Char) : Mark → Nat
  | .opens language => language.toList.count c
  | .closes => 0
  | .content line => line.toList.count c

namespace Shown

/-- How often the character is in what is shown. -/
def amount (s : Shown) (c : Char) : Nat := (s.finish.map fun b => b.1.toList.count c + b.2.toList.count c).sum

theorem count_char_appendLine {c : Char} (hc : c ≠ '\n') (text line : String) :
    (appendLine text line).toList.count c = text.toList.count c + line.toList.count c := by
  have hnewline : "\n".toList.count c = 0 := List.count_eq_zero.2 fun hmem => hc (List.mem_singleton.1 hmem)
  unfold appendLine
  split
  · rename_i htext
    rw [htext]
    exact (Nat.zero_add _).symm
  · rw [String.toList_append, String.toList_append, List.count_append, List.count_append, hnewline, Nat.add_zero]

theorem amount_step {c : Char} (hc : c ≠ '\n') (s : Shown) (m : Mark) :
    (s.step m).amount c = s.amount c + m.count c := by
  unfold amount
  cases m with
  | opens language =>
    rw [finish_opens, List.map_append, List.sum_append]
    rfl
  | closes =>
    rw [finish_closes]
    rfl
  | content line =>
    have hcount : (Mark.content line).count c = line.toList.count c := rfl
    cases hcurrent : s.current with
    | none =>
      have hempty : ("" : String).toList.count c = 0 := rfl
      rw [finish_content_none hcurrent, List.map_append, List.sum_append, List.map_singleton, List.sum_singleton,
        hempty, Nat.zero_add, hcount]
    | some b =>
      obtain ⟨hbefore, hafter⟩ := finish_content_some hcurrent line
      have hline := count_char_appendLine hc b.2 line
      rw [hbefore, hafter, hcount, List.map_append, List.map_append, List.sum_append, List.sum_append,
        List.map_singleton, List.map_singleton, List.sum_singleton, List.sum_singleton]
      dsimp only
      omega

theorem amount_run {c : Char} (hc : c ≠ '\n') (s : Shown) (marks : List Mark) :
    (s.run marks).amount c = s.amount c + (marks.map (Mark.count c)).sum := by
  induction marks generalizing s with
  | nil => rfl
  | cons m marks ih =>
    rw [run_cons, ih, amount_step hc, List.map_cons, List.sum_cons, Nat.add_assoc]

end Shown

/-! ### Lines of the Android app -/

namespace Android

theorem not_crlf {c : Char} {rest : List Char} (h : ∀ tail, c = '\r' → rest = '\n' :: tail → False) :
    ¬ (c = '\r' ∧ rest.head? = some '\n') := by
  rintro ⟨hc, hhead⟩
  obtain ⟨tail, htail⟩ := List.head?_eq_some_iff.1 hhead
  exact h tail hc htail

theorem splitLines_ne_nil (text : List Char) : splitLines text ≠ [] := by
  induction text using splitLines.induct with
  | case1 => exact List.cons_ne_nil _ _
  | case2 rest ih =>
    rw [splitLines]
    exact List.cons_ne_nil _ _
  | case3 c rest hcrlf hc ih =>
    rw [splitLines_cons (not_crlf hcrlf), if_pos hc]
    exact List.cons_ne_nil _ _
  | case4 c rest hcrlf hc ih =>
    rw [splitLines_cons fun h => hc (.inr h.1), if_neg hc]
    exact fun hnil => ih (List.modifyHead_eq_nil_iff.1 hnil)

/-- No line end is left in a line, and a text without one is a line. -/
theorem mem_splitLines {text line : List Char} (h : line ∈ splitLines text) : '\r' ∉ line ∧ '\n' ∉ line := by
  induction text using splitLines.induct generalizing line with
  | case1 =>
    rw [splitLines, List.mem_singleton] at h
    rw [h]
    exact ⟨List.not_mem_nil, List.not_mem_nil⟩
  | case2 rest ih =>
    rw [splitLines] at h
    rcases List.mem_cons.1 h with rfl | hmem
    · exact ⟨List.not_mem_nil, List.not_mem_nil⟩
    · exact ih hmem
  | case3 c rest hcrlf hc ih =>
    rw [splitLines_cons (not_crlf hcrlf), if_pos hc] at h
    rcases List.mem_cons.1 h with rfl | hmem
    · exact ⟨List.not_mem_nil, List.not_mem_nil⟩
    · exact ih hmem
  | case4 c rest hcrlf hc ih =>
    obtain ⟨first, lines, hlines⟩ := List.exists_cons_of_ne_nil (splitLines_ne_nil rest)
    rw [splitLines_cons fun h => hc (.inr h.1), if_neg hc, hlines, List.modifyHead_cons] at h
    rw [hlines] at ih
    rcases List.mem_cons.1 h with rfl | hmem
    · obtain ⟨hcr, hlf⟩ := ih List.mem_cons_self
      rw [List.mem_cons, List.mem_cons, not_or, not_or]
      exact ⟨⟨fun heq => hc (.inr heq.symm), hcr⟩, fun heq => hc (.inl heq.symm), hlf⟩
    · exact ih (List.mem_cons_of_mem first hmem)

theorem lines_ne_nil (text : String) : lines text ≠ [] := fun hnil =>
  splitLines_ne_nil text.toList (List.map_eq_nil_iff.1 hnil)

theorem mem_lines {text line : String} (h : line ∈ lines text) : '\r' ∉ line.toList ∧ '\n' ∉ line.toList := by
  obtain ⟨chars, hchars, rfl⟩ := List.mem_map.1 h
  rw [String.toList_ofList]
  exact mem_splitLines hchars

theorem lines_of_not_mem {line : String} (hcr : '\r' ∉ line.toList) (hlf : '\n' ∉ line.toList) : lines line = [line] := by
  unfold lines
  rw [splitLines_of_not_mem hlf, List.splitOn_eq_singleton hcr, List.map_singleton, String.ofList_toList]

end Android

/-! ### Runs -/

namespace Android.Splitter

/-- What the loop does with a line that it has read. -/
def take (s : Splitter) (line : String) : Reading → Splitter
  | .opens language fence =>
    { s.flush with
      fence := fence, currentLanguage := language, currentIsFence := true, isOpen := true, current := some "" }
  | .closes => { s.flush with fence := {}, currentIsFence := false, isOpen := false, currentLanguage := "" }
  | .content =>
    match s.current with
    | some text => { s with current := some (appendLine text line) }
    | none =>
      { s with currentIsFence := false, isOpen := false, currentLanguage := "", current := some (appendLine "" line) }

theorem step_eq_take (s : Splitter) (line : String) : s.step line = s.take line (s.fence.read isWhitespace line) := by
  unfold step take
  cases s.fence.read isWhitespace line <;> rfl

theorem take_content_some {s : Splitter} {text : String} (h : s.current = some text) (line : String) :
    s.take line .content = { s with current := some (appendLine text line) } := by
  unfold take
  rw [h]

theorem take_content_none {s : Splitter} (h : s.current = none) (line : String) :
    s.take line .content =
      { s with currentIsFence := false, isOpen := false, currentLanguage := ""
               current := some (appendLine "" line) } := by
  unfold take
  rw [h]

/-- A line of content leaves the fence, and there is a block behind it. -/
theorem content_fence (s : Splitter) (line : String) :
    (s.take line .content).fence = s.fence ∧ (s.take line .content).current.isSome := by
  cases h : s.current with
  | none =>
    rw [take_content_none h]
    exact ⟨rfl, rfl⟩
  | some text =>
    rw [take_content_some h]
    exact ⟨rfl, rfl⟩

def runBy (read : Reader) (s : Splitter) (lines : List String) : Splitter :=
  lines.foldl (fun s line => s.take line (read s.fence line)) s

theorem foldl_step (s : Splitter) (lines : List String) :
    lines.foldl step s = s.runBy (·.read isWhitespace) lines := by
  have hstep : step = fun s line => s.take line (s.fence.read isWhitespace line) :=
    funext fun s => funext fun line => s.step_eq_take line
  unfold runBy
  rw [hstep]

theorem runBy_cons (read : Reader) (s : Splitter) (line : String) (lines : List String) :
    s.runBy read (line :: lines) = (s.take line (read s.fence line)).runBy read lines := rfl

theorem runBy_append (read : Reader) (s : Splitter) (first second : List String) :
    s.runBy read (first ++ second) = (s.runBy read first).runBy read second := List.foldl_append

/-- Language and text of the blocks follow the marks. -/
theorem run_shown_by (read : Reader) (s : Splitter) (lines : List String) :
    (s.runBy read lines).shown = s.shown.run (marksBy read s.fence lines) := by
  induction lines generalizing s with
  | nil => rfl
  | cons line lines ih =>
    rw [runBy_cons, ih]
    cases hread : read s.fence line with
    | opens language fence =>
      rw [marksBy_opens hread]
      unfold take shown
      dsimp only
      rw [flush_shown]
      rfl
    | closes =>
      rw [marksBy_closes hread]
      unfold take shown
      dsimp only
      rw [flush_shown]
      rfl
    | content =>
      rw [marksBy_content hread]
      unfold take shown
      cases s.current <;> rfl

/-! ### How the blocks go on -/

/-- The blocks of the result. -/
def blocksBy (read : Reader) (s : Splitter) (lines : List String) : List Block := (s.runBy read lines).flush.blocks

theorem blocksBy_nil (read : Reader) (s : Splitter) : s.blocksBy read [] = s.flush.blocks := rfl

theorem blocksBy_cons (read : Reader) (s : Splitter) (line : String) (lines : List String) :
    s.blocksBy read (line :: lines) = (s.take line (read s.fence line)).blocksBy read lines := rfl

theorem blocksBy_append (read : Reader) (s : Splitter) (first second : List String) :
    s.blocksBy read (first ++ second) = (s.runBy read first).blocksBy read second := by
  unfold blocksBy
  rw [runBy_append]

theorem blocksBy_shown (read : Reader) (s : Splitter) (lines : List String) :
    (s.blocksBy read lines).map Block.shown = (s.shown.run (marksBy read s.fence lines)).finish := by
  unfold blocksBy
  rw [flush_shown, run_shown_by]

theorem blocks_take (s : Splitter) (line : String) (reading : Reading) :
    (reading = .content → (s.take line reading).blocks = s.blocks) ∧
      (reading ≠ .content → (s.take line reading).blocks = s.flush.blocks) := by
  cases reading with
  | opens language fence => exact ⟨nofun, fun _ => rfl⟩
  | closes => exact ⟨nofun, fun _ => rfl⟩
  | content =>
    refine ⟨fun _ => ?_, fun hne => absurd rfl hne⟩
    unfold take
    cases s.current <;> rfl

theorem blocks_flush (s : Splitter) : s.blocks <+: s.flush.blocks := List.prefix_append _ _

/-- A block that is finished stays. -/
theorem blocks_stay (read : Reader) (s : Splitter) (lines : List String) : s.blocks <+: s.blocksBy read lines := by
  induction lines generalizing s with
  | nil => exact s.blocks_flush
  | cons line lines ih =>
    refine List.IsPrefix.trans ?_ (ih (s.take line (read s.fence line)))
    obtain ⟨hcontent, hother⟩ := s.blocks_take line (read s.fence line)
    by_cases h : read s.fence line = .content
    · exact (hcontent h).symm ▸ List.prefix_refl _
    · exact (hother h).symm ▸ s.blocks_flush

/-- The block at hand, as it would be finished. -/
def pending (s : Splitter) (text : String) : Block :=
  { language := s.currentLanguage, text := text, isFence := s.currentIsFence, isOpen := s.isOpen && s.currentIsFence }

theorem flush_some {s : Splitter} {text : String} (h : s.current = some text) :
    s.flush.blocks = s.blocks ++ [s.pending text] := by
  unfold flush
  rw [h]
  rfl

theorem flush_none {s : Splitter} (h : s.current = none) : s.flush.blocks = s.blocks := by
  unfold flush
  rw [h]
  exact List.append_nil _

/-- A line that is no content ends the block at hand. -/
theorem pending_stays (read : Reader) {s : Splitter} {text : String} (h : s.current = some text) (line : String)
    {reading : Reading} (hreading : reading ≠ .content) (lines : List String) :
    ((s.take line reading).blocksBy read lines)[s.blocks.length]? = some (s.pending text) := by
  obtain ⟨more, hmore⟩ := (s.take line reading).blocks_stay read lines
  rw [← hmore, (s.blocks_take line reading).2 hreading, flush_some h, List.append_assoc,
    List.getElem?_append_right (Nat.le_refl _), Nat.sub_self]
  rfl

/-- The block at hand keeps its place, its kind and its language, and its text goes on. -/
theorem current_goes_on (read : Reader) {s : Splitter} {text : String} (h : s.current = some text)
    (lines : List String) :
    ∃ b, (s.blocksBy read lines)[s.blocks.length]? = some b ∧ b.language = s.currentLanguage ∧
      b.isFence = s.currentIsFence ∧ text.toList <+: b.text.toList := by
  induction lines generalizing s text with
  | nil =>
    refine ⟨s.pending text, ?_, rfl, rfl, List.prefix_refl _⟩
    unfold blocksBy runBy
    rw [List.foldl_nil, flush_some h, List.getElem?_append_right (Nat.le_refl _), Nat.sub_self, List.getElem?_cons_zero]
  | cons line lines ih =>
    rw [blocksBy_cons]
    by_cases hread : read s.fence line = .content
    · have htake : s.take line (read s.fence line) = { s with current := some (appendLine text line) } := by
        rw [hread]
        unfold take
        rw [h]
      have hcurrent : (s.take line (read s.fence line)).current = some (appendLine text line) := by rw [htake]
      obtain ⟨b, hb, hlanguage, hfence, htext⟩ := ih hcurrent
      rw [htake] at hb hlanguage hfence ⊢
      exact ⟨b, hb, hlanguage, hfence, List.IsPrefix.trans (prefix_appendLine text line) htext⟩
    · exact ⟨s.pending text, pending_stays read h line hread lines, rfl, rfl, List.prefix_refl _⟩

end Android.Splitter

theorem Android.split_eq {text : String} (h : text ≠ "") :
    split text = Splitter.blocksBy (·.read isWhitespace) {} (lines text) := by
  unfold split
  rw [if_neg h, Splitter.foldl_step]
  rfl

end Hermo.Markdown
