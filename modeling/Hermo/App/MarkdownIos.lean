import Hermo.App.MarkdownRuns
import Hermo.Library.Unicode

/-!
# The splitter of the iOS app

The Swift loop is that of the Android app, over grapheme clusters (`MarkdownBlocks.swift`).  It differs in what ends a
line (`lines_android`), in what is white space, and in what is a marker.
-/

namespace Hermo.Markdown.Ios

open Unicode Splitting
open Android (Block)

/-! ### Lines -/

section

variable [Tables]

/-- `splitLines`, on the clusters of the text. -/
def splitClusters : List (List Char) → List (List Char)
  | [] => [[]]
  | c :: rest =>
    if Same c ['\n'] then [] :: splitClusters rest
    else if Same c ['\r'] then
      [] :: splitClusters (if rest.head?.any (Same · ['\n']) then rest.tail else rest)
    else (splitClusters rest).modifyHead (c ++ ·)
termination_by clusters => clusters.length
decreasing_by
  · exact Nat.lt_succ_self _
  · split
    · rw [List.length_tail, List.length_cons]
      omega
    · exact Nat.lt_succ_self _
  · exact Nat.lt_succ_self _

def lines (text : String) : List String := (splitClusters (clusters text.toList)).map String.ofList

/-! ### Fences -/

/-- `CharacterSet.whitespaces`: the category `Zs`, and the tab. -/
def isWhitespace (c : Char) : Bool :=
  let n := c.toNat
  n == 9 || n == 0x20 || n == 0xA0 || n == 0x1680 || (0x2000 ≤ n && n ≤ 0x200A) || n == 0x202F || n == 0x205F ||
    n == 0x3000

/-- `fenceMarker`; characters are compared by canonical equivalence. -/
def fenceMarker (line : List Char) : Option (Nat × Bool) :=
  let chars := clusters line
  let ticks := (chars.takeWhile (Same · [tick])).length
  if minFence ≤ ticks then
    if (chars.drop ticks).any (Same · [tick]) then none else some (ticks, true)
  else
    let tildes := (chars.takeWhile (Same · ['~'])).length
    if minFence ≤ tildes then
      if (chars.drop tildes).any (Same · ['~']) then none else some (tildes, false)
    else none

def read (fence : Fence) (line : String) : Reading :=
  let trimmed := trim isWhitespace line.toList
  match fenceMarker trimmed with
  | none => .content
  | some (len, isTick) =>
    if fence.ticks = 0 ∧ fence.tildes = 0 then
      .opens (String.ofList (trim isWhitespace ((clusters trimmed).drop len).flatten))
        (if isTick then ⟨len, 0⟩ else ⟨0, len⟩)
    else if isTick = true ∧ 0 < fence.ticks ∧ fence.ticks ≤ len ∨ isTick = false ∧ 0 < fence.tildes ∧ fence.tildes ≤ len
    then .closes
    else .content

theorem read_eq_apply (fence : Fence) (line : String) :
    read fence line = fence.apply (fenceMarker (trim isWhitespace line.toList)) fun len =>
      String.ofList (trim isWhitespace ((clusters (trim isWhitespace line.toList)).drop len).flatten) := rfl

theorem fenceMarker_min {line : List Char} {m : Nat × Bool} (h : fenceMarker line = some m) : minFence ≤ m.1 := by
  unfold fenceMarker at h
  dsimp only at h
  split at h
  · rename_i hticks
    split at h
    · cases h
    · cases h
      exact hticks
  · split at h
    · rename_i htildes
      split at h
      · cases h
      · cases h
        exact htildes
    · cases h

/-! ### The loop -/

/-- The variables of the loop are those of the Android app. -/
def step (s : Android.Splitter) (line : String) : Android.Splitter :=
  match read s.fence line with
  | .opens language fence =>
    { s.flush with
      fence := fence, currentLanguage := language, currentIsFence := true, isOpen := true, current := some "" }
  | .closes => { s.flush with fence := {}, currentIsFence := false, isOpen := false, currentLanguage := "" }
  | .content =>
    match s.current with
    | some text => { s with current := some (appendLine text line) }
    | none =>
      { s with currentIsFence := false, isOpen := false, currentLanguage := "", current := some (appendLine "" line) }

def split (text : String) : List Block := if text = "" then [] else ((lines text).foldl step {}).flush.blocks

theorem step_eq_take (s : Android.Splitter) (line : String) : step s line = s.take line (read s.fence line) := by
  unfold step Android.Splitter.take
  cases read s.fence line <;> rfl

theorem split_eq {text : String} (h : text ≠ "") : split text = Android.Splitter.blocksBy read {} (lines text) := by
  have hstep : step = fun s line => s.take line (read s.fence line) :=
    funext fun s => funext fun line => step_eq_take s line
  unfold split
  rw [if_neg h, hstep]
  rfl

end

/-! ### Lines by characters -/

/-- The lines of the clusters: `\r\n` ends none. -/
def splitLines : List Char → List (List Char)
  | [] => [[]]
  | '\r' :: '\n' :: rest => (splitLines rest).modifyHead (['\r', '\n'] ++ ·)
  | c :: rest => if c = '\n' ∨ c = '\r' then [] :: splitLines rest else (splitLines rest).modifyHead (c :: ·)

/-- No line end. -/
def plain (c : Char) : Bool := c != '\r' && c != '\n'

theorem splitLines_cons {c : Char} {rest : List Char} (h : ¬ (c = '\r' ∧ rest.head? = some '\n')) :
    splitLines (c :: rest) =
      if c = '\n' ∨ c = '\r' then [] :: splitLines rest else (splitLines rest).modifyHead (c :: ·) := by
  rw [splitLines]
  rintro tail rfl rfl
  exact h ⟨rfl, rfl⟩

theorem splitLines_append {run : List Char} (h : ∀ c ∈ run, plain c = true) (rest : List Char) :
    splitLines (run ++ rest) = (splitLines rest).modifyHead (run ++ ·) := by
  induction run with
  | nil => exact List.modifyHead_id.symm ▸ rfl
  | cons c run ih =>
    have hc : c ≠ '\r' ∧ c ≠ '\n' := by simpa [plain] using h c List.mem_cons_self
    rw [List.cons_append, splitLines_cons fun hcr => hc.1 hcr.1, if_neg (not_or.2 ⟨hc.2, hc.1⟩),
      ih fun d hd => h d (List.mem_cons_of_mem c hd), List.modifyHead_modifyHead]
    rfl

theorem splitLines_ne_nil (text : List Char) : splitLines text ≠ [] := by
  induction text using splitLines.induct with
  | case1 => exact List.cons_ne_nil _ _
  | case2 rest ih =>
    rw [splitLines]
    exact fun hnil => ih (List.modifyHead_eq_nil_iff.1 hnil)
  | case3 c rest hcrlf hc ih =>
    rw [splitLines_cons (Android.not_crlf hcrlf), if_pos hc]
    exact List.cons_ne_nil _ _
  | case4 c rest hcrlf hc ih =>
    rw [splitLines_cons fun h => hc (.inr h.1), if_neg hc]
    exact fun hnil => ih (List.modifyHead_eq_nil_iff.1 hnil)

/-- The Android app cuts them where there is a `\r\n`. -/
theorem splitLines_android (text : List Char) :
    Android.splitLines text = (splitLines text).flatMap Android.splitLines := by
  induction text using splitLines.induct with
  | case1 => rfl
  | case2 rest ih =>
    obtain ⟨line, lines, hlines⟩ := List.exists_cons_of_ne_nil (splitLines_ne_nil rest)
    rw [Android.splitLines, ih, splitLines, hlines]
    rfl
  | case3 c rest hcrlf hc ih =>
    have hno := Android.not_crlf hcrlf
    rw [Android.splitLines_cons hno, if_pos hc, ih, splitLines_cons hno, if_pos hc]
    rfl
  | case4 c rest hcrlf hc ih =>
    obtain ⟨line, lines, hlines⟩ := List.exists_cons_of_ne_nil (splitLines_ne_nil rest)
    have hno {l : List Char} : ¬ (c = '\r' ∧ l.head? = some '\n') := fun h => hc (.inr h.1)
    rw [Android.splitLines_cons hno, if_neg hc, ih, splitLines_cons hno, if_neg hc, hlines, List.modifyHead_cons,
      List.flatMap_cons, List.flatMap_cons, Android.splitLines_cons hno, if_neg hc,
      modifyHead_append _ (Android.splitLines_ne_nil line)]

/-- A newline stands in no line but behind a return. -/
theorem return_mem {text line : List Char} (h : line ∈ splitLines text) (hlf : '\n' ∈ line) : '\r' ∈ line := by
  induction text using splitLines.induct generalizing line with
  | case1 =>
    rw [splitLines, List.mem_singleton] at h
    rw [h] at hlf
    cases hlf
  | case2 rest ih =>
    obtain ⟨first, lines, hlines⟩ := List.exists_cons_of_ne_nil (splitLines_ne_nil rest)
    rw [splitLines, hlines, List.modifyHead_cons] at h
    rw [hlines] at ih
    rcases List.mem_cons.1 h with rfl | hmem
    · exact List.mem_cons_self
    · exact ih (List.mem_cons_of_mem first hmem) hlf
  | case3 c rest hcrlf hc ih =>
    rw [splitLines_cons (Android.not_crlf hcrlf), if_pos hc] at h
    rcases List.mem_cons.1 h with rfl | hmem
    · cases hlf
    · exact ih hmem hlf
  | case4 c rest hcrlf hc ih =>
    obtain ⟨first, lines, hlines⟩ := List.exists_cons_of_ne_nil (splitLines_ne_nil rest)
    rw [splitLines_cons fun h => hc (.inr h.1), if_neg hc, hlines, List.modifyHead_cons] at h
    rw [hlines] at ih
    rcases List.mem_cons.1 h with rfl | hmem
    · rcases List.mem_cons.1 hlf with hnewline | hin
      · exact absurd (.inl hnewline.symm) hc
      · exact List.mem_cons_of_mem c (ih List.mem_cons_self hin)
    · exact ih (List.mem_cons_of_mem first hmem) hlf

section

variable [Tables]

theorem splitClusters_append {run : List (List Char)} (h : ∀ c ∈ run, c ≠ ['\r'] ∧ c ≠ ['\n'])
    (rest : List (List Char)) :
    splitClusters (run ++ rest) = (splitClusters rest).modifyHead (run.flatten ++ ·) := by
  induction run with
  | nil => exact List.modifyHead_id.symm ▸ rfl
  | cons c run ih =>
    obtain ⟨hcr, hlf⟩ := h c List.mem_cons_self
    rw [List.cons_append, splitClusters, if_neg fun hsame => hlf (same_lf.1 hsame),
      if_neg fun hsame => hcr (same_cr.1 hsame), ih fun d hd => h d (List.mem_cons_of_mem c hd),
      List.modifyHead_modifyHead, List.flatten_cons]
    simp only [Function.comp_def, List.append_assoc]

theorem splitClusters_cr {rest : List Char} (h : rest.head? ≠ some '\n') :
    splitClusters (clusters ('\r' :: rest)) = [] :: splitClusters (clusters rest) := by
  have hlf : ¬ Same ['\r'] ['\n'] := fun hsame => absurd (same_lf.1 hsame) (by decide)
  have hcr : Same ['\r'] ['\r'] := rfl
  -- the second `\n` of the source is never met
  have hnext : ¬ (clusters rest).head?.any (Same · ['\n']) = true := by
    intro hany
    obtain ⟨c, hc, hsame⟩ := (Option.any_eq_true _ _).1 hany
    obtain ⟨more, hmore⟩ := List.head?_eq_some_iff.1 hc
    have hrest := flatten_clusters rest
    rw [hmore, same_lf.1 (of_decide_eq_true hsame), List.flatten_cons] at hrest
    exact h (hrest ▸ rfl)
  rw [clusters_cr h, splitClusters, if_neg hlf, if_pos hcr, if_neg hnext]

theorem splitClusters_end {c : Char} {rest : List Char} (hc : c = '\r' ∨ c = '\n')
    (h : ∀ tail, tail.length ≤ rest.length → splitClusters (clusters tail) = splitLines tail) :
    splitClusters (clusters (c :: rest)) = splitLines (c :: rest) := by
  rcases hc with rfl | rfl
  · by_cases hhead : rest.head? = some '\n'
    · obtain ⟨tail, rfl⟩ := List.head?_eq_some_iff.1 hhead
      have hlf : ¬ Same ['\r', '\n'] ['\n'] := fun hsame => absurd (same_lf.1 hsame) (by decide)
      have hcr : ¬ Same ['\r', '\n'] ['\r'] := fun hsame => absurd (same_cr.1 hsame) (by decide)
      rw [clusters_crlf, splitClusters, if_neg hlf, if_neg hcr, h tail (Nat.le_succ _), splitLines]
    · rw [splitClusters_cr hhead, h rest (Nat.le_refl _), splitLines_cons fun hcrlf => hhead hcrlf.2,
        if_pos (.inr rfl)]
  · have hlf : Same ['\n'] ['\n'] := rfl
    rw [clusters_lf, splitClusters, if_pos hlf, h rest (Nat.le_refl _), splitLines_cons (by simp), if_pos (.inl rfl)]

theorem splitClusters_clusters (text : List Char) : splitClusters (clusters text) = splitLines text := by
  induction hlength : text.length using Nat.strong_induction_on generalizing text with
  | _ n ih =>
    have hrun : ∀ c ∈ text.takeWhile plain, plain c = true := fun c hc => List.mem_takeWhile_imp hc
    have hclusters : ∀ c ∈ clusters (text.takeWhile plain), c ≠ ['\r'] ∧ c ≠ ['\n'] := by
      intro c hc
      have hin : c ⊆ text.takeWhile plain := by
        intro d hd
        rw [← flatten_clusters (text.takeWhile plain)]
        exact List.mem_flatten.2 ⟨c, hc, hd⟩
      constructor
      · rintro rfl
        exact absurd (hrun _ (hin List.mem_cons_self)) (by decide)
      · rintro rfl
        exact absurd (hrun _ (hin List.mem_cons_self)) (by decide)
    have hcut := splitClusters_append hclusters
    rw [flatten_clusters] at hcut
    have htext : text = text.takeWhile plain ++ text.dropWhile plain := List.takeWhile_append_dropWhile.symm
    have hend := List.head?_dropWhile_not plain text
    rw [htext, splitLines_append hrun]
    cases htail : text.dropWhile plain with
    | nil =>
      have hlast := hcut []
      rw [List.append_nil] at hlast
      rw [List.append_nil, hlast, splitClusters, splitLines]
    | cons c rest =>
      have hc : c = '\r' ∨ c = '\n' := by
        rw [htail] at hend
        simpa [plain, ← not_and_or, Decidable.or_iff_not_not_and_not] using hend
      have hreturn : '\r' ∉ text.takeWhile plain := fun hmem => absurd (hrun _ hmem) (by decide)
      have hshorter : rest.length < n := by
        have hsum := congrArg List.length htext
        rw [htail, List.length_append, List.length_cons] at hsum
        omega
      rw [clusters_append_end hreturn hc, hcut,
        splitClusters_end hc fun tail htail => ih tail.length (Nat.lt_of_le_of_lt htail hshorter) tail rfl]

/-- The lines of the app, by characters. -/
theorem lines_eq (text : String) : lines text = (splitLines text.toList).map String.ofList := by
  unfold lines
  rw [splitClusters_clusters]

theorem lines_android (text : String) : Android.lines text = (lines text).flatMap Android.lines := by
  unfold Android.lines
  rw [splitLines_android, lines_eq, List.map_flatMap, List.flatMap_map]
  simp only [String.toList_ofList]

theorem return_mem_line {text line : String} (h : line ∈ lines text) (hlf : '\n' ∈ line.toList) :
    '\r' ∈ line.toList := by
  rw [lines_eq] at h
  obtain ⟨chars, hchars, rfl⟩ := List.mem_map.1 h
  rw [String.toList_ofList] at hlf ⊢
  exact return_mem hchars hlf

end

end Hermo.Markdown.Ios
