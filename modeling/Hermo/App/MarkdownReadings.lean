import Hermo.App.MarkdownBlocks
import Hermo.Transcript.Marks

/-!
# How the app reads a line

The marks of the app, the lines it makes of one line of the core when a `\r` stands at the ends (`pieces_bare`), and
when both read a fence line alike (`read_alike`).
-/

namespace Hermo.Markdown.Android

open Splitting

/-! ### The marks of the app -/

def Block.shown (b : Block) : String × String := (b.language, b.text)

def Splitter.shown (s : Splitter) : Shown :=
  ⟨s.blocks.map Block.shown, s.current.map fun text => (s.currentLanguage, text)⟩

theorem Splitter.flush_shown (s : Splitter) : s.flush.blocks.map Block.shown = s.shown.finish := by
  unfold flush Splitter.shown Shown.finish
  rw [List.map_append, ← Option.toList_map, Option.map_map]
  rfl

theorem Splitter.step_shown (s : Splitter) (line : String) (lines : List String) :
    s.shown.run (marks isWhitespace s.fence (line :: lines)) =
      (s.step line).shown.run (marks isWhitespace (s.step line).fence lines) := by
  unfold step
  cases hread : s.fence.read isWhitespace line with
  | opens language fence =>
    rw [marks_opens hread]
    unfold Splitter.shown
    dsimp only
    rw [flush_shown]
    rfl
  | closes =>
    rw [marks_closes hread]
    unfold Splitter.shown
    dsimp only
    rw [flush_shown]
    rfl
  | content =>
    rw [marks_content hread]
    unfold Splitter.shown
    cases s.current <;> rfl

theorem Splitter.run_shown (s : Splitter) (lines : List String) :
    (lines.foldl step s).shown = s.shown.run (marks isWhitespace s.fence lines) := by
  induction lines generalizing s with
  | nil => rfl
  | cons line lines ih => rw [List.foldl_cons, ih, ← step_shown]

theorem split_shown {text : String} (h : text ≠ "") :
    (split text).map Block.shown = (Shown.run {} (marks isWhitespace {} (lines text))).finish := by
  unfold split
  rw [if_neg h, Splitter.flush_shown, Splitter.run_shown]
  rfl

/-! ### Returns at the ends of a line -/

/-- The line without the `\r` at its ends. -/
def bare (line : String) : String := String.ofList (trim (· == '\r') line.toList)

theorem trim_decomp (c : Char) (line : List Char) :
    ∃ a b, line = List.replicate a c ++ trim (· == c) line ++ List.replicate b c := by
  obtain ⟨front, back, hline, hfront, hback⟩ := exists_ends (· == c) line
  refine ⟨front.length, back.length, ?_⟩
  rw [← List.eq_replicate_of_mem fun d hd => beq_iff_eq.1 (hfront d hd),
    ← List.eq_replicate_of_mem fun d hd => beq_iff_eq.1 (hback d hd)]
  exact hline

theorem trim_head (white : Char → Bool) {line : List Char} {c : Char} (h : (trim white line).head? = some c) :
    white c = false := by
  have hprefix : trim white line <+: line.dropWhile white := List.rdropWhile_prefix _ _
  have hhead := List.head?_dropWhile_not white line
  obtain ⟨rest, hrest⟩ := hprefix
  rw [← hrest, List.head?_append, h] at hhead
  simpa using hhead

theorem trim_getLast (white : Char → Bool) {line : List Char} {c : Char} (h : (trim white line).getLast? = some c) :
    white c = false := by
  have hne : trim white line ≠ [] := by
    rintro hnil
    rw [hnil] at h
    cases h
  have hlast := List.rdropWhile_last_not white (line.dropWhile white) hne
  rw [List.getLast?_eq_some_getLast hne, Option.some_inj] at h
  unfold trim at h
  rw [h] at hlast
  exact Bool.eq_false_iff.2 hlast

theorem trim_replicate {white : Char → Bool} {c : Char} (h : white c = true) (a b : Nat) (line : List Char) :
    trim white (List.replicate a c ++ line ++ List.replicate b c) = trim white line := by
  have hall : ∀ n, ∀ d ∈ List.replicate n c, white d = true := fun n d hd => List.eq_of_mem_replicate hd ▸ h
  unfold trim
  rw [List.append_assoc, List.dropWhile_append_of_pos (hall a), List.dropWhile_append]
  split
  · rename_i hnil
    rw [List.isEmpty_iff] at hnil
    have hreplicate : (List.replicate b c).dropWhile white = [] := List.dropWhile_eq_nil_iff.2 (hall b)
    rw [hnil, hreplicate]
  · exact rdropWhile_replicate h _ b

/-- The core takes the `\r` at the ends of a line for white space. -/
theorem trim_bare (line : String) : trim isWhiteSpace line.toList = trim isWhiteSpace (bare line).toList := by
  obtain ⟨a, b, hline⟩ := trim_decomp '\r' line.toList
  unfold bare
  rw [String.toList_ofList]
  conv => lhs; rw [hline]
  exact trim_replicate (by decide) a b _

theorem read_bare (fence : Fence) (line : String) :
    fence.read isWhiteSpace line = fence.read isWhiteSpace (bare line) := by
  unfold Fence.read
  rw [trim_bare]

theorem fenceLine_bare (line : String) : fenceLine isWhiteSpace line = fenceLine isWhiteSpace (bare line) := by
  unfold fenceLine
  rw [trim_bare]

/-- The app ends a line at each `\r`. -/
theorem pieces_bare (line : String) :
    ∃ a b, pieces line = List.replicate a "" ++ pieces (bare line) ++ List.replicate b "" ∧
      (bare line ≠ "" → (line.toList.head? = some '\r' ↔ a ≠ 0) ∧ (line.toList.getLast? = some '\r' ↔ b ≠ 0)) := by
  obtain ⟨a, b, hline⟩ := trim_decomp '\r' line.toList
  have hbare : (bare line).toList = trim (· == '\r') line.toList := String.toList_ofList
  refine ⟨a, b, ?_, ?_⟩
  · unfold pieces
    rw [hbare]
    conv => lhs; rw [hline]
    rw [splitOn_append_replicate, splitOn_replicate_append, List.map_append, List.map_append, List.map_replicate,
      List.map_replicate]
  · intro hne
    have htrim : trim (· == '\r') line.toList ≠ [] := by
      rintro hnil
      rw [hnil] at hbare
      exact hne (String.toList_eq_nil_iff.1 hbare)
    constructor
    · cases a with
      | zero =>
        rw [List.replicate_zero, List.nil_append] at hline
        have hhead : line.toList.head? = (trim (· == '\r') line.toList).head? := by
          conv => lhs; rw [hline]
          exact List.head?_append_of_ne_nil _ htrim
        refine iff_of_false (fun hreturn => ?_) (fun h => h rfl)
        rw [hhead] at hreturn
        cases trim_head _ hreturn
      | succ a =>
        rw [List.replicate_succ, List.cons_append, List.cons_append] at hline
        exact iff_of_true (by rw [hline]; rfl) (Nat.succ_ne_zero a)
    · cases b with
      | zero =>
        rw [List.replicate_zero, List.append_nil] at hline
        have hlast : line.toList.getLast? = (trim (· == '\r') line.toList).getLast? := by
          conv => lhs; rw [hline]
          exact List.getLast?_append_of_ne_nil _ htrim
        refine iff_of_false (fun hreturn => ?_) (fun h => h rfl)
        rw [hlast] at hreturn
        cases trim_getLast _ hreturn
      | succ b =>
        rw [List.replicate_succ', ← List.append_assoc] at hline
        exact iff_of_true (by rw [hline, List.getLast?_concat]) (Nat.succ_ne_zero b)

/-! ### Fence lines -/

/-- The run of markers a line begins with. -/
def leading (line : List Char) : Nat × Bool :=
  let ticks := (line.takeWhile (· == tick)).length
  if minFence ≤ ticks then (ticks, true) else ((line.takeWhile (· == '~')).length, false)

theorem fenceMarker_leading {line : List Char} {m : Nat × Bool} (h : fenceMarker line = some m) : m = leading line := by
  unfold fenceMarker at h
  unfold leading
  dsimp only at h ⊢
  split at h
  · rename_i hticks
    rw [if_pos hticks]
    split at h
    · cases h
    · exact (Option.some_inj.1 h).symm
  · rename_i hticks
    rw [if_neg hticks]
    split at h
    · split at h
      · cases h
      · exact (Option.some_inj.1 h).symm
    · cases h

theorem fenceMarker_head {line : List Char} {m : Nat × Bool} (h : fenceMarker line = some m) :
    ∃ c, line.head? = some c ∧ (c = tick ∨ c = '~') := by
  have hlength : 0 < (line.takeWhile (· == tick)).length ∨ 0 < (line.takeWhile (· == '~')).length := by
    unfold fenceMarker minFence at h
    dsimp only at h
    split at h
    · omega
    · split at h
      · omega
      · cases h
  rcases hlength with hticks | htildes
  · obtain ⟨c, hhead, hc⟩ := head_of_takeWhile hticks
    exact ⟨c, hhead, .inl (beq_iff_eq.1 hc)⟩
  · obtain ⟨c, hhead, hc⟩ := head_of_takeWhile htildes
    exact ⟨c, hhead, .inr (beq_iff_eq.1 hc)⟩

theorem leading_rdropWhile {white : Char → Bool} (htick : white tick = false) (htilde : white '~' = false)
    (line : List Char) : leading (line.rdropWhile white) = leading line := by
  have hticks := takeWhile_rdropWhile (p := (· == tick)) (fun c hc => beq_iff_eq.1 hc ▸ htick) line
  have htildes := takeWhile_rdropWhile (p := (· == '~')) (fun c hc => beq_iff_eq.1 hc ▸ htilde) line
  unfold leading
  rw [hticks, htildes]

/-- The fence lines of both notions of white space have the same marker. -/
theorem fenceMarker_unique {line : List Char} {m m' : Nat × Bool}
    (h : fenceMarker (trim isWhiteSpace line) = some m) (h' : fenceMarker (trim isWhitespace line) = some m') :
    m = m' := by
  have hhead : ∀ white : Char → Bool, ∀ m, fenceMarker (trim white line) = some m →
      ∃ c, (line.dropWhile white).head? = some c ∧ (c = tick ∨ c = '~') := by
    intro white m hm
    obtain ⟨c, hc, hmarker⟩ := fenceMarker_head hm
    obtain ⟨rest, hrest⟩ : trim white line <+: line.dropWhile white := List.rdropWhile_prefix _ _
    exact ⟨c, by rw [← hrest, List.head?_append, hc]; rfl, hmarker⟩
  obtain ⟨c, hc, hmarker⟩ := hhead _ m h
  obtain ⟨c', hc', hmarker'⟩ := hhead _ m' h'
  have hwhite : isWhitespace c = false := by rcases hmarker with rfl | rfl <;> decide
  have hwhite' : isWhiteSpace c' = false := by rcases hmarker' with rfl | rfl <;> decide
  rw [fenceMarker_leading h, fenceMarker_leading h']
  unfold trim
  rw [leading_rdropWhile (by decide) (by decide), leading_rdropWhile (by decide) (by decide),
    dropWhile_unique hc hwhite hc' hwhite']

/-- A fence line for both is one of the same kind, wherever it stands. -/
theorem read_alike {line : String} (h : fenceLine isWhiteSpace line = true) (h' : fenceLine isWhitespace line = true)
    (fence : Fence) :
    (∃ language language' fence', fence.read isWhiteSpace line = .opens language fence' ∧
        fence.read isWhitespace line = .opens language' fence') ∨
      (fence.read isWhiteSpace line = .closes ∧ fence.read isWhitespace line = .closes) ∨
        fence.read isWhiteSpace line = .content ∧ fence.read isWhitespace line = .content := by
  obtain ⟨m, hm⟩ := Option.isSome_iff_exists.1 h
  obtain ⟨m', hm'⟩ := Option.isSome_iff_exists.1 h'
  have hsame := fenceMarker_unique hm hm'
  subst hsame
  unfold Fence.read
  dsimp only
  rw [hm, hm']
  dsimp only
  split
  · exact .inl ⟨_, _, _, rfl, rfl⟩
  · split
    · exact .inr (.inl ⟨rfl, rfl⟩)
    · exact .inr (.inr ⟨rfl, rfl⟩)

end Hermo.Markdown.Android
