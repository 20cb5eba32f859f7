import Hermo.App.MarkdownMirror

/-!
# Where the two splitters agree

`Mirrors` is enough for the app to show the blocks of the core.  When it does, both read each line as content equally
often (`SameContents`), and for texts in which no line of the core holds two fence lines of the app, they then find the
same fence lines (`alike_of_same`), so that nothing less is enough (`split_mirrors`).
-/

namespace Hermo.Markdown.Android

open Splitting

/-! ### Pieces -/

theorem mem_pieces {line piece : String} (h : piece ∈ pieces line) :
    '\r' ∉ piece.toList ∧ piece.toList ⊆ line.toList := by
  obtain ⟨part, hpart, rfl⟩ := List.mem_map.1 h
  rw [String.toList_ofList]
  exact mem_splitOn hpart

/-- A line that neither begins nor ends with the `\r` it has, has two pieces that are not blank. -/
theorem exists_pieces {line : String} (h : '\r' ∈ line.toList) (hhead : line.toList.head? ≠ some '\r')
    (hlast : line.toList.getLast? ≠ some '\r') :
    ∃ first rest second, pieces line = first :: rest ∧ first ≠ "" ∧ second ∈ rest ∧ second ≠ "" := by
  obtain ⟨before, behind, hline, hbefore⟩ := List.eq_append_cons_of_mem h
  have hne : before ≠ [] := by
    rintro rfl
    exact hhead (by rw [hline]; rfl)
  obtain ⟨c, hc⟩ : ∃ c, behind.getLast? = some c := by
    rw [← Option.isSome_iff_exists, List.getLast?_isSome]
    rintro rfl
    exact hlast (by rw [hline, List.getLast?_concat])
  have hreturn : c ≠ '\r' := by
    rintro rfl
    refine hlast ?_
    rw [hline, List.getLast?_append_cons, List.getLast?_cons, hc]
    rfl
  obtain ⟨part, hpart, hin⟩ := exists_mem_splitOn hreturn (List.mem_of_getLast? hc)
  refine ⟨String.ofList before, (behind.splitOn '\r').map String.ofList, String.ofList part, ?_, ?_, ?_, ?_⟩
  · unfold pieces
    rw [hline, List.splitOn_append_cons_self_of_not_mem hbefore, List.map_cons]
  · exact fun hempty => hne (String.ofList_eq_empty_iff.1 hempty)
  · exact List.mem_map_of_mem hpart
  · intro hempty
    rw [String.ofList_eq_empty_iff.1 hempty] at hin
    cases hin

/-! ### Counting lines -/

section

variable {ended : Bool} {line : String} {lines : List String}

theorem count_appLines (h : line ≠ "") (ended : Bool) (lines : List String) :
    (appLines ended lines).count line = (lines.flatMap pieces).count line := by
  unfold appLines
  cases ended with
  | false => exact congrArg (List.count line) (List.append_nil _)
  | true =>
    have hlast : [""].count line = 0 := by
      rw [List.count_eq_zero, List.mem_singleton]
      exact h
    rw [if_pos rfl, List.count_append, hlast, Nat.add_zero]

theorem count_pieces (hline : '\r' ∉ line.toList) (first : String) :
    [first].count line ≤ (pieces first).count line ∧
      ('\r' ∉ first.toList ∨ line ∉ pieces first → (pieces first).count line = [first].count line) := by
  by_cases hfirst : '\r' ∈ first.toList
  · have hzero : [first].count line = 0 := by
      rw [List.count_eq_zero, List.mem_singleton]
      rintro rfl
      exact hline hfirst
    rw [hzero]
    exact ⟨Nat.zero_le _, fun h => List.count_eq_zero.2 (h.resolve_left (not_not_intro hfirst))⟩
  · rw [pieces_of_not_mem hfirst]
    exact ⟨Nat.le_refl _, fun _ => rfl⟩

/-- The app has each line of the core that has no `\r`. -/
theorem count_le_flatMap (hline : '\r' ∉ line.toList) (lines : List String) :
    lines.count line ≤ (lines.flatMap pieces).count line := by
  induction lines with
  | nil => exact Nat.zero_le _
  | cons first lines ih =>
    rw [List.flatMap_cons, List.count_append, count_first]
    exact Nat.add_le_add (count_pieces hline first).1 ih

theorem count_eq_flatMap (hline : '\r' ∉ line.toList)
    (h : ∀ first ∈ lines, '\r' ∈ first.toList → line ∉ pieces first) :
    (lines.flatMap pieces).count line = lines.count line := by
  induction lines with
  | nil => rfl
  | cons first lines ih =>
    rw [List.flatMap_cons, List.count_append, count_first, ih fun l hl => h l (List.mem_cons_of_mem first hl),
      (count_pieces hline first).2]
    exact not_or_of_imp (h first List.mem_cons_self)

/-- A piece of a longer line comes on top. -/
theorem count_lt_flatMap {first : String} (hfirst : first ∈ lines) (hreturn : '\r' ∈ first.toList)
    (h : line ∈ pieces first) : lines.count line < (lines.flatMap pieces).count line := by
  obtain ⟨before, behind, rfl⟩ := List.append_of_mem hfirst
  have hline := (mem_pieces h).1
  have hpos := List.count_pos_iff.2 h
  have hzero : [first].count line = 0 := by
    rw [List.count_eq_zero, List.mem_singleton]
    rintro rfl
    exact hline hreturn
  have hbefore := count_le_flatMap hline before
  have hbehind := count_le_flatMap hline behind
  rw [List.count_append, count_first, hzero, List.flatMap_append, List.flatMap_cons, List.count_append,
    List.count_append]
  omega

end

/-- Both read each line as content equally often. -/
def SameContents (ended : Bool) (fence : Fence) (lines : List String) : Prop :=
  ∀ line, line ≠ "" → (contents (marks isWhiteSpace fence lines)).count line =
    (contents (marks isWhitespace fence (appLines ended lines))).count line

namespace SameContents

variable {ended : Bool} {fence : Fence} {lines : List String} {first piece : String}

/-- The pieces of a line with a `\r` have to be fence lines for the app, as the core has no content to match them. -/
theorem fenceLine_piece (h : SameContents ended fence lines) (hfirst : first ∈ lines) (hreturn : '\r' ∈ first.toList)
    (hpiece : piece ∈ pieces first) (hne : piece ≠ "") : fenceLine isWhitespace piece = true := by
  by_contra hno
  have hcount := h piece hne
  rw [count_contents (Bool.eq_false_iff.2 hno), count_appLines hne] at hcount
  have hle := (contents_marks_sublist isWhiteSpace fence lines).count_le piece
  have hlt := count_lt_flatMap hfirst hreturn hpiece
  omega

/-- The app shows no `\r`, so the core must not either. -/
theorem not_content (h : SameContents ended fence lines) (hreturn : '\r' ∈ first.toList) :
    first ∉ contents (marks isWhiteSpace fence lines) := by
  have hne : first ≠ "" := by
    rintro rfl
    cases hreturn
  have happ : first ∉ contents (marks isWhitespace fence (appLines ended lines)) := by
    intro hmem
    have hlines := (contents_marks_sublist isWhitespace fence (appLines ended lines)).subset hmem
    rcases List.mem_append.1 hlines with hpiece | hlast
    · obtain ⟨line, -, hin⟩ := List.mem_flatMap.1 hpiece
      exact (mem_pieces hin).1 hreturn
    · cases ended with
      | false => cases hlast
      | true => exact hne (List.mem_singleton.1 hlast)
  rw [← List.count_eq_zero, h first hne, List.count_eq_zero]
  exact happ

theorem fenceLine_core (h : SameContents ended fence lines) (hfirst : first ∈ lines) (hreturn : '\r' ∈ first.toList) :
    fenceLine isWhiteSpace first = true := by
  by_contra hno
  refine h.not_content hreturn ?_
  rw [← List.count_pos_iff, count_contents (Bool.eq_false_iff.2 hno), List.count_pos_iff]
  exact hfirst

end SameContents

/-- At most one of the lines the app makes of a line of the core is a fence line. -/
def SingleFence (line : String) : Prop := (pieces line).countP (fenceLine isWhitespace) ≤ 1

theorem count_contents_blanks {line : String} (h : line ≠ "") (n : Nat) (marks : List Mark) :
    (contents (blanks n ++ marks)).count line = (contents marks).count line := by
  have hzero : (contents (blanks n)).count line = 0 := by
    rw [List.count_eq_zero]
    intro hmem
    obtain ⟨m, hm, hline⟩ := List.mem_filterMap.1 hmem
    rw [List.eq_of_mem_replicate hm] at hline
    exact h (Option.some_inj.1 hline).symm
  rw [contents_append, List.count_append, hzero, Nat.zero_add]

namespace SameContents

variable {ended : Bool} {fence fence' : Fence} {lines : List String} {first : String}

theorem bare_single (h : SameContents ended fence lines) (hfirst : first ∈ lines) (hreturn : '\r' ∈ first.toList)
    (hsingle : SingleFence first) : '\r' ∉ (bare first).toList := by
  intro hmem
  have hbare : (bare first).toList = trim (· == '\r') first.toList := String.toList_ofList
  have hhead : (bare first).toList.head? ≠ some '\r' := by
    intro hhead
    rw [hbare] at hhead
    cases trim_head _ hhead
  have hlast : (bare first).toList.getLast? ≠ some '\r' := by
    intro hlast
    rw [hbare] at hlast
    cases trim_getLast _ hlast
  obtain ⟨one, rest, two, hpieces, hone, htwo, hne⟩ := exists_pieces hmem hhead hlast
  obtain ⟨a, b, hfirstPieces, -⟩ := pieces_bare first
  have hin : ∀ piece, piece ∈ pieces (bare first) → piece ∈ pieces first := by
    intro piece hpiece
    rw [hfirstPieces]
    exact List.mem_append_left _ (List.mem_append_right _ hpiece)
  have hfence : ∀ piece, piece ∈ pieces (bare first) → piece ≠ "" → fenceLine isWhitespace piece = true :=
    fun piece hpiece => h.fenceLine_piece hfirst hreturn (hin piece hpiece)
  have hrest : 0 < rest.countP (fenceLine isWhitespace) := by
    refine List.countP_pos_iff.2 ⟨two, htwo, hfence two ?_ hne⟩
    rw [hpieces]
    exact List.mem_cons_of_mem one htwo
  have hcons : (one :: rest).countP (fenceLine isWhitespace) = rest.countP (fenceLine isWhitespace) + 1 :=
    List.countP_cons_of_pos (hfence one (hpieces ▸ List.mem_cons_self) hone)
  unfold SingleFence at hsingle
  rw [hfirstPieces, List.countP_append, List.countP_append, hpieces, hcons] at hsingle
  omega

/-- The line without the `\r` at its ends is a fence line for both. -/
theorem fenceLine_bare_app (h : SameContents ended fence lines) (hfirst : first ∈ lines)
    (hreturn : '\r' ∈ first.toList) (hsingle : SingleFence first) : fenceLine isWhitespace (bare first) = true := by
  obtain ⟨a, b, hpieces, -⟩ := pieces_bare first
  have hcore := h.fenceLine_core hfirst hreturn
  rw [pieces_of_not_mem (h.bare_single hfirst hreturn hsingle)] at hpieces
  refine h.fenceLine_piece hfirst hreturn ?_ ?_
  · rw [hpieces]
    exact List.mem_append_left _ (List.mem_append_right _ List.mem_cons_self)
  · intro hempty
    rw [fenceLine_bare, hempty] at hcore
    cases hcore

/-- A fence line of the app alone is no piece of a longer line. -/
theorem not_mem_pieces (h : SameContents ended fence lines) (hsingle : ∀ line ∈ lines, SingleFence line)
    (hne : first ≠ "") (hcore : fenceLine isWhiteSpace first = false) {line : String} (hline : line ∈ lines)
    (hreturn : '\r' ∈ line.toList) : first ∉ pieces line := by
  intro hmem
  obtain ⟨a, b, hpieces, -⟩ := pieces_bare line
  rw [pieces_of_not_mem (h.bare_single hline hreturn (hsingle line hline))] at hpieces
  have hbare : first = bare line := by
    rw [hpieces, List.mem_append, List.mem_append, List.mem_singleton] at hmem
    rcases hmem with (hblank | hbare) | hblank
    · exact absurd (List.eq_of_mem_replicate hblank) hne
    · exact hbare
    · exact absurd (List.eq_of_mem_replicate hblank) hne
  rw [hbare, ← fenceLine_bare, h.fenceLine_core hline hreturn] at hcore
  cases hcore

/-- Where only one of the two takes the line for a fence line, it is no fence line where it stands. -/
theorem read_content (h : SameContents ended fence (first :: lines)) (hreturn : '\r' ∉ first.toList)
    (hsingle : ∀ line ∈ first :: lines, SingleFence line)
    (hno : fenceLine isWhitespace first = false ∨ fenceLine isWhiteSpace first = false) :
    fence.read isWhiteSpace first = .content ∧ fence.read isWhitespace first = .content := by
  by_cases hne : first = ""
  · subst hne
    exact ⟨read_empty, read_empty⟩
  have hcount := h first hne
  have hlines : (first :: lines).count first = lines.count first + 1 := List.count_cons_self
  rcases hno with happ | hcore
  · refine ⟨?_, read_of_not_fenceLine happ⟩
    by_contra hread
    obtain ⟨fence', hmarks⟩ := contents_marks_cons isWhiteSpace fence first lines
    have hle := (contents_marks_sublist isWhiteSpace fence' lines).count_le first
    have hall := count_le_flatMap hreturn (first :: lines)
    rw [hmarks, if_neg hread, List.nil_append, count_contents happ, count_appLines hne] at hcount
    omega
  · refine ⟨read_of_not_fenceLine hcore, ?_⟩
    by_contra hread
    obtain ⟨fence', hmarks⟩ := contents_marks_cons isWhitespace fence first (appLines ended lines)
    have hle := (contents_marks_sublist isWhitespace fence' (appLines ended lines)).count_le first
    have hall := count_eq_flatMap hreturn fun line hline hreturn' =>
      h.not_mem_pieces hsingle hne hcore (List.mem_cons_of_mem first hline) hreturn'
    rw [count_contents hcore, appLines_cons, pieces_of_not_mem hreturn, List.singleton_append, hmarks, if_neg hread,
      List.nil_append] at hcount
    rw [count_appLines hne, hall] at hle
    omega

theorem content (h : SameContents ended fence (first :: lines))
    (hcore : fence.read isWhiteSpace first = .content) (happ : fence.read isWhitespace first = .content)
    (hline : '\r' ∉ first.toList) : SameContents ended fence lines := by
  intro line hne
  have hcount := h line hne
  rw [marks_content hcore, appLines_cons, pieces_of_not_mem hline, List.singleton_append, marks_content happ] at hcount
  have hcontents : ∀ marks, contents (.content first :: marks) = [first] ++ contents marks := fun _ => rfl
  rw [hcontents, hcontents, List.count_append, List.count_append] at hcount
  omega

theorem behind {m m' : Mark} (h : SameContents ended fence (first :: lines)) {a b : Nat}
    (hpieces : pieces first = List.replicate a "" ++ bare first :: List.replicate b "") (hm : m.line? = none)
    (hm' : m'.line? = none)
    (hcore : marks isWhiteSpace fence (first :: lines) = m :: marks isWhiteSpace fence' lines)
    (happ : ∀ more, marks isWhitespace fence (bare first :: more) = m' :: marks isWhitespace fence' more) :
    SameContents ended fence' lines := by
  intro line hne
  have hcount := h line hne
  have hmark : ∀ {m : Mark}, m.line? = none → ∀ marks, contents (m :: marks) = contents marks :=
    fun hm _ => List.filterMap_cons_none hm
  rw [hcore, marks_fence hpieces, happ, marks_blanks, count_contents_blanks hne, hmark hm, hmark hm'] at hcount
  rw [hcount]
  exact count_contents_blanks hne b _

end SameContents

theorem alike_of_same {ended : Bool} {lines : List String} {fence : Fence} (h : SameContents ended fence lines)
    (hsingle : ∀ line ∈ lines, SingleFence line) : Alike fence lines := by
  induction lines generalizing fence with
  | nil => exact .nil
  | cons first lines ih =>
    have hrest : ∀ line ∈ lines, SingleFence line := fun line hline => hsingle line (List.mem_cons_of_mem first hline)
    have hfirst := List.mem_cons_self (a := first) (l := lines)
    have hcontent : '\r' ∉ first.toList → fence.read isWhiteSpace first = .content →
        fence.read isWhitespace first = .content → Alike fence (first :: lines) :=
      fun hreturn hcore happ => .content hcore happ hreturn (ih (h.content hcore happ hreturn) hrest)
    -- a fence line for both is one of the same kind where it stands
    have hboth : '\r' ∉ (bare first).toList → fenceLine isWhiteSpace (bare first) = true →
        fenceLine isWhitespace (bare first) = true → Alike fence (first :: lines) := by
      intro hbare hcore happ
      rcases read_alike hcore happ fence with ⟨language, language', fence', hopens, hopens'⟩ | ⟨hcloses, hcloses'⟩ |
        ⟨hread, hread'⟩
      · rw [← read_bare] at hopens
        obtain ⟨a, b, hpieces, -⟩ := pieces_fence hopens' nofun hbare
        exact .opens hopens hopens' hbare
          (ih (h.behind hpieces rfl rfl (marks_opens hopens lines) fun more => marks_opens hopens' more) hrest)
      · rw [← read_bare] at hcloses
        obtain ⟨a, b, hpieces, -⟩ := pieces_fence hcloses' nofun hbare
        exact .closes hcloses hcloses' hbare
          (ih (h.behind hpieces rfl rfl (marks_closes hcloses lines) fun more => marks_closes hcloses' more) hrest)
      · rw [← read_bare] at hread
        by_cases hreturn : '\r' ∈ first.toList
        · refine absurd ?_ (h.not_content hreturn)
          rw [marks_content hread]
          exact List.mem_cons_self
        · rw [bare_of_not_mem hreturn] at hread'
          exact hcontent hreturn hread hread'
    by_cases hreturn : '\r' ∈ first.toList
    · have hsingleFirst := hsingle first hfirst
      refine hboth (h.bare_single hfirst hreturn hsingleFirst) ?_ (h.fenceLine_bare_app hfirst hreturn hsingleFirst)
      rw [← fenceLine_bare]
      exact h.fenceLine_core hfirst hreturn
    · by_cases hno : fenceLine isWhitespace first = false ∨ fenceLine isWhiteSpace first = false
      · obtain ⟨hcore, happ⟩ := h.read_content hreturn hsingle hno
        exact hcontent hreturn hcore happ
      · obtain ⟨happ, hcore⟩ := not_or.1 hno
        rw [← Bool.not_eq_true, not_not] at happ hcore
        rw [bare_of_not_mem hreturn] at hboth
        exact hboth hreturn hcore happ

/-! ### Whole texts -/

theorem core_lines_single {text line : String} (h : line ∈ Markdown.lines text) : '\n' ∉ line.toList := by
  unfold Markdown.lines at h
  obtain ⟨chars, hchars, rfl⟩ := List.mem_map.1 h
  rw [String.toList_ofList]
  rcases List.mem_append.1 hchars with hbefore | hlast
  · obtain ⟨segment, hsegment, rfl⟩ := List.mem_map.1 hbefore
    have hno := (mem_splitOn (List.dropLast_subset _ hsegment)).1
    unfold stripCr
    split
    · exact fun hmem => hno (List.dropLast_subset _ hmem)
    · exact hno
  · split at hlast
    · cases hlast
    · rw [List.mem_singleton.1 hlast, List.getLastD_eq_getLast?]
      have hne : text.toList.splitOn '\n' ≠ [] := List.splitOn_ne_nil _ _
      rw [List.getLast?_eq_some_getLast hne]
      exact (mem_splitOn (List.getLast_mem hne)).1

/-- The two splitters show the same languages and texts. -/
def SameBlocks (text : String) : Prop := (split text).map Block.shown = (splitBlocks text).map MarkdownBlock.shown

/-- The text ends with a newline. -/
def endsLine (text : String) : Bool := text.toList.getLast? == some '\n'

def MirrorsText (text : String) : Prop := Mirrors (endsLine text) {} .outside (Markdown.lines text)

theorem lines_eq_appLines {text : String} (h : text ≠ "") :
    lines text = appLines (endsLine text) (Markdown.lines text) := by
  rw [lines_eq]
  unfold appLines endsLine
  simp only [h, false_or, beq_iff_eq]

theorem sameBlocks_iff {text : String} (h : text ≠ "") :
    SameBlocks text ↔ (Shown.run {} (marks isWhiteSpace {} (Markdown.lines text))).finish =
      (Shown.run {} (marks isWhitespace {} (appLines (endsLine text) (Markdown.lines text)))).finish := by
  unfold SameBlocks
  rw [split_shown h, splitBlocks_shown, lines_eq_appLines h]
  exact eq_comm

theorem sameContents_of_same {ended : Bool} {lines : List String} (hlines : ∀ line ∈ lines, '\n' ∉ line.toList)
    (h : (Shown.run {} (marks isWhiteSpace {} lines)).finish =
      (Shown.run {} (marks isWhitespace {} (appLines ended lines))).finish) : SameContents ended {} lines := by
  have happ : ∀ line ∈ appLines ended lines, '\n' ∉ line.toList := by
    intro line hline
    rcases List.mem_append.1 hline with hpiece | hlast
    · obtain ⟨first, hfirst, hin⟩ := List.mem_flatMap.1 hpiece
      exact fun hmem => hlines first hfirst ((mem_pieces hin).2 hmem)
    · cases ended with
      | false => cases hlast
      | true =>
        rw [List.mem_singleton.1 hlast]
        exact List.not_mem_nil
  intro line hne
  have hcore := Shown.tally_run hne {} (marks isWhiteSpace {} lines) fun l hl =>
    hlines l ((contents_marks_sublist _ _ _).subset hl)
  have happ := Shown.tally_run hne {} (marks isWhitespace {} (appLines ended lines)) fun l hl =>
    happ l ((contents_marks_sublist _ _ _).subset hl)
  have htally : (Shown.run {} (marks isWhiteSpace {} lines)).tally line =
      (Shown.run {} (marks isWhitespace {} (appLines ended lines))).tally line := by
    unfold Shown.tally
    rw [h]
  omega

/-- A text whose lines read alike shows the same blocks in the app as in the core; and where no line of the core holds
two fence lines of the app, no other text does. -/
theorem split_mirrors (text : String) :
    (MirrorsText text → SameBlocks text) ∧
      ((∀ line ∈ Markdown.lines text, SingleFence line) → (SameBlocks text ↔ MirrorsText text)) := by
  by_cases hempty : text = ""
  · subst hempty
    have hmirrors : MirrorsText "" := .inr ⟨nofun, rfl⟩
    exact ⟨fun _ => rfl, fun _ => iff_of_true rfl hmirrors⟩
  have hstart : Place.outside.Holds {} {} := ⟨rfl, rfl⟩
  have henough : MirrorsText text → SameBlocks text := by
    intro h
    rw [sameBlocks_iff hempty]
    exact (h.alike.finish_iff _ hstart).2 h
  refine ⟨henough, fun hsingle => ⟨fun hsame => ?_, henough⟩⟩
  rw [sameBlocks_iff hempty] at hsame
  have hcontents := sameContents_of_same (fun line hline => core_lines_single hline) hsame
  exact ((alike_of_same hcontents hsingle).finish_iff _ hstart).1 hsame

/-- Lines that end in `\r\n`. -/
theorem split_mirrors_returns :
    let text := "a\r\n\x60\x60\x60kt\r\nfun"
    SameBlocks text ∧ (SameBlocks text ↔ MirrorsText text) := by
  intro text
  refine ⟨(split_mirrors text).1 ?_, (split_mirrors text).2 ?_⟩
  · unfold MirrorsText
    decide
  · unfold SingleFence
    decide

/-- A text that ends with a newline. -/
theorem newline_is_shown : ¬ SameBlocks "a\n" ∧ split "a\n" = [{ text := "a\n" }] ∧
    splitBlocks "a\n" = [⟨"", "a", true⟩] := by
  unfold SameBlocks
  decide

/-- Behind the first fence line the app opens another one, and yet shows the same. -/
example : SameBlocks "\x60\x60\x60\n\x60\x60\x60\r~~~\na" ∧
    ¬ MirrorsText "\x60\x60\x60\n\x60\x60\x60\r~~~\na" := by
  unfold SameBlocks MirrorsText
  decide

end Hermo.Markdown.Android
