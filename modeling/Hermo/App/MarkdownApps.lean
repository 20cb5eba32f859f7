import Hermo.App.MarkdownMarkers

/-!
# Where the two apps agree

`Mirrors` goes through the lines of the iOS app, for which `\r\n` ends no line, and is enough for both apps to split a
text alike.  For texts in which no line of the iOS app holds two fence lines of the Android app nothing less is
(`split_agrees`).
-/

namespace Hermo.Markdown.Ios

open Unicode
open Android (Block Splitter)

/-- What the Android app makes of a line. -/
abbrev android : Reader := (·.read Android.isWhitespace)

/-! ### The condition -/

section

variable [Tables]

/-- Both apps have the same blocks; `behind` a fence the Android app may have an empty one of its own. -/
def Mirrors : Bool → Fence → List String → Prop
  | behind, _, [] => behind = false
  | behind, fence, line :: lines =>
    match read fence line with
    | .opens language fence' =>
      behind = false ∧ '\r' ∉ line.toList ∧ android fence line = .opens language fence' ∧ Mirrors false fence' lines
    | .closes =>
      android fence ((Android.lines line).headD "") = .closes ∧ (∀ piece ∈ (Android.lines line).tail, piece = "") ∧
        Mirrors ((Android.lines line).tail != []) {} lines
    | .content => '\r' ∉ line.toList ∧ android fence line = .content ∧ Mirrors false fence lines

variable {behind : Bool} {fence fence' : Fence} {line language : String} {lines : List String}

theorem mirrors_opens (h : read fence line = .opens language fence') :
    Mirrors behind fence (line :: lines) ↔ behind = false ∧ '\r' ∉ line.toList ∧
      android fence line = .opens language fence' ∧ Mirrors false fence' lines := by
  rw [Mirrors, h]

theorem mirrors_closes (h : read fence line = .closes) :
    Mirrors behind fence (line :: lines) ↔ android fence ((Android.lines line).headD "") = .closes ∧
      (∀ piece ∈ (Android.lines line).tail, piece = "") ∧ Mirrors ((Android.lines line).tail != []) {} lines := by
  rw [Mirrors, h]

theorem mirrors_content (h : read fence line = .content) :
    Mirrors behind fence (line :: lines) ↔
      '\r' ∉ line.toList ∧ android fence line = .content ∧ Mirrors false fence lines := by
  rw [Mirrors, h]

instance Mirrors.decidable : (behind : Bool) → (fence : Fence) → (lines : List String) →
    Decidable (Mirrors behind fence lines)
  | behind, _, [] => inferInstanceAs (Decidable (behind = false))
  | _, fence, line :: lines =>
    match h : read fence line with
    | .opens _ fence' =>
      have := Mirrors.decidable false fence' lines
      decidable_of_iff _ (mirrors_opens h).symm
    | .closes =>
      have := Mirrors.decidable ((Android.lines line).tail != []) {} lines
      decidable_of_iff _ (mirrors_closes h).symm
    | .content =>
      have := Mirrors.decidable false fence lines
      decidable_of_iff _ (mirrors_content h).symm

end

/-! ### The two loops together -/

/-- Where the two loops stand, the Android app perhaps `behind` a fence with an empty block. -/
def Together : Bool → Android.Splitter → Android.Splitter → Prop
  | false, s, s' => s' = s
  | true, s, s' => s.current = none ∧ s.fence = {} ∧ s' = s.take "" .content

namespace Together

variable {behind : Bool} {s s' : Android.Splitter}

theorem fence_eq (h : Together behind s s') : s'.fence = s.fence := by
  cases behind with
  | false =>
    have hsame : s' = s := h
    rw [hsame]
  | true =>
    obtain ⟨hcurrent, -, rfl⟩ := h
    rw [Splitter.take_content_none hcurrent]

/-- Within a fence both loops stand at the same place. -/
theorem eq_of_fence (h : Together behind s s') (hfence : s.fence ≠ {}) : s' = s := by
  cases behind with
  | false => exact h
  | true => exact absurd h.2.1 hfence

/-- An empty block takes the next line as if there were none. -/
theorem content (h : Together behind s s') (line : String) :
    Together false (s.take line .content) (s'.take line .content) := by
  cases behind with
  | false => exact congrArg (Splitter.take · line .content) h
  | true =>
    obtain ⟨hcurrent, -, rfl⟩ := h
    change (s.take "" .content).take line .content = s.take line .content
    rw [Splitter.take_content_none hcurrent, Splitter.take_content_none hcurrent]
    rfl

/-- Blank lines behind the closing one. -/
theorem closes (s : Android.Splitter) (line : String) {more : List String} (h : ∀ piece ∈ more, piece = "") :
    Together (more != []) (s.take line .closes) ((s.take line .closes).runBy android more) := by
  have hblank : (s.take line .closes).runBy android [""] = (s.take line .closes).take "" .content := rfl
  cases more with
  | nil => rfl
  | cons piece more =>
    refine ⟨rfl, rfl, ?_⟩
    obtain ⟨rfl, hmore⟩ := List.forall_mem_cons.1 h
    rw [← List.singleton_append, Splitter.runBy_append, hblank]
    clear h
    induction more with
    | nil => rfl
    | cons piece more ih =>
      obtain ⟨rfl, hrest⟩ := List.forall_mem_cons.1 hmore
      exact ih hrest

end Together

/-- A line end of two characters stands in no line without the first of them. -/
def Returns (lines : List String) : Prop := ∀ line ∈ lines, '\n' ∈ line.toList → '\r' ∈ line.toList

theorem Returns.lines_eq {line : String} {lines : List String} (h : Returns (line :: lines))
    (hline : '\r' ∉ line.toList) : Android.lines line = [line] :=
  Android.lines_of_not_mem hline fun hlf => hline (h line List.mem_cons_self hlf)

theorem Returns.tail {line : String} {lines : List String} (h : Returns (line :: lines)) : Returns lines :=
  fun line hline => h line (List.mem_cons_of_mem _ hline)

theorem Mirrors.same [Tables] {behind : Bool} {lines : List String} {s s' : Android.Splitter}
    (h : Mirrors behind s.fence lines) (htogether : Together behind s s') (hlines : Returns lines) :
    s.blocksBy read lines = s'.blocksBy android (lines.flatMap Android.lines) := by
  induction lines generalizing behind s s' with
  | nil =>
    have hbehind : behind = false := h
    subst hbehind
    have hsame : s' = s := htogether
    rw [hsame, List.flatMap_nil, Splitter.blocksBy_nil, Splitter.blocksBy_nil]
  | cons line lines ih =>
    rw [List.flatMap_cons, Splitter.blocksBy_cons]
    cases hread : read s.fence line with
    | opens language fence =>
      obtain ⟨rfl, hline, handroid, hrest⟩ := (mirrors_opens hread).1 h
      have hsame : s' = s := htogether
      rw [hsame, hlines.lines_eq hline, List.singleton_append, Splitter.blocksBy_cons, handroid]
      exact ih hrest rfl hlines.tail
    | closes =>
      obtain ⟨hhead, hblank, hrest⟩ := (mirrors_closes hread).1 h
      obtain ⟨first, more, hpieces⟩ := List.exists_cons_of_ne_nil (Android.lines_ne_nil line)
      rw [hpieces] at hhead hblank hrest
      have hfirst : android s.fence first = .closes := hhead
      rw [htogether.eq_of_fence (Fence.apply_closes hread).1, hpieces, List.cons_append, Splitter.blocksBy_cons, hfirst,
        Splitter.blocksBy_append]
      exact ih hrest (Together.closes s first hblank) hlines.tail
    | content =>
      obtain ⟨hline, handroid, hrest⟩ := (mirrors_content hread).1 h
      rw [hlines.lines_eq hline, List.singleton_append, Splitter.blocksBy_cons, htogether.fence_eq, handroid]
      rw [← (s.content_fence line).1] at hrest
      exact ih hrest (htogether.content line) hlines.tail

/-! ### Where they part -/

section

variable {r r' : Reader} {s t : Android.Splitter} {text text' : String} {more more' : List String}

/-- A block that was ended does not have the text of one that has gone on. -/
theorem text_parts (hs : s.current = some text) (ht : t.current = some text')
    (hplace : s.blocks.length = t.blocks.length) (hlonger : text.length < text'.length) (line : String)
    {reading : Reading} (hreading : reading ≠ .content) :
    (s.take line reading).blocksBy r more ≠ t.blocksBy r' more' := by
  intro hsame
  have hended := Splitter.pending_stays r hs line hreading more
  obtain ⟨b, hb, -, -, hprefix⟩ := Splitter.current_goes_on r' ht more'
  rw [hsame, hplace, hb] at hended
  cases hended
  have hle := hprefix.length_le
  rw [String.length_toList, String.length_toList] at hle
  exact absurd (Nat.lt_of_lt_of_le hlonger hle) (Nat.lt_irrefl _)

/-- Two blocks at one place have the same kind and language. -/
theorem kind_unique (hs : s.current = some text) (ht : t.current = some text')
    (hplace : s.blocks.length = t.blocks.length) (h : s.blocksBy r more = t.blocksBy r' more') :
    s.currentIsFence = t.currentIsFence ∧ s.currentLanguage = t.currentLanguage := by
  obtain ⟨b, hb, hlanguage, hkind, -⟩ := Splitter.current_goes_on r hs more
  obtain ⟨b', hb', hlanguage', hkind', -⟩ := Splitter.current_goes_on r' ht more'
  rw [h, hplace, hb'] at hb
  cases hb
  exact ⟨hkind.symm.trans hkind', hlanguage.symm.trans hlanguage'⟩

/-- A fence line for one is none for the other. -/
theorem reading_parts {line line' : String} (hline : line' ≠ "") {reading : Reading} (hreading : reading ≠ .content)
    (hcloses : reading = .closes → s.current.isSome) :
    (s.take line reading).blocksBy r more ≠ (s.take line' .content).blocksBy r' more' := by
  cases hcurrent : s.current with
  | some text =>
    have hpos : line'.length ≠ 0 := fun hzero => hline (String.length_eq_zero_iff.1 hzero)
    have hlength := Shown.length_appendLine text line'
    have htake := Splitter.take_content_some hcurrent line'
    have hlonger : text.length < (appendLine text line').length := by omega
    exact text_parts hcurrent (by rw [htake]) (by rw [htake]) hlonger line hreading
  | none =>
    rw [hcurrent] at hcloses
    cases reading with
    | content => exact absurd rfl hreading
    | closes => cases hcloses rfl
    | opens language fence =>
      intro hsame
      have hflush := congrArg List.length (Splitter.flush_none hcurrent)
      have htake := Splitter.take_content_none hcurrent line'
      have hkind := (kind_unique (s := s.take line (.opens language fence)) (t := s.take line' .content) rfl
        (by rw [htake]) (by rw [htake]; exact hflush) hsame).1
      rw [htake] at hkind
      cases hkind

end

/-! ### What is shown -/

theorem trim_subset (white : Char → Bool) (line : List Char) : trim white line ⊆ line :=
  List.Subset.trans (List.rdropWhile_prefix _ _).subset (List.dropWhile_subset white)

/-- A mark has only the characters of its line. -/
theorem count_marks_zero {white : Char → Bool} {c : Char} {lines : List String}
    (h : ∀ line ∈ lines, c ∉ line.toList) (fence : Fence) :
    ∀ m ∈ marksBy (·.read white) fence lines, m.count c = 0 := by
  induction lines generalizing fence with
  | nil => exact nofun
  | cons line lines ih =>
    obtain ⟨hline, hlines⟩ := List.forall_mem_cons.1 h
    cases hread : fence.read white line with
    | opens language fence' =>
      rw [marksBy_opens hread, List.forall_mem_cons]
      refine ⟨List.count_eq_zero.2 fun hmem => hline ?_, ih hlines fence'⟩
      rw [Fence.read_eq_apply] at hread
      obtain ⟨-, len, isTick, -, rfl, -⟩ := Fence.apply_opens hread
      rw [String.toList_ofList] at hmem
      exact trim_subset _ _ (List.drop_subset _ _ (trim_subset _ _ hmem))
    | closes =>
      rw [marksBy_closes hread, List.forall_mem_cons]
      exact ⟨rfl, ih hlines {}⟩
    | content =>
      rw [marksBy_content hread, List.forall_mem_cons]
      exact ⟨List.count_eq_zero.2 hline, ih hlines fence⟩

/-- A piece that stands alone is a line of the Android app as well. -/
theorem count_le_pieces {piece : String} (h : Android.lines piece = [piece]) (lines : List String) :
    lines.count piece ≤ (lines.flatMap Android.lines).count piece := by
  induction lines with
  | nil => exact Nat.le_refl _
  | cons line lines ih =>
    rw [List.flatMap_cons, List.count_append, Splitting.count_first]
    refine Nat.add_le_add ?_ ih
    by_cases hline : line = piece
    · rw [hline, h]
    · rw [List.count_singleton, if_neg fun heq => hline (beq_iff_eq.1 heq)]
      exact Nat.zero_le _

/-- No line end is shown. -/
def Clean [Tables] (fence : Fence) (lines : List String) : Prop := ∀ m ∈ marksBy read fence lines, m.count '\r' = 0

section

variable [Tables] {s : Android.Splitter} {lines pieces : List String}

theorem finish_congr (h : s.blocksBy read lines = s.blocksBy android pieces) :
    (s.shown.run (marksBy read s.fence lines)).finish = (s.shown.run (marksBy android s.fence pieces)).finish := by
  rw [← Splitter.blocksBy_shown, ← Splitter.blocksBy_shown, h]

theorem clean_of_same (hpieces : ∀ piece ∈ pieces, '\r' ∉ piece.toList)
    (h : s.blocksBy read lines = s.blocksBy android pieces) : Clean s.fence lines := by
  have hamount : (s.shown.run (marksBy read s.fence lines)).amount '\r' =
      (s.shown.run (marksBy android s.fence pieces)).amount '\r' := by
    unfold Shown.amount
    rw [finish_congr h]
  have hzero : ((marksBy android s.fence pieces).map (Mark.count '\r')).sum = 0 := by
    rw [List.sum_eq_zero_iff_forall_eq_nat, List.forall_mem_map]
    exact count_marks_zero hpieces s.fence
  rw [Shown.amount_run (by decide), Shown.amount_run (by decide), hzero, Nat.add_zero, Nat.add_eq_left,
    List.sum_eq_zero_iff_forall_eq_nat, List.forall_mem_map] at hamount
  exact hamount

/-- What the Android app reads as content behind a fence line is read by the iOS app nowhere. -/
theorem blank_of_same (hclean : Clean s.fence lines) (hlines : Returns lines) {more : List String} {piece : String}
    (hpiece : piece ∈ more) (hmore : ∀ piece ∈ more, '\r' ∉ piece.toList ∧ '\n' ∉ piece.toList)
    (hcontent : fenceLine Android.isWhitespace piece = false)
    (h : s.blocksBy read lines = s.blocksBy android (more ++ lines.flatMap Android.lines)) : piece = "" := by
  by_contra hne
  have htally : (s.shown.run (marksBy read s.fence lines)).tally piece =
      (s.shown.run (marksBy android s.fence (more ++ lines.flatMap Android.lines))).tally piece := by
    unfold Shown.tally
    rw [finish_congr h]
  have hios : ∀ added ∈ contents (marksBy read s.fence lines), '\n' ∉ added.toList := by
    intro added hadded hlf
    have hreturn := hlines added ((contents_marksBy_sublist read s.fence lines).subset hadded) hlf
    obtain ⟨m, hm, hline⟩ := List.mem_filterMap.1 hadded
    cases m with
    | content line =>
      cases hline
      exact List.count_eq_zero.1 (hclean _ hm) hreturn
    | opens language => cases hline
    | closes => cases hline
  have hall : ∀ added ∈ contents (marksBy android s.fence (more ++ lines.flatMap Android.lines)),
      '\n' ∉ added.toList := by
    intro added hadded
    rcases List.mem_append.1 ((contents_marksBy_sublist _ _ _).subset hadded) with hin | hin
    · exact (hmore added hin).2
    · obtain ⟨line, -, hline⟩ := List.mem_flatMap.1 hin
      exact (Android.mem_lines hline).2
  have hle := (contents_marksBy_sublist read s.fence lines).count_le piece
  have hpieces := count_le_pieces (Android.lines_of_not_mem (hmore piece hpiece).1 (hmore piece hpiece).2) lines
  have hpos := List.count_pos_iff.2 hpiece
  rw [Shown.tally_run hne _ _ hios, Shown.tally_run hne _ _ hall, marksBy_white, count_contents hcontent,
    List.count_append] at htally
  omega

end

/-- At most one of the lines that the Android app makes of a line is a fence line. -/
def SingleFence (line : String) : Prop := (Android.lines line).countP (fenceLine Android.isWhitespace) ≤ 1

theorem fenceLine_of_read {fence : Fence} {line : String} (h : android fence line ≠ .content) :
    fenceLine Android.isWhitespace line = true := by
  by_contra hno
  exact h (read_of_not_fenceLine (Bool.eq_false_iff.2 hno))

theorem isMarker_of_white {isTick : Bool} {c : Char} (h : isMarker isTick c = true) :
    isWhitespace c = false ∧ Android.isWhitespace c = false := by
  rcases isMarker_cases h with rfl | rfl | rfl <;> decide

/-- Where the fence line of both has the same language, it opens the same fence. -/
theorem opens_unique [Tables] [MarkerTables] {fence fence' : Fence} {line language : String} {f f' : Fence}
    (h : read fence line = .opens language f) (h' : android fence' line = .opens language f') : f = f' := by
  obtain ⟨isTick, run, hopening⟩ := opening h
  obtain ⟨isTick', run', hopening'⟩ := Fence.opening h'
  refine hopening.unique hopening' ?_ ?_
  · intro b c hwhite
    refine Bool.eq_false_iff.2 fun hmarker => ?_
    rw [(isMarker_of_white hmarker).1] at hwhite
    cases hwhite
  · intro b c hwhite
    refine Bool.eq_false_iff.2 fun hmarker => ?_
    rw [(isMarker_of_white hmarker).2] at hwhite
    cases hwhite

/-- A closing line has its marker in front of the line ends. -/
theorem lines_of_closes [Tables] [MarkerTables] {fence : Fence} {line : String} (h : read fence line = .closes) :
    ∃ first more, Android.lines line = first :: more ∧ first ≠ "" := by
  obtain ⟨m, hm⟩ := Option.isSome_iff_exists.1 (Fence.apply_closes h).2
  obtain ⟨c, rest, hline, hc⟩ := head_of_marker hm
  have hne : c ≠ '\r' ∧ c ≠ '\n' := by simpa [plain] using hc
  obtain ⟨first, more, hrest⟩ := List.exists_cons_of_ne_nil (Android.splitLines_ne_nil rest)
  refine ⟨String.ofList (c :: first), more.map String.ofList, ?_, ?_⟩
  · unfold Android.lines
    rw [hline, Android.splitLines_cons fun hcr => hne.1 hcr.1, if_neg (not_or.2 ⟨hne.2, hne.1⟩), hrest]
    rfl
  · exact fun hempty => List.cons_ne_nil _ _ (String.ofList_eq_empty_iff.1 hempty)

theorem ne_empty_of_read [Tables] {fence : Fence} {line : String} (h : read fence line ≠ .content) : line ≠ "" := by
  rintro rfl
  exact h rfl

section

variable [Tables] {behind : Bool} {s s' : Android.Splitter} {line : String} {lines : List String}

/-- What the iOS app reads as content the Android app does. -/
theorem content_of_same (htogether : Together behind s s') (hcurrent : s.fence ≠ {} → s.current.isSome)
    (hline : Android.lines line = [line]) (hread : read s.fence line = .content)
    (hsame : s.blocksBy read (line :: lines) = s'.blocksBy android ((line :: lines).flatMap Android.lines)) :
    android s.fence line = .content := by
  rw [List.flatMap_cons, hline, List.singleton_append, Splitter.blocksBy_cons, Splitter.blocksBy_cons, hread,
    htogether.fence_eq] at hsame
  by_contra hno
  have hne : line ≠ "" := by
    rintro rfl
    exact hno rfl
  cases behind with
  | false =>
    have heq : s' = s := htogether
    rw [heq] at hsame
    refine reading_parts hne hno (fun hcloses => hcurrent ?_) hsame.symm
    exact (Fence.apply_closes hcloses).1
  | true =>
    obtain ⟨hnone, -, rfl⟩ := htogether
    have hpos : line.length ≠ 0 := fun hzero => hne (String.length_eq_zero_iff.1 hzero)
    have hbehind := Splitter.take_content_none hnone ""
    have hfirst := Splitter.take_content_none hnone line
    -- the Android app ends its empty block here
    refine text_parts (s := s.take "" .content) (t := s.take line .content) (by rw [hbehind]) (by rw [hfirst])
      (by rw [hbehind, hfirst]) ?_ line hno hsame.symm
    exact Nat.pos_of_ne_zero hpos

theorem opens_of_same [MarkerTables] {language : String} {fence : Fence} (htogether : Together behind s s')
    (hlines : Returns (line :: lines)) (hclean : Clean s.fence (line :: lines))
    (hread : read s.fence line = .opens language fence)
    (hsame : s.blocksBy read (line :: lines) = s'.blocksBy android ((line :: lines).flatMap Android.lines)) :
    behind = false ∧ '\r' ∉ line.toList ∧ android s.fence line = .opens language fence := by
  have hbehind : behind = false := by
    cases behind with
    | false => rfl
    | true =>
      obtain ⟨hnone, -, rfl⟩ := htogether
      have htake := Splitter.take_content_none hnone ""
      have hflush := congrArg List.length (Splitter.flush_none hnone)
      rw [Splitter.blocksBy_cons, hread] at hsame
      have hkind := (kind_unique (s := s.take line (.opens language fence)) (t := s.take "" .content) rfl
        (by rw [htake]) (by rw [htake]; exact hflush) hsame).1
      rw [htake] at hkind
      cases hkind
  subst hbehind
  have heq : s' = s := htogether
  subst heq
  have hline : '\r' ∉ line.toList := by
    intro hreturn
    unfold Clean at hclean
    rw [marksBy_opens hread] at hclean
    exact List.count_eq_zero.1 (hclean _ List.mem_cons_self) (return_mem_language hread hreturn)
  have hne : line ≠ "" := ne_empty_of_read (hread ▸ nofun : read s'.fence line ≠ .content)
  rw [List.flatMap_cons, hlines.lines_eq hline, List.singleton_append, Splitter.blocksBy_cons, Splitter.blocksBy_cons,
    hread] at hsame
  refine ⟨rfl, hline, ?_⟩
  cases handroid : android s'.fence line with
  | content =>
    rw [handroid] at hsame
    exact absurd hsame (reading_parts hne nofun nofun)
  | closes => exact absurd (Fence.apply_opens hread).1 (Fence.apply_closes handroid).1
  | opens language' fence' =>
    rw [handroid] at hsame
    have hlanguage : language = language' := (kind_unique (s := s'.take line (.opens language fence))
      (t := s'.take line (.opens language' fence')) rfl rfl rfl hsame).2
    subst hlanguage
    rw [opens_unique hread handroid]

theorem closes_of_same (hcurrent : s.fence ≠ {} → s.current.isSome) (hread : read s.fence line = .closes)
    {first : String} {more : List String} (hpieces : Android.lines line = first :: more) (hfirst : first ≠ "")
    (hsame : s.blocksBy read (line :: lines) = s.blocksBy android ((line :: lines).flatMap Android.lines)) :
    android s.fence first = .closes := by
  rw [List.flatMap_cons, hpieces, List.cons_append, Splitter.blocksBy_cons, Splitter.blocksBy_cons, hread] at hsame
  have hfence := (Fence.apply_closes hread).1
  cases handroid : android s.fence first with
  | content =>
    rw [handroid] at hsame
    exact absurd hsame (reading_parts hfirst nofun fun _ => hcurrent hfence)
  | closes => rfl
  | opens language fence => exact absurd (Fence.apply_opens handroid).1 hfence

end

theorem mirrors_of_same [Tables] [MarkerTables] {behind : Bool} {lines : List String} {s s' : Android.Splitter}
    (htogether : Together behind s s') (hcurrent : s.fence ≠ {} → s.current.isSome) (hlines : Returns lines)
    (hsingle : ∀ line ∈ lines, SingleFence line) (hclean : Clean s.fence lines)
    (hsame : s.blocksBy read lines = s'.blocksBy android (lines.flatMap Android.lines)) :
    Mirrors behind s.fence lines := by
  induction lines generalizing behind s s' with
  | nil =>
    cases behind with
    | false => rfl
    | true =>
      obtain ⟨hnone, -, rfl⟩ := htogether
      have hlength := congrArg List.length hsame
      unfold Splitter.blocksBy Splitter.runBy Splitter.flush at hlength
      rw [Splitter.take_content_none hnone, List.foldl_nil, hnone] at hlength
      rw [List.length_append, List.flatMap_nil, List.foldl_nil, List.length_append] at hlength
      cases Nat.add_left_cancel hlength
  | cons line lines ih =>
    obtain ⟨hfirstSingle, hrestSingle⟩ := List.forall_mem_cons.1 hsingle
    cases hread : read s.fence line with
    | opens language fence =>
      obtain ⟨rfl, hline, handroid⟩ := opens_of_same htogether hlines hclean hread hsame
      have heq : s' = s := htogether
      subst heq
      rw [List.flatMap_cons, hlines.lines_eq hline, List.singleton_append, Splitter.blocksBy_cons,
        Splitter.blocksBy_cons, hread, handroid] at hsame
      unfold Clean at hclean
      rw [marksBy_opens hread] at hclean
      exact (mirrors_opens hread).2 ⟨rfl, hline, handroid, ih (s := s'.take line (.opens language fence)) rfl
        (fun _ => rfl) hlines.tail hrestSingle (List.forall_mem_cons.1 hclean).2 hsame⟩
    | closes =>
      have heq := htogether.eq_of_fence (Fence.apply_closes hread).1
      subst heq
      obtain ⟨first, more, hpieces, hfirst⟩ := lines_of_closes hread
      have handroid := closes_of_same hcurrent hread hpieces hfirst hsame
      unfold Clean at hclean
      rw [marksBy_closes hread] at hclean
      have hrestClean := (List.forall_mem_cons.1 hclean).2
      rw [List.flatMap_cons, hpieces, List.cons_append, Splitter.blocksBy_cons, Splitter.blocksBy_cons, hread,
        handroid] at hsame
      have hmem : ∀ piece ∈ more, '\r' ∉ piece.toList ∧ '\n' ∉ piece.toList := by
        intro piece hpiece
        have hin : piece ∈ Android.lines line := hpieces ▸ List.mem_cons_of_mem first hpiece
        exact Android.mem_lines hin
      have hblank : ∀ piece ∈ more, piece = "" := by
        intro piece hpiece
        refine blank_of_same (s := s'.take line .closes) hrestClean hlines.tail hpiece hmem ?_ hsame
        -- the closing line is the only fence line of the line
        have hfence := fenceLine_of_read (handroid ▸ nofun : android s'.fence first ≠ .content)
        unfold SingleFence at hfirstSingle
        rw [hpieces, List.countP_cons_of_pos hfence] at hfirstSingle
        have hzero : more.countP (fenceLine Android.isWhitespace) = 0 := by omega
        exact Bool.eq_false_iff.2 (List.countP_eq_zero.1 hzero piece hpiece)
      refine (mirrors_closes hread).2 ?_
      rw [hpieces]
      rw [Splitter.blocksBy_append] at hsame
      have hbehind := Together.closes s' line hblank
      exact ⟨handroid, hblank, ih (s := s'.take line .closes) hbehind (fun hne => absurd rfl hne) hlines.tail
        hrestSingle hrestClean hsame⟩
    | content =>
      have hreturn : '\r' ∉ line.toList := by
        unfold Clean at hclean
        rw [marksBy_content hread] at hclean
        exact List.count_eq_zero.1 (hclean _ List.mem_cons_self)
      have handroid := content_of_same htogether hcurrent (hlines.lines_eq hreturn) hread hsame
      rw [List.flatMap_cons, hlines.lines_eq hreturn, List.singleton_append, Splitter.blocksBy_cons,
        Splitter.blocksBy_cons, hread, htogether.fence_eq, handroid] at hsame
      obtain ⟨hfence, hblock⟩ := s.content_fence line
      have hrestClean : Clean (s.take line .content).fence lines := by
        unfold Clean at hclean ⊢
        rw [marksBy_content hread] at hclean
        rw [hfence]
        exact (List.forall_mem_cons.1 hclean).2
      have hrest := ih (htogether.content line) (fun _ => hblock) hlines.tail hrestSingle hrestClean hsame
      rw [hfence] at hrest
      exact (mirrors_content hread).2 ⟨hreturn, handroid, hrest⟩

/-! ### Whole texts -/

/-- A text whose lines both apps read alike is split alike; and where no line of the iOS app holds two fence lines of
the Android app, no other text is. -/
theorem split_agrees [Tables] [MarkerTables] (text : String) :
    (Mirrors false {} (lines text) → split text = Android.split text) ∧
      ((∀ line ∈ lines text, SingleFence line) →
        (split text = Android.split text ↔ Mirrors false {} (lines text))) := by
  by_cases hempty : text = ""
  · subst hempty
    have hlines : lines "" = [""] := by
      rw [lines_eq]
      rfl
    have hmirrors : Mirrors false {} (lines "") := by
      rw [hlines]
      exact (mirrors_content rfl).2 ⟨List.not_mem_nil, rfl, rfl⟩
    have hios : split "" = [] := if_pos rfl
    have handroid : Android.split "" = [] := if_pos rfl
    rw [hios, handroid]
    exact ⟨fun _ => rfl, fun _ => iff_of_true rfl hmirrors⟩
  have hstart : Together false {} {} := rfl
  have hlines : Returns (lines text) := fun line hline => return_mem_line hline
  have hpieces : ∀ piece ∈ (lines text).flatMap Android.lines, '\r' ∉ piece.toList := by
    intro piece hpiece
    rw [← lines_android] at hpiece
    exact (Android.mem_lines hpiece).1
  rw [split_eq hempty, Android.split_eq hempty, lines_android]
  refine ⟨fun h => h.same hstart hlines, fun hsingle => ⟨fun hsame => ?_, fun h => h.same hstart hlines⟩⟩
  have hclean := clean_of_same hpieces hsame
  exact mirrors_of_same hstart (fun hne => absurd rfl hne) hlines hsingle hclean hsame

section

attribute [local instance] latin

instance markers_latin : @MarkerTables latin where
  decomposition_iff := by
    intro isTick c
    have hother : c ≠ 'é' → c ≠ 'ń' → c ≠ '\u1FEF' → Tables.decomposition c = [c] := by
      intro hacute hnacute hvaria
      exact (if_neg hacute).trans ((if_neg hnacute).trans (if_neg hvaria))
    by_cases hacute : c = 'é'
    · subst hacute
      cases isTick <;> decide
    by_cases hnacute : c = 'ń'
    · subst hnacute
      cases isTick <;> decide
    by_cases hvaria : c = '\u1FEF'
    · subst hvaria
      cases isTick <;> decide
    rw [hother hacute hnacute hvaria, List.singleton_inj]
    unfold isMarker markerChar
    cases isTick <;> simp [hvaria]

/-- A closing line that ends in `\r\n`, and a blank line behind it. -/
theorem split_agrees_behind :
    let text := "\x60\x60\x60\nx\n\x60\x60\x60\r\n\ny"
    split text = Android.split text ∧ (split text = Android.split text ↔ Mirrors false {} (lines text)) := by
  intro text
  refine ⟨(split_agrees text).1 ?_, (split_agrees text).2 ?_⟩
  · decide +kernel
  · unfold SingleFence
    decide +kernel

/-- Lines that end in `\r\n`, a mark on the last backtick, and a white space of Kotlin alone. -/
theorem apps_differ :
    (split "a\r\nb" = [{ text := "a\r\nb" }] ∧ Android.split "a\r\nb" = [{ text := "a\nb" }]) ∧
      split "\x60\x60\x60\u0301" ≠ Android.split "\x60\x60\x60\u0301" ∧
        split "\u000B\x60\x60\x60" ≠ Android.split "\u000B\x60\x60\x60" := by
  decide +kernel

/-- The Android app closes a fence in the first line and opens one in the next, and yet has the same blocks. -/
example :
    let text := "\x60\x60\x60\na\n\x60\x60\x60\r\n~~~\n~~~"
    split text = Android.split text ∧ ¬ Mirrors false {} (lines text) := by
  decide +kernel

end

end Hermo.Markdown.Ios
