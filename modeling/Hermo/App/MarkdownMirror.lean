import Hermo.App.MarkdownReadings

/-!
# The mirror of the splitter

`Mirrors` goes through the lines of the core and says when the app shows the same blocks: each line has to read alike
with both notions of white space, a `\r` of its own may only stand at the ends of a fence line, and the text may end in
a newline only where the current block is still empty.  `split_mirrors` shows that this is enough, and for texts in
which no line of the core holds two fence lines of the app, that nothing less is.
-/

namespace Hermo.Markdown.Android

/-- The lines of the app, for these lines of the core. -/
def appLines (ended : Bool) (lines : List String) : List String :=
  lines.flatMap pieces ++ if ended then [""] else []

theorem appLines_cons (ended : Bool) (line : String) (lines : List String) :
    appLines ended (line :: lines) = pieces line ++ appLines ended lines := by
  unfold appLines
  rw [List.flatMap_cons, List.append_assoc]

/-! ### The condition -/

/-- Where the loops stand: no block, an empty block of the app alone, an empty block, a block with text. -/
inductive Place where
  | outside
  | behind
  | blank
  | text
  deriving DecidableEq, Repr

def Place.append (place : Place) (line : String) : Place := if line ≠ "" ∨ place = .text then .text else .blank

/-- A fence line may stand here: the `\r` in front of it are blank lines for the app. -/
structure Place.Takes (place : Place) (line : String) : Prop where
  single : '\r' ∉ (bare line).toList
  settled : place ≠ .behind
  blank : line.toList.head? = some '\r' → place = .blank

/-- The app shows the blocks of the core; `ended` when the text ends with a newline. -/
def Mirrors (ended : Bool) : Fence → Place → List String → Prop
  | _, place, [] => place = .blank ∨ place ≠ .behind ∧ ended = false
  | fence, place, line :: lines =>
    fence.read isWhiteSpace line = fence.read isWhitespace (bare line) ∧
      match fence.read isWhiteSpace line with
      | .opens _ fence' => place.Takes line ∧ Mirrors ended fence' .blank lines
      | .closes =>
        place.Takes line ∧
          Mirrors ended {} (if line.toList.getLast? = some '\r' then .behind else .outside) lines
      | .content => '\r' ∉ line.toList ∧ Mirrors ended fence (place.append line) lines

section

variable {ended : Bool} {fence fence' : Fence} {place : Place} {line language : String} {lines : List String}

theorem mirrors_opens (h : fence.read isWhiteSpace line = .opens language fence') :
    Mirrors ended fence place (line :: lines) ↔ fence.read isWhitespace (bare line) = .opens language fence' ∧
      place.Takes line ∧ Mirrors ended fence' .blank lines := by
  rw [Mirrors, h, eq_comm]

theorem mirrors_closes (h : fence.read isWhiteSpace line = .closes) :
    Mirrors ended fence place (line :: lines) ↔ fence.read isWhitespace (bare line) = .closes ∧
      place.Takes line ∧
        Mirrors ended {} (if line.toList.getLast? = some '\r' then .behind else .outside) lines := by
  rw [Mirrors, h, eq_comm]

theorem mirrors_content (h : fence.read isWhiteSpace line = .content) :
    Mirrors ended fence place (line :: lines) ↔ fence.read isWhitespace (bare line) = .content ∧
      '\r' ∉ line.toList ∧ Mirrors ended fence (place.append line) lines := by
  rw [Mirrors, h, eq_comm]

end

instance Place.decidableTakes (place : Place) (line : String) : Decidable (place.Takes line) :=
  decidable_of_iff
    ('\r' ∉ (bare line).toList ∧ place ≠ .behind ∧ (line.toList.head? = some '\r' → place = .blank))
    ⟨fun ⟨hsingle, hsettled, hblank⟩ => ⟨hsingle, hsettled, hblank⟩,
      fun h => ⟨h.single, h.settled, h.blank⟩⟩

instance Mirrors.decidable (ended : Bool) :
    (fence : Fence) → (place : Place) → (lines : List String) → Decidable (Mirrors ended fence place lines)
  | _, place, [] => inferInstanceAs (Decidable (place = .blank ∨ place ≠ .behind ∧ ended = false))
  | fence, place, line :: lines =>
    match h : fence.read isWhiteSpace line with
    | .opens _ fence' =>
      have := Mirrors.decidable ended fence' .blank lines
      decidable_of_iff _ (mirrors_opens h).symm
    | .closes =>
      have := Mirrors.decidable ended {} (if line.toList.getLast? = some '\r' then .behind else .outside) lines
      decidable_of_iff _ (mirrors_closes h).symm
    | .content =>
      have := Mirrors.decidable ended fence (place.append line) lines
      decidable_of_iff _ (mirrors_content h).symm

/-- Both find the same fence lines, with whatever languages. -/
inductive Alike : Fence → List String → Prop where
  | nil {fence : Fence} : Alike fence []
  | opens {fence fence' : Fence} {line language language' : String} {lines : List String}
      (hcore : fence.read isWhiteSpace line = .opens language fence')
      (happ : fence.read isWhitespace (bare line) = .opens language' fence') (hbare : '\r' ∉ (bare line).toList)
      (h : Alike fence' lines) : Alike fence (line :: lines)
  | closes {fence : Fence} {line : String} {lines : List String} (hcore : fence.read isWhiteSpace line = .closes)
      (happ : fence.read isWhitespace (bare line) = .closes) (hbare : '\r' ∉ (bare line).toList)
      (h : Alike {} lines) : Alike fence (line :: lines)
  | content {fence : Fence} {line : String} {lines : List String} (hcore : fence.read isWhiteSpace line = .content)
      (happ : fence.read isWhitespace line = .content) (hline : '\r' ∉ line.toList)
      (h : Alike fence lines) : Alike fence (line :: lines)

theorem bare_of_not_mem {line : String} (h : '\r' ∉ line.toList) : bare line = line := by
  obtain ⟨a, b, hline⟩ := trim_decomp '\r' line.toList
  have hno : ∀ n, List.replicate n '\r' ⊆ line.toList → List.replicate n '\r' = [] := by
    intro n hn
    cases n with
    | zero => rfl
    | succ n => exact absurd (hn List.mem_cons_self) h
  have ha := hno a (by rw [hline, List.append_assoc]; exact List.subset_append_left _ _)
  have hb := hno b (by rw [hline]; exact List.subset_append_right _ _)
  rw [ha, hb, List.nil_append, List.append_nil] at hline
  unfold bare
  rw [← hline, String.ofList_toList]

theorem Mirrors.alike {ended : Bool} {lines : List String} {fence : Fence} {place : Place}
    (h : Mirrors ended fence place lines) : Alike fence lines := by
  induction lines generalizing fence place with
  | nil => exact .nil
  | cons line lines ih =>
    cases hcore : fence.read isWhiteSpace line with
    | opens language fence' =>
      obtain ⟨happ, htakes, hrest⟩ := (mirrors_opens hcore).1 h
      exact .opens hcore happ htakes.single (ih hrest)
    | closes =>
      obtain ⟨happ, htakes, hrest⟩ := (mirrors_closes hcore).1 h
      exact .closes hcore happ htakes.single (ih hrest)
    | content =>
      obtain ⟨happ, hline, hrest⟩ := (mirrors_content hcore).1 h
      rw [bare_of_not_mem hline] at happ
      exact .content hcore happ hline (ih hrest)

/-! ### The marks of one line -/

section

variable {fence : Fence} {line : String}

theorem pieces_of_not_mem (h : '\r' ∉ line.toList) : pieces line = [line] := by
  unfold pieces
  rw [List.splitOn_eq_singleton h, List.map_singleton, String.ofList_toList]

/-- A fence line, with the blank lines the app sees around it. -/
theorem pieces_fence {reading : Reading} (h : fence.read isWhitespace (bare line) = reading)
    (hreading : reading ≠ .content) (hbare : '\r' ∉ (bare line).toList) :
    ∃ a b, pieces line = List.replicate a "" ++ bare line :: List.replicate b "" ∧
      (line.toList.head? = some '\r' ↔ a ≠ 0) ∧ (line.toList.getLast? = some '\r' ↔ b ≠ 0) := by
  obtain ⟨a, b, hpieces, hends⟩ := pieces_bare line
  rw [pieces_of_not_mem hbare, List.append_assoc, List.singleton_append] at hpieces
  refine ⟨a, b, hpieces, hends ?_⟩
  intro hempty
  rw [hempty, read_empty] at h
  exact hreading h.symm

end

/-! ### Blank lines -/

/-- The blank lines the app sees around a fence line. -/
def blanks (n : Nat) : List Mark := List.replicate n (.content "")

theorem weight_congr {s s' : Shown} (h : s.finish = s'.finish) : s.weight = s'.weight := by
  unfold Shown.weight
  rw [h]

/-- A block keeps its place and its language. -/
theorem language_unique {s : Shown} {language language' : String} {marks marks' : List Mark}
    (h : ((s.step (.opens language)).run marks).finish = ((s.step (.opens language')).run marks').finish) :
    language = language' := by
  have hfirst := (s.step (.opens language)).languages_run marks
  have hsecond := (s.step (.opens language')).languages_run marks'
  rw [Shown.languages_opens] at hfirst hsecond
  unfold Shown.languages at hfirst hsecond
  rw [← h] at hsecond
  have hone := List.prefix_of_prefix_length_le hfirst hsecond (by rw [List.length_append, List.length_append]; rfl)
  have hsame := hone.eq_of_length (by rw [List.length_append, List.length_append]; rfl)
  exact List.singleton_inj.1 (List.append_cancel_left hsame)

theorem weight_le_step (s : Shown) (m : Mark) : s.weight ≤ (s.step m).weight := by
  cases m with
  | opens language =>
    rw [Shown.weight_opens]
    omega
  | closes => rw [Shown.weight_closes]
  | content line =>
    cases hcurrent : s.current with
    | none =>
      rw [Shown.weight_content_none hcurrent]
      omega
    | some b =>
      rw [Shown.weight_content_some hcurrent]
      omega

theorem weight_le_run (s : Shown) (marks : List Mark) : s.weight ≤ (s.run marks).weight := by
  induction marks generalizing s with
  | nil => exact Nat.le_refl _
  | cons m marks ih => exact (weight_le_step s m).trans (ih _)

/-- A blank line leaves an empty block as it is. -/
theorem run_blanks {s : Shown} {language : String} (h : s.current = some (language, "")) (n : Nat) :
    s.run (blanks n) = s := by
  have hstep : s.step (.content "") = s := by
    obtain ⟨blocks, current⟩ := s
    subst h
    rfl
  induction n with
  | zero => rfl
  | succ n ih =>
    have hrun : s.run (blanks (n + 1)) = (s.step (.content "")).run (blanks n) := rfl
    rw [hrun, hstep, ih]

theorem weight_lt_blank {s : Shown} (h : ∀ language, s.current ≠ some (language, "")) :
    s.weight < (s.step (.content "")).weight := by
  cases hcurrent : s.current with
  | none =>
    rw [Shown.weight_content_none hcurrent]
    omega
  | some b =>
    have htext : b.2 ≠ "" := fun htext => h b.1 (by rw [hcurrent, ← htext])
    rw [Shown.weight_content_some hcurrent, if_neg htext]
    omega

/-- The first line of a block may have a blank one before it. -/
theorem step_content_behind {s : Shown} (h : s.current = none) (line : String) :
    (s.step (.content "")).step (.content line) = s.step (.content line) := by
  obtain ⟨blocks, current⟩ := s
  subst h
  rfl

theorem appendLine_ne_empty {text line : String} (h : text ≠ "" ∨ line ≠ "") : appendLine text line ≠ "" := by
  unfold appendLine
  split
  · rename_i htext
    exact h.resolve_left (not_not_intro htext)
  · rename_i htext
    intro hempty
    rw [String.append_assoc, String.append_eq_empty_iff] at hempty
    exact htext hempty.1

/-! ### Two runs that part -/

/-- The app shows more than the core, and goes on to. -/
structure Ahead (s s' : Shown) : Prop where
  less : s.weight < s'.weight
  room : s.current = none → s'.current ≠ none → s.weight + 1 < s'.weight
  text : ∀ b, s.current = some b → ∃ b', s'.current = some b' ∧ (b.2 ≠ "" → b'.2 ≠ "")

namespace Ahead

theorem opens {s s' : Shown} (h : s.weight < s'.weight) (language language' : String) :
    Ahead (s.step (.opens language)) (s'.step (.opens language')) := by
  refine ⟨?_, nofun, ?_⟩
  · rw [Shown.weight_opens, Shown.weight_opens]
    omega
  · intro b hb
    refine ⟨_, rfl, fun hne => absurd ?_ hne⟩
    cases hb
    rfl

theorem closes {s s' : Shown} (h : s.weight < s'.weight) : Ahead (s.step .closes) (s'.step .closes) := by
  refine ⟨?_, fun _ hne => absurd rfl hne, nofun⟩
  rw [Shown.weight_closes, Shown.weight_closes]
  exact h

theorem content {s s' : Shown} (h : Ahead s s') (line : String) :
    Ahead (s.step (.content line)) (s'.step (.content line)) := by
  have hless := h.less
  refine ⟨?_, nofun, ?_⟩
  · cases hs : s.current with
    | none =>
      rw [Shown.weight_content_none hs]
      cases hs' : s'.current with
      | none =>
        rw [Shown.weight_content_none hs']
        omega
      | some b' =>
        have hroom := h.room hs (hs' ▸ nofun)
        rw [Shown.weight_content_some hs']
        omega
    | some b =>
      obtain ⟨b', hs', htext⟩ := h.text b hs
      rw [Shown.weight_content_some hs, Shown.weight_content_some hs']
      by_cases hb : b.2 = ""
      · rw [if_pos hb]
        omega
      · rw [if_neg hb, if_neg (htext hb)]
        omega
  · rintro b ⟨⟩
    refine ⟨_, rfl, fun hne => appendLine_ne_empty ?_⟩
    by_cases hline : line = ""
    · subst hline
      refine .inl ?_
      cases hs : s.current with
      | none =>
        rw [hs] at hne
        exact absurd rfl hne
      | some b =>
        obtain ⟨b', hs', htext⟩ := h.text b hs
        rw [hs] at hne
        rw [hs']
        refine htext fun hb => hne ?_
        rw [Option.getD_some, hb]
        rfl
    · exact .inr hline

/-- A blank line of the app alone. -/
theorem blank {s s' : Shown} (h : Ahead s s') : Ahead s (s'.step (.content "")) := by
  have hless := h.less
  have hle := weight_le_step s' (.content "")
  refine ⟨by omega, ?_, ?_⟩
  · intro hs _
    cases hs' : s'.current with
    | none =>
      rw [Shown.weight_content_none hs']
      omega
    | some b' =>
      have hroom := h.room hs (hs' ▸ nofun)
      omega
  · intro b hb
    obtain ⟨b', hs', htext⟩ := h.text b hb
    refine ⟨_, rfl, fun hne => ?_⟩
    rw [hs']
    exact appendLine_ne_empty (.inl (htext hne))

theorem blanks {s s' : Shown} (h : Ahead s s') (n : Nat) : Ahead s (s'.run (blanks n)) := by
  induction n generalizing s' with
  | zero => exact h
  | succ n ih => exact ih h.blank

end Ahead

/-! ### The two runs -/

/-- The marks the app makes of a fence line. -/
theorem marks_fence {fence : Fence} {line : String} {a b : Nat}
    (h : pieces line = List.replicate a "" ++ bare line :: List.replicate b "") (ended : Bool) (lines : List String) :
    marks isWhitespace fence (appLines ended (line :: lines)) =
      blanks a ++ marks isWhitespace fence (bare line :: (List.replicate b "" ++ appLines ended lines)) := by
  rw [appLines_cons, h, List.append_assoc, marks_blanks, List.cons_append]
  rfl

theorem Alike.ahead {fence : Fence} {lines : List String} (h : Alike fence lines) (ended : Bool) {s s' : Shown}
    (hahead : Ahead s s') : (s.run (marks isWhiteSpace fence lines)).weight <
      (s'.run (marks isWhitespace fence (appLines ended lines))).weight := by
  induction h generalizing s s' with
  | nil => exact Nat.lt_of_lt_of_le hahead.less (weight_le_run _ _)
  | opens hcore happ hbare _ ih =>
    obtain ⟨a, b, hpieces, -⟩ := pieces_fence happ nofun hbare
    rw [marks_opens hcore, marks_fence hpieces, marks_opens happ, marks_blanks, Shown.run_append, Shown.run_cons,
      Shown.run_cons, Shown.run_append]
    exact ih ((Ahead.opens (hahead.blanks a).less _ _).blanks b)
  | closes hcore happ hbare _ ih =>
    obtain ⟨a, b, hpieces, -⟩ := pieces_fence happ nofun hbare
    rw [marks_closes hcore, marks_fence hpieces, marks_closes happ, marks_blanks, Shown.run_append, Shown.run_cons,
      Shown.run_cons, Shown.run_append]
    exact ih ((Ahead.closes (hahead.blanks a).less).blanks b)
  | content hcore happ hline _ ih =>
    rw [marks_content hcore, appLines_cons, pieces_of_not_mem hline, List.singleton_append, marks_content happ]
    exact ih (hahead.content _)

/-- The two runs so far: only behind a fence the app may have a block of its own. -/
def Place.Holds : Place → Shown → Shown → Prop
  | .outside, s, s' => s.current = none ∧ s' = s
  | .behind, s, s' => s.current = none ∧ s' = s.step (.content "")
  | .blank, s, s' => (∃ language, s.current = some (language, "")) ∧ s' = s
  | .text, s, s' => (∃ b, s.current = some b ∧ b.2 ≠ "") ∧ s' = s

namespace Place.Holds

variable {place : Place} {s s' : Shown} {line : String} {a : Nat}

theorem append (h : place.Holds s s') (line : String) :
    (place.append line).Holds (s.step (.content line)) (s'.step (.content line)) := by
  have hsame : s'.step (.content line) = s.step (.content line) := by
    cases place with
    | behind => rw [h.2, step_content_behind h.1]
    | outside | blank | text => rw [h.2]
  unfold Place.append
  split
  · rename_i htext
    refine ⟨⟨_, rfl, appendLine_ne_empty ?_⟩, hsame⟩
    rcases htext with hline | rfl
    · exact .inr hline
    · obtain ⟨⟨b, hb, hne⟩, -⟩ := h
      rw [hb]
      exact .inl hne
  · rename_i hblank
    obtain ⟨hline, hplace⟩ := not_or.1 hblank
    have hempty : (s.current.getD ("", "")).2 = "" := by
      cases place with
      | outside | behind => rw [h.1]; rfl
      | blank =>
        obtain ⟨⟨language, hcurrent⟩, -⟩ := h
        rw [hcurrent]
        rfl
      | text => exact absurd rfl hplace
    refine ⟨⟨(s.current.getD ("", "")).1, ?_⟩, hsame⟩
    unfold Shown.step
    dsimp only
    rw [hempty, not_not.1 hline]
    rfl

/-- Blank lines of the app alone leave no trace in an empty block. -/
theorem run_blanks (h : place.Holds s s') (hsettled : place ≠ .behind) (ha : a ≠ 0 → place = .blank) :
    s'.run (blanks a) = s := by
  by_cases hzero : a = 0
  · subst hzero
    cases place with
    | behind => exact absurd rfl hsettled
    | outside | blank | text => exact h.2
  · have hplace := ha hzero
    subst hplace
    obtain ⟨⟨language, hcurrent⟩, rfl⟩ := h
    exact Android.run_blanks hcurrent a

/-- Elsewhere they end up in a block. -/
theorem less_blanks (h : place.Holds s s') (hblank : place ≠ .blank) (ha : place = .behind ∨ a ≠ 0) :
    s.weight < (s'.run (blanks a)).weight := by
  have hcurrent : ∀ language, s.current ≠ some (language, "") := by
    intro language hcurrent
    cases place with
    | outside | behind => cases h.1.symm.trans hcurrent
    | blank => exact hblank rfl
    | text =>
      obtain ⟨⟨b, hb, htext⟩, -⟩ := h
      rw [hcurrent] at hb
      cases hb
      exact htext rfl
  have hless := weight_lt_blank hcurrent
  by_cases hbehind : place = .behind
  · subst hbehind
    rw [h.2]
    exact Nat.lt_of_lt_of_le hless (weight_le_run _ _)
  · obtain ⟨n, rfl⟩ := Nat.exists_eq_succ_of_ne_zero (ha.resolve_left hbehind)
    have hsame : s' = s := by
      cases place with
      | behind => exact absurd rfl hbehind
      | outside | blank | text => exact h.2
    rw [hsame]
    exact Nat.lt_of_lt_of_le hless (weight_le_run _ (blanks n))

theorem run_of_takes (h : place.Holds s s') (htakes : place.Takes line)
    (ha : line.toList.head? = some '\r' ↔ a ≠ 0) : s'.run (blanks a) = s :=
  h.run_blanks htakes.settled fun hne => htakes.blank (ha.2 hne)

theorem less_of_not_takes (h : place.Holds s s') (hbare : '\r' ∉ (bare line).toList) (htakes : ¬ place.Takes line)
    (ha : line.toList.head? = some '\r' ↔ a ≠ 0) : s.weight < (s'.run (blanks a)).weight := by
  refine h.less_blanks ?_ ?_
  · rintro rfl
    exact htakes ⟨hbare, nofun, fun _ => rfl⟩
  · by_contra hno
    obtain ⟨hsettled, hzero⟩ := not_or.1 hno
    exact htakes ⟨hbare, hsettled, fun hhead => absurd (ha.1 hhead) hzero⟩

/-- The end of the text, with a last blank line of the app where it ends with a newline. -/
theorem finish_iff (h : place.Holds s s') (fence : Fence) (ended : Bool) :
    s.finish = (s'.run (marks isWhitespace fence (appLines ended []))).finish ↔
      place = .blank ∨ place ≠ .behind ∧ ended = false := by
  obtain ⟨a, hmarks, ha⟩ : ∃ a, marks isWhitespace fence (appLines ended []) = blanks a ∧ (ended = false ↔ a = 0) := by
    cases ended with
    | false => exact ⟨0, rfl, by decide⟩
    | true => exact ⟨1, rfl, by decide⟩
  rw [hmarks, ha]
  constructor
  · intro hsame
    by_contra hno
    obtain ⟨hblank, hplace⟩ := not_or.1 hno
    have hless : s.weight < (s'.run (blanks a)).weight := by
      refine h.less_blanks hblank ?_
      by_cases hbehind : place = .behind
      · exact .inl hbehind
      · exact .inr fun hzero => hplace ⟨hbehind, hzero⟩
    exact Nat.ne_of_lt hless (weight_congr hsame)
  · intro hplace
    have hrun : s'.run (blanks a) = s := by
      rcases hplace with rfl | ⟨hsettled, hzero⟩
      · exact h.run_blanks nofun fun _ => rfl
      · exact h.run_blanks hsettled fun hne => absurd hzero hne
    rw [hrun]

end Place.Holds

/-- Where both find the same fence lines, the blocks shown are the same exactly under the condition. -/
theorem Alike.finish_iff {fence : Fence} {lines : List String} (h : Alike fence lines) (ended : Bool) {place : Place}
    {s s' : Shown} (hplace : place.Holds s s') :
    (s.run (marks isWhiteSpace fence lines)).finish =
        (s'.run (marks isWhitespace fence (appLines ended lines))).finish ↔ Mirrors ended fence place lines := by
  induction h generalizing place s s' with
  | nil => exact hplace.finish_iff _ ended
  | opens hcore happ hbare hrest ih =>
    rename_i fence fence' line language language' lines
    obtain ⟨a, b, hpieces, ha, hb⟩ := pieces_fence happ nofun hbare
    rw [marks_opens hcore, marks_fence hpieces, marks_opens happ, marks_blanks, Shown.run_append, Shown.run_cons,
      Shown.run_cons, Shown.run_append, mirrors_opens hcore, happ]
    by_cases htakes : place.Takes line
    · rw [hplace.run_of_takes htakes ha, and_iff_right htakes]
      by_cases hlanguage : language = language'
      · subst hlanguage
        rw [and_iff_right rfl]
        refine ih ⟨⟨language, rfl⟩, ?_⟩
        exact run_blanks rfl b
      · refine iff_of_false (fun hsame => hlanguage ?_) (fun hmirrors => ?_)
        · rw [← Shown.run_append] at hsame
          exact language_unique hsame
        · cases hmirrors.1
          exact hlanguage rfl
    · refine iff_of_false (fun hsame => ?_) (fun hmirrors => htakes hmirrors.2.1)
      have hless := hrest.ahead ended
        ((Ahead.opens (hplace.less_of_not_takes hbare htakes ha) language language').blanks b)
      exact Nat.ne_of_lt hless (weight_congr hsame)
  | closes hcore happ hbare hrest ih =>
    rename_i fence line lines
    obtain ⟨a, b, hpieces, ha, hb⟩ := pieces_fence happ nofun hbare
    rw [marks_closes hcore, marks_fence hpieces, marks_closes happ, marks_blanks, Shown.run_append, Shown.run_cons,
      Shown.run_cons, Shown.run_append, mirrors_closes hcore, happ, and_iff_right rfl]
    by_cases htakes : place.Takes line
    · rw [hplace.run_of_takes htakes ha, and_iff_right htakes]
      refine ih ?_
      -- a blank line behind the fence is the first one of a block of the app
      by_cases hzero : b = 0
      · subst hzero
        rw [if_neg fun hlast => hb.1 hlast rfl]
        exact ⟨rfl, rfl⟩
      · rw [if_pos (hb.2 hzero)]
        obtain ⟨n, rfl⟩ := Nat.exists_eq_succ_of_ne_zero hzero
        exact ⟨rfl, run_blanks rfl n⟩
    · refine iff_of_false (fun hsame => ?_) (fun hmirrors => htakes hmirrors.1)
      have hless := hrest.ahead ended ((Ahead.closes (hplace.less_of_not_takes hbare htakes ha)).blanks b)
      exact Nat.ne_of_lt hless (weight_congr hsame)
  | content hcore happ hline _ ih =>
    rw [marks_content hcore, appLines_cons, pieces_of_not_mem hline, List.singleton_append, marks_content happ,
      mirrors_content hcore, bare_of_not_mem hline, and_iff_right happ, and_iff_right hline]
    exact ih (hplace.append _)

end Hermo.Markdown.Android
