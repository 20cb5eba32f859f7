import Hermo.App.MarkdownIos

/-!
# The marker of a line

For both apps a line that opens a fence is the run of its marker and the language (`Opening`), so that line and language
tell the fence (`Opening.unique`).
-/

namespace Hermo.Markdown

open Unicode Splitting

def markerChar (isTick : Bool) : Char := if isTick then tick else '~'

/-- The characters that Swift takes for the marker. -/
def isMarker (isTick : Bool) (c : Char) : Bool := if isTick then c == tick || c == '\u1FEF' else c == '~'

/-- The tables on the markers: U+1FEF decomposes to the backtick. -/
class MarkerTables [Tables] : Prop where
  decomposition_iff : ∀ isTick c, Tables.decomposition c = [markerChar isTick] ↔ isMarker isTick c = true

theorem isMarker_markerChar (isTick : Bool) : isMarker isTick (markerChar isTick) = true := by
  cases isTick <;> decide

theorem isMarker_cases {isTick : Bool} {c : Char} (h : isMarker isTick c = true) :
    c = tick ∨ c = '\u1FEF' ∨ c = '~' := by
  cases isTick with
  | true => exact (Bool.or_eq_true_iff.1 h).imp beq_iff_eq.1 fun hc => .inl (beq_iff_eq.1 hc)
  | false => exact .inr (.inr (beq_iff_eq.1 h))

theorem isMarker_unique {isTick isTick' : Bool} {c : Char} (h : isMarker isTick c = true) :
    isMarker isTick' c = (isTick' == isTick) := by
  cases isTick with
  | true =>
    rcases Bool.or_eq_true_iff.1 h with hc | hc
    · rw [beq_iff_eq.1 hc]
      cases isTick' <;> decide
    · rw [beq_iff_eq.1 hc]
      cases isTick' <;> decide
  | false =>
    have hc : (c == '~') = true := h
    rw [beq_iff_eq.1 hc]
    cases isTick' <;> decide

theorem same_marker [Tables] [MarkerTables] {isTick : Bool} {text : List Char} :
    Same text [markerChar isTick] ↔ ∃ c, text = [c] ∧ isMarker isTick c = true := by
  rw [same_singleton_iff ((MarkerTables.decomposition_iff isTick _).2 (isMarker_markerChar isTick))]
  simp only [MarkerTables.decomposition_iff]

/-! ### Opening lines -/

theorem countP_trim {white q : Char → Bool} (h : ∀ c, white c = true → q c = false) (line : List Char) :
    (trim white line).countP q = line.countP q := by
  obtain ⟨front, back, hline, hfront, hback⟩ := exists_ends white line
  have hfrontZero : front.countP q = 0 := List.countP_eq_zero.2 fun c hc => Bool.eq_false_iff.1 (h c (hfront c hc))
  have hbackZero : back.countP q = 0 := List.countP_eq_zero.2 fun c hc => Bool.eq_false_iff.1 (h c (hback c hc))
  conv => rhs; rw [hline]
  rw [List.countP_append, List.countP_append, hfrontZero, hbackZero, Nat.zero_add, Nat.add_zero]
  rfl

/-- The line opens the fence with this run; white space apart, the language is the rest. -/
structure Opening (white : Char → Bool) (line language : List Char) (fence : Fence) (isTick : Bool)
    (run : List Char) : Prop where
  fence_eq : fence = if isTick then ⟨run.length, 0⟩ else ⟨0, run.length⟩
  marker : ∀ c ∈ run, isMarker isTick c = true
  count : ∀ q : Char → Bool, (∀ c, white c = true → q c = false) → line.countP q = run.countP q + language.countP q

section

variable {white white' : Char → Bool} {line language run run' : List Char} {fence fence' : Fence}
  {isTick isTick' : Bool}

theorem Opening.count_marker (h : Opening white line language fence isTick run)
    (hwhite : ∀ b c, white c = true → isMarker b c = false) (b : Bool) :
    line.countP (isMarker b) = (if b then fence.ticks else fence.tildes) + language.countP (isMarker b) := by
  rw [h.count (isMarker b) (hwhite b), h.fence_eq]
  congr 1
  by_cases hb : b = isTick
  · have hall : run.countP (isMarker b) = run.length := List.countP_eq_length.2 fun c hc => hb ▸ h.marker c hc
    rw [hall, ← hb]
    cases b <;> rfl
  · have hnone : run.countP (isMarker b) = 0 := by
      refine List.countP_eq_zero.2 fun c hc => ?_
      rw [isMarker_unique (h.marker c hc), beq_iff_eq]
      exact hb
    rw [hnone]
    cases b <;> cases isTick <;> first | rfl | exact absurd rfl hb

/-- The line and the language tell the fence. -/
theorem Opening.unique (h : Opening white line language fence isTick run)
    (h' : Opening white' line language fence' isTick' run') (hwhite : ∀ b c, white c = true → isMarker b c = false)
    (hwhite' : ∀ b c, white' c = true → isMarker b c = false) : fence = fence' := by
  have hcount (b : Bool) : (if b then fence.ticks else fence.tildes) = if b then fence'.ticks else fence'.tildes :=
    Nat.add_right_cancel ((h.count_marker hwhite b).symm.trans (h'.count_marker hwhite' b))
  obtain ⟨ticks, tildes⟩ := fence
  obtain ⟨ticks', tildes'⟩ := fence'
  exact congrArg₂ Fence.mk (hcount true) (hcount false)

end

theorem fenceMarker_run {line : List Char} {len : Nat} {isTick : Bool} (h : fenceMarker line = some (len, isTick)) :
    (line.take len).length = len ∧ ∀ c ∈ line.take len, isMarker isTick c = true := by
  have hrun (isTick : Bool) (hlen : len = (line.takeWhile (· == markerChar isTick)).length) :
      (line.take len).length = len ∧ ∀ c ∈ line.take len, isMarker isTick c = true := by
    rw [hlen, take_takeWhile]
    refine ⟨rfl, fun c hc => ?_⟩
    have hp := List.mem_takeWhile_imp hc
    rw [beq_iff_eq.1 hp]
    exact isMarker_markerChar isTick
  unfold fenceMarker at h
  dsimp only at h
  split at h
  · split at h
    · cases h
    · cases h
      exact hrun true rfl
  · split at h
    · split at h
      · cases h
      · cases h
        exact hrun false rfl
    · cases h

theorem Fence.opening {fence fence' : Fence} {white : Char → Bool} {line language : String}
    (h : fence.read white line = .opens language fence') :
    ∃ isTick run, Opening white line.toList language.toList fence' isTick run := by
  rw [read_eq_apply] at h
  obtain ⟨-, len, isTick, hmarker, rfl, hfence⟩ := apply_opens h
  obtain ⟨hlength, hrun⟩ := fenceMarker_run hmarker
  refine ⟨isTick, (trim white line.toList).take len, ⟨by rw [hlength]; exact hfence, hrun, fun q hq => ?_⟩⟩
  rw [String.toList_ofList, countP_trim hq, ← List.countP_append, List.take_append_drop, countP_trim hq]

/-! ### Swift -/

namespace Ios

variable [Tables] [MarkerTables]

theorem fenceMarker_run {line : List Char} {len : Nat} {isTick : Bool} (h : fenceMarker line = some (len, isTick)) :
    ((clusters line).take len).flatten.length = len ∧
      ∀ c ∈ ((clusters line).take len).flatten, isMarker isTick c = true := by
  have hrun (isTick : Bool) (hlen : len = ((clusters line).takeWhile (Same · [markerChar isTick])).length) :
      ((clusters line).take len).flatten.length = len ∧
        ∀ c ∈ ((clusters line).take len).flatten, isMarker isTick c = true := by
    rw [hlen, take_takeWhile]
    refine flatten_singletons fun cluster hcluster => ?_
    have hp := List.mem_takeWhile_imp hcluster
    exact same_marker.1 (of_decide_eq_true hp)
  unfold fenceMarker at h
  dsimp only at h
  split at h
  · split at h
    · cases h
    · cases h
      exact hrun true rfl
  · split at h
    · split at h
      · cases h
      · cases h
        exact hrun false rfl
    · cases h

theorem opening {fence fence' : Fence} {line language : String} (h : read fence line = .opens language fence') :
    ∃ isTick run, Opening isWhitespace line.toList language.toList fence' isTick run := by
  rw [read_eq_apply] at h
  obtain ⟨-, len, isTick, hmarker, rfl, hfence⟩ := Fence.apply_opens h
  obtain ⟨hlength, hrun⟩ := fenceMarker_run hmarker
  refine ⟨isTick, _, ⟨by rw [hlength]; exact hfence, hrun, fun q hq => ?_⟩⟩
  rw [String.toList_ofList, countP_trim hq, ← List.countP_append, ← List.flatten_append, List.take_append_drop,
    flatten_clusters, countP_trim hq]

/-- The first characters of a marker line end no line. -/
theorem head_of_marker {line : List Char} {m : Nat × Bool} (h : fenceMarker (trim isWhitespace line) = some m) :
    ∃ c rest, line = c :: rest ∧ plain c = true := by
  obtain ⟨len, isTick⟩ := m
  have hmin : 3 ≤ len := fenceMarker_min h
  obtain ⟨hlength, hrun⟩ := fenceMarker_run h
  obtain ⟨front, back, hline, hfront, -⟩ := exists_ends isWhitespace line
  cases front with
  | cons c front =>
    refine ⟨c, _, hline, ?_⟩
    have hwhite := hfront c List.mem_cons_self
    by_contra hc
    have hend : c = '\r' ∨ c = '\n' := by simpa [plain, ← not_and_or, Decidable.or_iff_not_not_and_not] using hc
    rcases hend with rfl | rfl
    · exact absurd hwhite (by decide)
    · exact absurd hwhite (by decide)
  | nil =>
    have htrim := flatten_clusters (trim isWhitespace line)
    rw [← List.take_append_drop len (clusters _), List.flatten_append] at htrim
    obtain ⟨c, run, hcons⟩ : ∃ c run, ((clusters (trim isWhitespace line)).take len).flatten = c :: run := by
      refine List.exists_cons_of_ne_nil fun hnil => ?_
      rw [hnil, List.length_nil] at hlength
      omega
    have hc := hrun c (hcons ▸ List.mem_cons_self)
    rw [hcons, List.cons_append] at htrim
    rw [List.nil_append] at hline
    change line = trim isWhitespace line ++ back at hline
    rw [← htrim, List.cons_append] at hline
    refine ⟨c, _, hline, ?_⟩
    rcases isMarker_cases hc with rfl | rfl | rfl <;> decide

/-- A line end is no white space, so it is in the language. -/
theorem return_mem_language {fence fence' : Fence} {line language : String}
    (h : read fence line = .opens language fence') (hreturn : '\r' ∈ line.toList) : '\r' ∈ language.toList := by
  obtain ⟨isTick, run, hopening⟩ := opening h
  have hcount := hopening.count (· == '\r') fun c hc => by
    refine Bool.eq_false_iff.2 fun hreturn => ?_
    rw [beq_iff_eq.1 hreturn] at hc
    exact absurd hc (by decide)
  have hrun : run.countP (· == '\r') = 0 := by
    refine List.countP_eq_zero.2 fun c hc hreturn => ?_
    have hmarker := hopening.marker c hc
    rw [beq_iff_eq.1 hreturn] at hmarker
    exact absurd (isMarker_cases hmarker) (by decide)
  have hpos : 0 < line.toList.countP (· == '\r') := List.countP_pos_iff.2 ⟨'\r', hreturn, beq_self_eq_true _⟩
  rw [hcount, hrun, Nat.zero_add] at hpos
  obtain ⟨c, hc, heq⟩ := List.countP_pos_iff.1 hpos
  exact beq_iff_eq.1 heq ▸ hc

end Ios

end Hermo.Markdown
