import Mathlib.Data.List.DropRight
import Mathlib.Data.List.Count

/-!
# Cutting a list into pieces

What the pieces of `List.splitOn` have in them (`mem_splitOn`, `exists_mem_splitOn`), what separators at both ends of
the list add to them, and what `dropWhile` from either end leaves of a run at the front (`takeWhile_rdropWhile`,
`dropWhile_unique`).
-/

namespace Splitting

variable {α : Type}

theorem modifyHead_append (f : α → α) {l : List α} (h : l ≠ []) (more : List α) :
    (l ++ more).modifyHead f = l.modifyHead f ++ more := by
  cases l with
  | nil => exact absurd rfl h
  | cons a l => rfl

/-! ### Pieces -/

section

variable [DecidableEq α]

theorem count_first {a : α} (b : α) (l : List α) : (b :: l).count a = [b].count a + l.count a := by
  rw [← List.count_append, List.singleton_append]

/-- A piece is a part of the list without the separator. -/
theorem mem_splitOn {a : α} {l piece : List α} (h : piece ∈ l.splitOn a) : a ∉ piece ∧ piece ⊆ l := by
  induction l generalizing piece with
  | nil =>
    rw [List.splitOn_nil, List.mem_singleton] at h
    subst h
    exact ⟨List.not_mem_nil, List.nil_subset _⟩
  | cons b l ih =>
    rw [List.splitOn_cons_eq_if_modifyHead] at h
    split at h
    · rcases List.mem_cons.1 h with rfl | hmem
      · exact ⟨List.not_mem_nil, List.nil_subset _⟩
      · exact ⟨(ih hmem).1, List.Subset.trans (ih hmem).2 (List.subset_cons_self b l)⟩
    · rename_i hb
      cases hsplit : l.splitOn a with
      | nil => exact absurd hsplit (List.splitOn_ne_nil a l)
      | cons first pieces =>
        rw [hsplit] at h ih
        rcases List.mem_cons.1 h with rfl | hmem
        · obtain ⟨hfirst, hsubset⟩ := ih List.mem_cons_self
          refine ⟨?_, List.cons_subset_cons b hsubset⟩
          rw [List.mem_cons, not_or]
          exact ⟨fun heq => hb (beq_iff_eq.2 heq.symm), hfirst⟩
        · obtain ⟨hpiece, hsubset⟩ := ih (List.mem_cons_of_mem first hmem)
          exact ⟨hpiece, List.Subset.trans hsubset (List.subset_cons_self b l)⟩

/-- Nothing but separators is lost. -/
theorem exists_mem_splitOn {a b : α} (hb : b ≠ a) {l : List α} (h : b ∈ l) : ∃ piece ∈ l.splitOn a, b ∈ piece := by
  induction l with
  | nil => cases h
  | cons c l ih =>
    rw [List.splitOn_cons_eq_if_modifyHead]
    cases hsplit : l.splitOn a with
    | nil => exact absurd hsplit (List.splitOn_ne_nil a l)
    | cons first pieces =>
      rw [hsplit] at ih
      rcases List.mem_cons.1 h with rfl | hmem
      · rw [if_neg fun heq => hb (beq_iff_eq.1 heq)]
        exact ⟨b :: first, List.mem_cons_self, List.mem_cons_self⟩
      · obtain ⟨piece, hpiece, hin⟩ := ih hmem
        split
        · exact ⟨piece, List.mem_cons_of_mem [] hpiece, hin⟩
        · rcases List.mem_cons.1 hpiece with rfl | htail
          · exact ⟨c :: piece, List.mem_cons_self, List.mem_cons_of_mem c hin⟩
          · exact ⟨piece, List.mem_cons_of_mem _ htail, hin⟩

theorem splitOn_replicate_append (a : α) (n : Nat) (l : List α) :
    (List.replicate n a ++ l).splitOn a = List.replicate n [] ++ l.splitOn a := by
  induction n with
  | zero => rfl
  | succ n ih =>
    rw [List.replicate_succ, List.cons_append, List.splitOn_cons_eq_if_modifyHead, if_pos (beq_self_eq_true a), ih,
      List.replicate_succ, List.cons_append]

theorem splitOn_append_replicate (a : α) (n : Nat) (l : List α) :
    (l ++ List.replicate n a).splitOn a = l.splitOn a ++ List.replicate n [] := by
  induction n generalizing l with
  | zero => rw [List.replicate_zero, List.append_nil, List.replicate_zero, List.append_nil]
  | succ n ih =>
    have hone : (l ++ [a]).splitOn a = l.splitOn a ++ [[]] := List.splitOn_append_cons_self l []
    rw [List.replicate_succ, ← List.singleton_append, ← List.append_assoc, ih, hone, List.append_assoc,
      List.singleton_append, List.replicate_succ]

end

/-! ### Ends -/

variable {p q : α → Bool}

theorem head_of_takeWhile {l : List α} (h : 0 < (l.takeWhile p).length) : ∃ a, l.head? = some a ∧ p a = true := by
  cases l with
  | nil => cases h
  | cons a l =>
    refine ⟨a, rfl, ?_⟩
    rw [List.takeWhile_cons] at h
    split at h
    · assumption
    · cases h

theorem rdropWhile_replicate {a : α} (h : p a = true) (l : List α) (n : Nat) :
    (l ++ List.replicate n a).rdropWhile p = l.rdropWhile p := by
  induction n with
  | zero => rw [List.replicate_zero, List.append_nil]
  | succ n ih => rw [List.replicate_succ', ← List.append_assoc, List.rdropWhile_concat_pos _ _ _ h, ih]

/-- What is dropped at the end is not of the run at the front. -/
theorem takeWhile_rdropWhile (h : ∀ a, p a = true → q a = false) (l : List α) :
    (l.rdropWhile q).takeWhile p = l.takeWhile p := by
  have hrest : (l.rtakeWhile q).takeWhile p = [] := by
    cases hcons : l.rtakeWhile q with
    | nil => rfl
    | cons a rest =>
      have hq : q a = true := List.mem_rtakeWhile_imp (hcons ▸ List.mem_cons_self)
      rw [List.takeWhile_cons, if_neg]
      intro hp
      rw [h a hp] at hq
      cases hq
  have hl : l.rdropWhile q ++ l.rtakeWhile q = l := List.rdropWhile_append_rtakeWhile
  conv => rhs; rw [← hl]
  rw [List.takeWhile_append, hrest, List.append_nil]
  split
  · rename_i hlength
    exact (List.takeWhile_prefix p).eq_of_length hlength
  · rfl

/-- Two predicates that each stop at an element the other one stops at, stop at the same one. -/
theorem dropWhile_unique {l : List α} {a b : α} (ha : (l.dropWhile p).head? = some a) (hqa : q a = false)
    (hb : (l.dropWhile q).head? = some b) (hpb : p b = false) : l.dropWhile p = l.dropWhile q := by
  induction l with
  | nil => rfl
  | cons c l ih =>
    rw [List.dropWhile_cons] at ha hb ⊢
    rw [List.dropWhile_cons]
    by_cases hp : p c = true
    · by_cases hq : q c = true
      · rw [if_pos hp] at ha ⊢
        rw [if_pos hq] at hb ⊢
        exact ih ha hb
      · rw [if_neg hq] at hb
        cases hb
        rw [hp] at hpb
        cases hpb
    · by_cases hq : q c = true
      · rw [if_neg hp] at ha
        cases ha
        rw [hq] at hqa
        cases hqa
      · rw [if_neg hp, if_neg hq]

/-- What is dropped at both ends. -/
theorem exists_ends (p : α → Bool) (l : List α) :
    ∃ front back, l = front ++ (l.dropWhile p).rdropWhile p ++ back ∧ (∀ a ∈ front, p a = true) ∧
      ∀ a ∈ back, p a = true := by
  refine ⟨l.takeWhile p, (l.dropWhile p).rtakeWhile p, ?_, fun a ha => List.mem_takeWhile_imp ha,
    fun a ha => List.mem_rtakeWhile_imp ha⟩
  rw [List.append_assoc, List.rdropWhile_append_rtakeWhile, List.takeWhile_append_dropWhile]

theorem take_takeWhile (p : α → Bool) (l : List α) : l.take (l.takeWhile p).length = l.takeWhile p :=
  (List.prefix_iff_eq_take.1 (List.takeWhile_prefix p)).symm

/-- Pieces of one element each. -/
theorem flatten_singletons {l : List (List α)} (h : ∀ piece ∈ l, ∃ a, piece = [a] ∧ p a = true) :
    l.flatten.length = l.length ∧ ∀ a ∈ l.flatten, p a = true := by
  induction l with
  | nil => exact ⟨rfl, nofun⟩
  | cons piece l ih =>
    obtain ⟨a, rfl, ha⟩ := h piece List.mem_cons_self
    obtain ⟨hlength, hrest⟩ := ih fun piece hpiece => h piece (List.mem_cons_of_mem _ hpiece)
    rw [List.flatten_cons, List.singleton_append, List.length_cons, List.length_cons, hlength, List.forall_mem_cons]
    exact ⟨rfl, ha, hrest⟩

end Splitting
