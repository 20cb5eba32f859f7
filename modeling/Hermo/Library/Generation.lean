import Mathlib.Algebra.Group.Nat.Defs
import Mathlib.Data.List.Basic

/-!
# Tags drawn from a wrapping counter

A counter of 64 bits is advanced by some events of a run (`draws`), and some of these copy its new value into a tag
(`stamps`).  `age` counts the draws since the last stamp; a tag lies `age` behind its counter, and two tags are
different as long as their distance is not a multiple of `2 ^ 64`.  `tag_ne` is this last fact, and `age_lt` bounds the
distance of the tags before and after a part of a run with a stamp.
-/

namespace Generation

variable {α : Type} (draws stamps : α → Bool)

/-- The number of draws since the last stamp, `n` being the number before the run. -/
def age (n : Nat) : List α → Nat
  | [] => n
  | a :: as => age (if stamps a then 0 else if draws a then n + 1 else n) as

theorem age_append (n : Nat) (as bs : List α) :
    age draws stamps n (as ++ bs) = age draws stamps (age draws stamps n as) bs := by
  induction as generalizing n with
  | nil => rfl
  | cons a as ih => exact ih _

theorem age_le (n : Nat) (as : List α) : age draws stamps n as ≤ n + as.countP draws := by
  induction as generalizing n with
  | nil => exact Nat.le_refl n
  | cons a as ih =>
    have h := ih (if stamps a then 0 else if draws a then n + 1 else n)
    unfold age
    rw [List.countP_cons]
    by_cases hs : stamps a = true
    · simp only [hs, ↓reduceIte] at h ⊢
      omega
    · by_cases hd : draws a = true
      · simp only [hs, hd, Bool.false_eq_true, ↓reduceIte] at h ⊢
        omega
      · simp only [hs, hd, Bool.false_eq_true, ↓reduceIte] at h ⊢
        omega

/-- A stamp is a draw, so after one the tag is younger than all draws together. -/
theorem age_lt (hd : ∀ a, stamps a = true → draws a = true) (n : Nat) {as : List α}
    (h : ∃ a ∈ as, stamps a = true) : age draws stamps n as < n + as.countP draws := by
  induction as generalizing n with
  | nil => simp at h
  | cons a as ih =>
    unfold age
    rw [List.countP_cons]
    by_cases ha : stamps a = true
    · have hle := age_le draws stamps 0 as
      rw [if_pos ha, if_pos (hd a ha)]
      omega
    · obtain ⟨b, hb, hs⟩ := h
      have hb' : b ∈ as := by
        rcases List.mem_cons.1 hb with rfl | hb
        · exact absurd hs ha
        · exact hb
      have htail := ih (if draws a then n + 1 else n) ⟨b, hb', hs⟩
      rw [if_neg ha]
      by_cases hdraw : draws a = true
      · simp only [hdraw, ↓reduceIte] at htail ⊢
        omega
      · simp only [hdraw, Bool.false_eq_true, ↓reduceIte] at htail ⊢
        omega

/-- Two tags that lie `n` and `n'` behind two values of one counter, the second value `k` draws after the first. -/
theorem tag_ne {counter tag tag' : UInt64} {n n' k : Nat} (h : tag + UInt64.ofNat n = counter)
    (h' : tag' + UInt64.ofNat n' = counter + UInt64.ofNat k) (hlt : n' < n + k) (hk : n + k < 2 ^ 64) :
    tag' ≠ tag := by
  rintro rfl
  have hsum : tag' + UInt64.ofNat n' = tag' + UInt64.ofNat (n + k) := by
    rw [h', ← h, UInt64.ofNat_add, UInt64.add_assoc]
  have heq : UInt64.ofNat n' = UInt64.ofNat (n + k) := by
    have hsub := congrArg (fun x => x - tag') hsum
    simpa [UInt64.add_comm tag', UInt64.add_sub_cancel] using hsub
  have hnat := congrArg UInt64.toNat heq
  rw [UInt64.toNat_ofNat', UInt64.toNat_ofNat', Nat.mod_eq_of_lt (by omega), Nat.mod_eq_of_lt hk] at hnat
  omega

end Generation
