import Mathlib.Data.List.Perm.Basic
import Mathlib.Data.List.Count
import Mathlib.Data.List.Nodup
import Mathlib.Tactic.Push

/-!
# Replaying behind a snapshot

A receiver starts from a snapshot that contains the messages `1, …, base`, receives some numbered messages, and then
asks for everything above the highest number it received.  `once_iff` says when this leaves it with every message
exactly once: what it received has to be the messages right behind the snapshot, each once, and some of them unless
the snapshot is empty.
-/

namespace Replay

/-- The highest number received, starting from `m`. -/
def mark (m : Int) (received : List Int) : Int := received.foldl max m

@[simp] theorem mark_nil (m : Int) : mark m [] = m := rfl

@[simp] theorem mark_cons (m n : Int) (received : List Int) : mark m (n :: received) = mark (max m n) received := rfl

theorem le_mark (m : Int) (received : List Int) : m ≤ mark m received ∧ ∀ n ∈ received, n ≤ mark m received := by
  induction received generalizing m with
  | nil => simp
  | cons n received ih =>
    obtain ⟨hle, hmem⟩ := ih (max m n)
    rw [mark_cons]
    refine ⟨by omega, ?_⟩
    intro k hk
    rcases List.mem_cons.1 hk with rfl | hk
    · omega
    · exact hmem k hk

theorem mark_mem (m : Int) (received : List Int) : mark m received = m ∨ mark m received ∈ received := by
  induction received generalizing m with
  | nil => exact .inl rfl
  | cons n received ih =>
    rw [mark_cons]
    rcases ih (max m n) with h | h
    · rw [h]
      have hchoice : max m n = m ∨ max m n = n := by omega
      rcases hchoice with hm | hn
      · exact .inl hm
      · rw [hn]
        exact .inr List.mem_cons_self
    · exact .inr (List.mem_cons_of_mem _ h)

/-- The messages `base + 1, …, base + k`. -/
def block (base k : Nat) : List Int := (List.range' (base + 1) k).map Nat.cast

theorem mem_block {base k : Nat} {n : Int} : n ∈ block base k ↔ (base : Int) < n ∧ n ≤ base + k := by
  unfold block
  rw [List.mem_map]
  constructor
  · rintro ⟨i, hi, rfl⟩
    rw [List.mem_range'_1] at hi
    omega
  · rintro ⟨hlo, hhi⟩
    refine ⟨n.toNat, ?_, by omega⟩
    rw [List.mem_range'_1]
    omega

theorem nodup_block (base k : Nat) : (block base k).Nodup := by
  unfold block
  refine List.Nodup.map ?_ List.nodup_range'
  intro a b hab
  exact Int.ofNat.inj hab

/-- How often message `n` is there after the replay of `mark + 1, …, upTo`. -/
def times (base : Nat) (received : List Int) (upTo n : Nat) : Nat :=
  (if n ≤ base then 1 else 0) + received.count (n : Int) + (if mark 0 received < n ∧ n ≤ upTo then 1 else 0)

/-- A replay that brings nothing that is there starts at or above the snapshot. -/
private theorem base_le_mark {received : List Int} {base upTo : Nat} (hle : base ≤ upTo)
    (hnew : ∀ n : Nat, mark 0 received < n → n ≤ upTo → base < n) : (base : Int) ≤ mark 0 received := by
  have hzero := (le_mark 0 received).1
  by_contra hlt
  have hstart := hnew ((mark 0 received).toNat + 1) (by omega) (by omega)
  omega

/-- Messages of which each between the snapshot and the mark came once, and no other, are a block. -/
private theorem perm_block_of_count {received : List Int} {base upTo : Nat} (hbase : (base : Int) ≤ mark 0 received)
    (hreceived : ∀ n ∈ received, 1 ≤ n ∧ n ≤ upTo)
    (hcount : ∀ n : Nat, 1 ≤ n → n ≤ upTo → received.count (n : Int) ≤ 1 ∧
      (0 < received.count (n : Int) ↔ base < n ∧ (n : Int) ≤ mark 0 received)) :
    received.Perm (block base ((mark 0 received).toNat - base)) := by
  have hnodup : received.Nodup := by
    rw [List.nodup_iff_count_le_one]
    intro n
    by_cases hn : n ∈ received
    · obtain ⟨hpos, hup⟩ := hreceived n hn
      have h := (hcount n.toNat (by omega) (by omega)).1
      rwa [Int.toNat_of_nonneg (by omega)] at h
    · rw [List.count_eq_zero_of_not_mem hn]
      omega
  rw [List.perm_ext_iff_of_nodup hnodup (nodup_block _ _)]
  intro n
  rw [mem_block]
  constructor
  · intro hn
    obtain ⟨hpos, hup⟩ := hreceived n hn
    have h := (hcount n.toNat (by omega) (by omega)).2
    rw [Int.toNat_of_nonneg (by omega)] at h
    have hrange := h.1 (List.count_pos_iff.2 hn)
    omega
  · rintro ⟨hlo, hhi⟩
    have hmem : mark 0 received ≤ upTo := by
      rcases mark_mem 0 received with h | h
      · omega
      · exact (hreceived _ h).2
    have h := (hcount n.toNat (by omega) (by omega)).2
    rw [Int.toNat_of_nonneg (by omega)] at h
    exact List.count_pos_iff.1 (h.2 ⟨by omega, by omega⟩)

/-- The mark behind a block. -/
private theorem mark_of_perm {received : List Int} {base k : Nat} (hperm : received.Perm (block base k)) :
    mark 0 received = if k = 0 then 0 else (base + k : Int) := by
  have hmem : ∀ n, n ∈ received ↔ (base : Int) < n ∧ n ≤ base + k := fun n => hperm.mem_iff.trans mem_block
  split
  · rcases mark_mem 0 received with h | h
    · exact h
    · have hrange := (hmem _).1 h
      omega
  · have htop := (le_mark 0 received).2 (base + k) ((hmem _).2 (by omega))
    rcases mark_mem 0 received with h | h
    · omega
    · have hrange := (hmem _).1 h
      omega

/-- The replay brings nothing that is there, and then everything is there once, exactly when the messages received
are a block right behind the snapshot that is not empty unless the snapshot is. -/
theorem once_iff {received : List Int} {base upTo : Nat} (hle : base ≤ upTo)
    (hreceived : ∀ n ∈ received, 1 ≤ n ∧ n ≤ upTo) :
    ((∀ n : Nat, mark 0 received < n → n ≤ upTo → base < n) ∧
      ∀ n : Nat, 1 ≤ n → n ≤ upTo → times base received upTo n = 1) ↔
      ∃ k, received.Perm (block base k) ∧ (base = 0 ∨ 0 < k) := by
  constructor
  · rintro ⟨hnew, honce⟩
    have hbase := base_le_mark hle hnew
    have hcount : ∀ n : Nat, 1 ≤ n → n ≤ upTo → received.count (n : Int) ≤ 1 ∧
        (0 < received.count (n : Int) ↔ base < n ∧ (n : Int) ≤ mark 0 received) := by
      intro n hpos hn
      have h := honce n hpos hn
      unfold times at h
      constructor
      · omega
      · split at h <;> split at h <;> omega
    refine ⟨(mark 0 received).toNat - base, perm_block_of_count hbase hreceived hcount, ?_⟩
    -- a mark that is no message received is zero, and then the snapshot is empty
    rcases mark_mem 0 received with h | h
    · exact .inl (by omega)
    · obtain ⟨hpos, hup⟩ := hreceived _ h
      have hgt := (hcount (mark 0 received).toNat (by omega) (by omega)).2
      rw [Int.toNat_of_nonneg (by omega)] at hgt
      have hrange := hgt.1 (List.count_pos_iff.2 h)
      exact .inr (by omega)
  · rintro ⟨k, hperm, hk⟩
    have htop := mark_of_perm hperm
    have hbase : (base : Int) ≤ mark 0 received := by
      rw [htop]
      split <;> omega
    refine ⟨fun n hn _ => by omega, ?_⟩
    intro n hpos hn
    have hcount : received.count (n : Int) = if base < n ∧ n ≤ base + k then 1 else 0 := by
      have hle := List.nodup_iff_count_le_one.1 (hperm.nodup_iff.2 (nodup_block base k)) n
      have hiff : 0 < received.count (n : Int) ↔ _ := List.count_pos_iff.trans (hperm.mem_iff.trans mem_block)
      split <;> omega
    unfold times
    rw [hcount]
    by_cases hk0 : k = 0
    · rw [if_pos hk0] at htop
      split <;> split <;> split <;> omega
    · rw [if_neg hk0] at htop
      split <;> split <;> split <;> omega

end Replay
