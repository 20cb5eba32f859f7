import Mathlib.Data.List.Flatten
import Hermo.App.AppState

/-!
# Chats that are open or being opened

A chat must not be opened again while it is a tab or while an open of it is in progress: `Single`.  What a step may turn
into tabs is what its opens have claimed before, which is counted key by key (`Takes`).
-/

namespace Hermo.AppState

/-- The chats that are being opened are distinct, and none of them is a tab. -/
structure Single (s : AppState) (opening : List String) : Prop where
  distinct : opening.Nodup
  closed : ∀ key ∈ opening, key ∉ s.tabs.keys

def tabCount (s : AppState) (key : String) : Nat := if key ∈ s.tabs.keys then 1 else 0

theorem single_iff {s : AppState} {opening : List String} :
    s.Single opening ↔ ∀ key, s.tabCount key + opening.count key ≤ 1 := by
  constructor
  · intro h key
    unfold tabCount
    by_cases hkey : key ∈ s.tabs.keys
    · have hnone : key ∉ opening := fun hmem => h.closed key hmem hkey
      rw [if_pos hkey, List.count_eq_zero_of_not_mem hnone]
    · have hone := List.nodup_iff_count_le_one.1 h.distinct key
      rw [if_neg hkey]
      omega
  · intro h
    constructor
    · refine List.nodup_iff_count_le_one.2 fun key => ?_
      have hkey := h key
      omega
    · intro key hmem htab
      have hkey := h key
      have hpos := List.count_pos_iff.2 hmem
      unfold tabCount at hkey
      rw [if_pos htab] at hkey
      omega

theorem Single.sublist {s : AppState} {opening claimed : List String} (h : s.Single claimed)
    (hsub : opening.Sublist claimed) : s.Single opening :=
  ⟨h.distinct.sublist hsub, fun key hkey => h.closed key (hsub.subset hkey)⟩

/-- From `s` to `s'` the claims become tabs, are left, or are given up. -/
def Takes (s : AppState) (claims : List String) (s' : AppState) (left : List String) : Prop :=
  ∀ key, s'.tabCount key + left.count key ≤ s.tabCount key + claims.count key

theorem tabCount_le {s s' : AppState} (h : ∀ key ∈ s'.tabs.keys, key ∈ s.tabs.keys) (key : String) :
    s'.tabCount key ≤ s.tabCount key := by
  unfold tabCount
  by_cases hkey : key ∈ s'.tabs.keys
  · rw [if_pos hkey, if_pos (h key hkey)]
  · rw [if_neg hkey]
    exact Nat.zero_le _

/-- No tab comes, and no claim. -/
theorem takes_of_subset {s s' : AppState} (h : ∀ key ∈ s'.tabs.keys, key ∈ s.tabs.keys) (claims : List String) :
    s.Takes claims s' claims := fun key => Nat.add_le_add_right (tabCount_le h key) _

theorem takes_add {s s' : AppState} {key : String} (h : s'.tabs = s.tabs.add key) : s.Takes [key] s' [] := by
  intro k
  unfold tabCount
  rw [h, List.count_nil, Nat.add_zero]
  by_cases hk : k ∈ (s.tabs.add key).keys
  · rw [if_pos hk]
    rcases TabSet.mem_add.1 hk with hold | rfl
    · rw [if_pos hold]
      exact Nat.le_add_right _ _
    · rw [List.count_singleton_self]
      exact Nat.le_add_left _ _
  · rw [if_neg hk]
    exact Nat.zero_le _

theorem Takes.trans {s mid s' : AppState} {claims between left : List String} (h : s.Takes claims mid between)
    (h' : mid.Takes between s' left) : s.Takes claims s' left := fun key => (h' key).trans (h key)

/-- Other claims stay what they are. -/
theorem Takes.append {s s' : AppState} {claims left : List String} (h : s.Takes claims s' left) (rest : List String) :
    s.Takes (claims ++ rest) s' (left ++ rest) := by
  intro key
  have hkey := h key
  rw [List.count_append, List.count_append]
  omega

/-- Claims that are given up. -/
theorem Takes.sublist {s s' : AppState} {claims claims' left left' : List String} (h : s.Takes claims s' left)
    (hclaims : claims.Sublist claims') (hleft : left'.Sublist left) : s.Takes claims' s' left' := by
  intro key
  have hkey := h key
  have hmore := hclaims.count_le key
  have hless := hleft.count_le key
  omega

/-- Free chats may be claimed, and claims may become tabs. -/
theorem Single.step {s s' : AppState} {claimed claimed' new : List String} (h : s.Single claimed)
    (hdistinct : new.Nodup) (hfree : ∀ key ∈ new, key ∉ s.tabs.keys ∧ key ∉ claimed)
    (htakes : s.Takes (claimed ++ new) s' claimed') : s'.Single claimed' := by
  have hall : s.Single (claimed ++ new) := by
    refine ⟨List.nodup_append.2 ⟨h.distinct, hdistinct, ?_⟩, ?_⟩
    · rintro key hkey other hother rfl
      exact (hfree key hother).2 hkey
    · intro key hkey
      rcases List.mem_append.1 hkey with hkey | hkey
      · exact h.closed key hkey
      · exact (hfree key hkey).1
  exact single_iff.2 fun key => (htakes key).trans (single_iff.1 hall key)

end Hermo.AppState
