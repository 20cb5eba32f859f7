import Mathlib.Data.List.AList

/-!
# Maps in the order of their keys

A finite map that keeps the order in which its keys came: a key that is written again keeps its place, a new one goes
to the end.  The maps are association lists without duplicate keys; `lookup_put` and `mem_put` are what a write does.
-/

namespace OrderedMap

variable {κ ν : Type} [DecidableEq κ]

/-- Write a value. -/
def put (k : κ) (v : ν) (m : AList fun _ : κ => ν) : AList fun _ : κ => ν :=
  if k ∈ m then m.replace k v else m ∪ AList.singleton k v

private theorem dlookup_kreplace (k k' : κ) (v : ν) (entries : List (Sigma fun _ : κ => ν)) (h : k ∈ entries.keys) :
    (entries.kreplace k v).dlookup k' = if k' = k then some v else entries.dlookup k' := by
  induction entries with
  | nil => cases h
  | cons e entries ih =>
    obtain ⟨k₁, v₁⟩ := e
    by_cases hk : k = k₁
    · subst hk
      have hrep : List.kreplace k v (⟨k, v₁⟩ :: entries) = ⟨k, v⟩ :: entries :=
        List.lookmap_cons_some _ entries (if_pos rfl)
      rw [hrep]
      by_cases hk' : k' = k
      · subst hk'
        rw [if_pos rfl, List.dlookup_cons_eq]
      · rw [if_neg hk', List.dlookup_cons_ne _ _ hk', List.dlookup_cons_ne _ _ hk']
    · have hrep : List.kreplace k v (⟨k₁, v₁⟩ :: entries) = ⟨k₁, v₁⟩ :: entries.kreplace k v :=
        List.lookmap_cons_none _ entries (if_neg hk)
      have hmem : k ∈ entries.keys := by simpa [hk] using h
      rw [hrep]
      by_cases hk' : k' = k₁
      · subst hk'
        rw [List.dlookup_cons_eq, List.dlookup_cons_eq, if_neg (Ne.symm hk)]
      · rw [List.dlookup_cons_ne _ _ hk', List.dlookup_cons_ne _ _ hk', ih hmem]

/-- A write and a later read. -/
theorem lookup_put (m : AList fun _ : κ => ν) (k k' : κ) (v : ν) :
    (put k v m).lookup k' = if k' = k then some v else m.lookup k' := by
  unfold put
  by_cases h : k ∈ m
  · rw [if_pos h]
    exact dlookup_kreplace k k' v m.entries (AList.mem_keys.1 h)
  · rw [if_neg h]
    by_cases hk : k' = k
    · subst hk
      rw [if_pos rfl, AList.lookup_union_right h]
      exact List.dlookup_cons_eq _ _ _
    · rw [if_neg hk]
      by_cases hm : k' ∈ m
      · rw [AList.lookup_union_left hm]
      · rw [AList.lookup_union_right hm, AList.lookup_eq_none.2 hm]
        exact List.dlookup_cons_ne _ _ hk

@[simp] theorem mem_put {m : AList fun _ : κ => ν} {k k' : κ} {v : ν} : k' ∈ put k v m ↔ k' = k ∨ k' ∈ m := by
  rw [← AList.lookup_isSome, lookup_put]
  by_cases h : k' = k
  · simp [h]
  · rw [if_neg h, AList.lookup_isSome]
    simp [h]

end OrderedMap
