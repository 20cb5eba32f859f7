import Mathlib.Logic.Function.Basic
import Mathlib.Data.Option.Basic

/-!
# A partial map and its inverse, kept together

`f` gives some keys a name and `g` finds the key of a name.  `Inverse f g` says that `g` finds exactly the keys that
have the name.  A key may be dropped at any time; `insert_iff` and `move_iff` say when the two maps still fit after a
key got a name, first without and then with the old name taken out of `g`.
-/

namespace PartialInverse

variable {κ σ : Type} {f : κ → Option σ} {g : σ → Option κ}

/-- `g` finds a key under a name exactly when the key has this name. -/
def Inverse (f : κ → Option σ) (g : σ → Option κ) : Prop := ∀ s k, g s = some k ↔ f k = some s

theorem inverse_empty : Inverse (fun _ : κ => (none : Option σ)) fun _ => none := by
  intro s k
  constructor <;> rintro ⟨⟩

/-- Two keys never have the same name. -/
theorem Inverse.injective (h : Inverse f g) {k k' : κ} {s : σ} (hk : f k = some s) (hk' : f k' = some s) : k = k' := by
  have hs := (h s k).2 hk
  rw [(h s k').2 hk'] at hs
  exact (Option.some.inj hs).symm

variable [DecidableEq κ] [DecidableEq σ]

/-- Drop a key that has a name, with its name. -/
theorem Inverse.remove (h : Inverse f g) {k : κ} {s : σ} (hk : f k = some s) :
    Inverse (Function.update f k none) (Function.update g s none) := by
  intro s' k'
  by_cases hkey : k' = k
  · subst hkey
    rw [Function.update_self]
    refine iff_of_false ?_ (by rintro ⟨⟩)
    by_cases hs : s' = s
    · subst hs
      rw [Function.update_self]
      rintro ⟨⟩
    · rw [Function.update_of_ne hs]
      intro hg
      have hname := (h s' k').1 hg
      rw [hk] at hname
      exact hs (Option.some.inj hname).symm
  · rw [Function.update_of_ne hkey]
    by_cases hs : s' = s
    · subst hs
      rw [Function.update_self]
      refine iff_of_false (by rintro ⟨⟩) ?_
      intro hname
      exact hkey (h.injective hname hk)
    · rw [Function.update_of_ne hs]
      exact h s' k'

/-- Give a key a name: no other key may have it, and the key must not have another one. -/
theorem Inverse.insert_iff (h : Inverse f g) (k : κ) (s : σ) :
    Inverse (Function.update f k (some s)) (Function.update g s (some k)) ↔
      (∀ k', k' ≠ k → f k' ≠ some s) ∧ ∀ s', f k = some s' → s' = s := by
  constructor
  · intro h'
    constructor
    · intro k' hk' hname
      -- two keys would have the same name
      have hfound := (h' s k').2 (by rwa [Function.update_of_ne hk'])
      rw [Function.update_self] at hfound
      exact hk' (Option.some.inj hfound).symm
    · intro s' hname
      by_contra hs
      -- the entry of the old name stays behind
      have hfound := (h s' k).2 hname
      have hname' := (h' s' k).1 (by rwa [Function.update_of_ne hs])
      rw [Function.update_self] at hname'
      exact hs (Option.some.inj hname').symm
  · rintro ⟨hother, hown⟩ s' k'
    by_cases hs : s' = s
    · subst hs
      rw [Function.update_self]
      by_cases hkey : k' = k
      · subst hkey
        exact iff_of_true rfl (Function.update_self ..)
      · rw [Function.update_of_ne hkey]
        refine iff_of_false ?_ (hother k' hkey)
        intro heq
        exact hkey (Option.some.inj heq).symm
    · rw [Function.update_of_ne hs]
      by_cases hkey : k' = k
      · subst hkey
        rw [Function.update_self, h s' k']
        refine iff_of_false ?_ ?_
        · exact fun hname => hs (hown s' hname)
        · exact fun heq => hs (Option.some.inj heq).symm
      · rw [Function.update_of_ne hkey]
        exact h s' k'

/-- Rename a key: only another key with the new name is in the way. -/
theorem Inverse.move_iff (h : Inverse f g) {k : κ} {old : σ} (hk : f k = some old) (new : σ) :
    Inverse (Function.update f k (some new)) (Function.update (Function.update g old none) new (some k)) ↔
      ∀ k', k' ≠ k → f k' ≠ some new := by
  have hinsert := (h.remove hk).insert_iff k new
  rw [Function.update_idem] at hinsert
  rw [hinsert]
  constructor
  · rintro ⟨hother, -⟩ k' hk'
    have hname := hother k' hk'
    rwa [Function.update_of_ne hk'] at hname
  · intro hother
    constructor
    · intro k' hk'
      rw [Function.update_of_ne hk']
      exact hother k' hk'
    · intro s' hname
      rw [Function.update_self] at hname
      cases hname

end PartialInverse
