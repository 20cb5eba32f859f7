import Mathlib.Data.List.Nodup

/-!
# The tab strip

The verbs of `SessionTabs.kt` and `SessionTabs.swift`, which agree.  A verb keeps the keys distinct and the current
tab among them (`TabSet.Valid`).
-/

namespace Hermo

/-- The chats this device has open, in the order of the strip. -/
structure TabSet where
  keys : List String := []
  current : Option String := none
  deriving DecidableEq, Repr

/-- What a launch resumes, and which of it is shown. -/
structure RestorePlan where
  resumeKeys : List String
  current : Option String
  deriving DecidableEq, Repr

/-- The first decision of a launch. -/
inductive LaunchStep where
  | listFailed
  | runPlan (plan : RestorePlan)
  deriving DecidableEq, Repr

namespace TabSet

/-- Switch to an open tab; a key outside the set changes nothing. -/
def select (tabs : TabSet) (key : String) : TabSet :=
  if key ∈ tabs.keys then { tabs with current := some key } else tabs

/-- A new key is appended, and becomes current; an open one only becomes current. -/
def add (tabs : TabSet) (key : String) : TabSet :=
  if key ∈ tabs.keys then { tabs with current := some key } else ⟨tabs.keys ++ [key], some key⟩

/-- Closing the current tab selects the left neighbour, or the new first one. -/
def close (tabs : TabSet) (key : String) : TabSet :=
  if key ∉ tabs.keys then tabs
  else
    let index := tabs.keys.idxOf key
    let remaining := tabs.keys.eraseIdx index
    let nextCurrent :=
      if tabs.current ≠ some key then tabs.current
      else if index > 0 then remaining[index - 1]?
      else remaining.head?
    ⟨remaining, nextCurrent⟩

end TabSet

def restorePlan (keys : List String) (lastActive : Option String) : RestorePlan :=
  ⟨keys, (lastActive.filter (· ∈ keys)).or keys.getLast?⟩

/-- `registryKeys` is `none` where the list could not be read. -/
def launchStep (registryKeys : Option (List String)) (lastActive : Option String) : LaunchStep :=
  match registryKeys with
  | none => .listFailed
  | some keys => .runPlan (restorePlan keys lastActive)

/-- The tap on a tab of the strip; `none` where it does nothing. -/
def tabTap (tabs : TabSet) (currentKey : Option String) (key : String) : Option TabSet :=
  if some key = currentKey ∨ key ∉ tabs.keys then none else some (tabs.select key)

namespace TabSet

/-- The keys are distinct, and the current tab is one of them. -/
structure Valid (tabs : TabSet) : Prop where
  distinct : tabs.keys.Nodup
  shown : ∀ key, tabs.current = some key → key ∈ tabs.keys

theorem valid_empty : Valid {} := ⟨List.nodup_nil, by simp⟩

/-! ### Adding -/

theorem mem_add {tabs : TabSet} {key k : String} : k ∈ (tabs.add key).keys ↔ k ∈ tabs.keys ∨ k = key := by
  unfold add
  by_cases h : key ∈ tabs.keys
  · rw [if_pos h]
    constructor
    · exact Or.inl
    · rintro (hk | rfl)
      · exact hk
      · exact h
  · simp [h]

@[simp] theorem current_add (tabs : TabSet) (key : String) : (tabs.add key).current = some key := by
  unfold add
  split <;> rfl

theorem nodup_add {tabs : TabSet} (h : tabs.keys.Nodup) (key : String) : (tabs.add key).keys.Nodup := by
  unfold add
  by_cases hk : key ∈ tabs.keys
  · rw [if_pos hk]
    exact h
  · rw [if_neg hk]
    exact List.nodup_append.2 ⟨h, List.nodup_singleton key, by simp; grind⟩

theorem Valid.add {tabs : TabSet} (h : tabs.Valid) (key : String) : (tabs.add key).Valid := by
  refine ⟨nodup_add h.distinct key, ?_⟩
  intro k hk
  rw [current_add, Option.some_inj] at hk
  exact mem_add.2 (.inr hk.symm)

/-! ### Selecting -/

theorem tabTap_eq {tabs next : TabSet} {currentKey : Option String} {key : String}
    (h : tabTap tabs currentKey key = some next) : key ∈ tabs.keys ∧ next = ⟨tabs.keys, some key⟩ := by
  unfold tabTap at h
  split at h
  · cases h
  · rename_i hkey
    rw [not_or, not_not] at hkey
    cases h
    unfold select
    rw [if_pos hkey.2]
    exact ⟨hkey.2, rfl⟩

/-- A tap that does nothing leaves what it would show on the screen. -/
theorem tabTap_none {tabs : TabSet} {currentKey : Option String} {key : String}
    (h : tabTap tabs currentKey key = none) : (if key ∈ tabs.keys then some key else currentKey) = currentKey := by
  unfold tabTap at h
  split at h
  · rename_i hkey
    by_cases hmem : key ∈ tabs.keys
    · rw [if_pos hmem]
      exact hkey.resolve_right (not_not.2 hmem)
    · exact if_neg hmem
  · cases h

/-! ### Closing -/

/-- Closing takes the key out. -/
theorem keys_close (tabs : TabSet) (key : String) : (tabs.close key).keys = tabs.keys.erase key := by
  unfold close
  by_cases h : key ∈ tabs.keys
  · rw [if_neg (not_not.2 h)]
    exact (List.erase_eq_eraseIdx_of_idxOf rfl).symm
  · rw [if_pos h, List.erase_of_not_mem h]

theorem mem_close {tabs : TabSet} (h : tabs.keys.Nodup) {key k : String} :
    k ∈ (tabs.close key).keys ↔ k ≠ key ∧ k ∈ tabs.keys := by
  rw [keys_close, h.mem_erase_iff]

/-- Closing another tab keeps the current one. -/
theorem current_close_of_ne {tabs : TabSet} {key : String} (h : tabs.current ≠ some key) :
    (tabs.close key).current = tabs.current := by
  unfold close
  by_cases hmem : key ∈ tabs.keys
  · rw [if_neg (not_not.2 hmem)]
    exact if_pos h
  · rw [if_pos hmem]

/-- Closing the current tab shows one that remains, unless there is none. -/
theorem current_close_self {tabs : TabSet} {key : String} (hmem : key ∈ tabs.keys) (h : tabs.current = some key) :
    (∀ k, (tabs.close key).current = some k → k ∈ (tabs.close key).keys) ∧
      ((tabs.close key).current = none ↔ (tabs.close key).keys = []) := by
  have hclose : tabs.close key = ⟨tabs.keys.eraseIdx (tabs.keys.idxOf key),
      if tabs.keys.idxOf key > 0 then (tabs.keys.eraseIdx (tabs.keys.idxOf key))[tabs.keys.idxOf key - 1]?
      else (tabs.keys.eraseIdx (tabs.keys.idxOf key)).head?⟩ := by
    unfold close
    rw [if_neg (not_not.2 hmem)]
    simp only [h, ne_eq, not_true_eq_false, if_false]
  have hlt := List.idxOf_lt_length_of_mem hmem
  have hlen := List.length_eraseIdx_add_one hlt
  rw [hclose]
  generalize tabs.keys.idxOf key = index at hlt hlen ⊢
  generalize tabs.keys.eraseIdx index = remaining at hlen ⊢
  by_cases hpos : index > 0
  · simp only [if_pos hpos]
    refine ⟨fun k hk => List.mem_of_getElem? hk, ?_⟩
    rw [List.getElem?_eq_none_iff]
    constructor
    · intro hle
      omega
    · rintro rfl
      exact Nat.zero_le _
  · simp only [if_neg hpos]
    exact ⟨fun k hk => List.mem_of_head? hk, List.head?_eq_none_iff⟩

theorem Valid.close {tabs : TabSet} (h : tabs.Valid) (key : String) : (tabs.close key).Valid := by
  refine ⟨?_, ?_⟩
  · rw [keys_close]
    exact h.distinct.erase key
  · by_cases hcur : tabs.current = some key
    · exact (current_close_self (h.shown key hcur) hcur).1
    · intro k hk
      rw [current_close_of_ne hcur] at hk
      have hne : k ≠ key := by
        rintro rfl
        exact hcur hk
      exact (mem_close h.distinct).2 ⟨hne, h.shown k hk⟩

/-! ### Runs of the verbs -/

/-- Closing the current tab selects the one on its left, or the new first one. -/
theorem current_close_left {tabs : TabSet} {key : String} {left right : List String}
    (hkeys : tabs.keys = left ++ key :: right) (hleft : key ∉ left) (h : tabs.current = some key) :
    (tabs.close key).current = left.getLast?.or right.head? := by
  have hmem : key ∈ tabs.keys := by
    rw [hkeys]
    exact List.mem_append_right left List.mem_cons_self
  have hindex : tabs.keys.idxOf key = left.length := by
    rw [hkeys, List.idxOf_append_of_notMem hleft, List.idxOf_cons_self, Nat.add_zero]
  have hremaining : tabs.keys.eraseIdx left.length = left ++ right := by
    rw [hkeys, List.eraseIdx_append_of_length_le (Nat.le_refl _), Nat.sub_self, List.eraseIdx_cons_zero]
  unfold close
  rw [if_neg (not_not.2 hmem), hindex]
  dsimp only
  rw [hremaining, if_neg (not_not.2 h)]
  split
  · rename_i hpos
    have hlast : left.length - 1 < left.length := Nat.sub_one_lt_of_lt hpos
    rw [List.getElem?_append_left hlast, ← List.getLast?_eq_getElem?, Option.or_of_isSome]
    exact List.getLast?_isSome.2 (List.length_pos_iff.1 hpos)
  · rename_i hpos
    have hnil : left = [] := List.length_eq_zero_iff.1 (Nat.eq_zero_of_not_pos hpos)
    rw [hnil]
    rfl

/-- A tab is shown as soon as there is one. -/
structure Settled (tabs : TabSet) : Prop extends tabs.Valid where
  absent : tabs.current = none ↔ tabs.keys = []

theorem settled_of_mem {keys : List String} {key : String} (h : keys.Nodup) (hkey : key ∈ keys) :
    Settled ⟨keys, some key⟩ := by
  refine ⟨⟨h, ?_⟩, ?_⟩
  · intro k hk
    rw [← Option.some_inj.1 hk]
    exact hkey
  · exact iff_of_false nofun (List.ne_nil_of_mem hkey)

theorem Settled.select {tabs : TabSet} (h : tabs.Settled) (key : String) : (tabs.select key).Settled := by
  unfold TabSet.select
  split
  · rename_i hkey
    exact settled_of_mem h.distinct hkey
  · exact h

theorem Settled.add {tabs : TabSet} (h : tabs.Settled) (key : String) : (tabs.add key).Settled := by
  refine ⟨h.toValid.add key, ?_⟩
  rw [current_add]
  exact iff_of_false nofun (List.ne_nil_of_mem (mem_add.2 (.inr rfl)))

theorem Settled.close {tabs : TabSet} (h : tabs.Settled) (key : String) : (tabs.close key).Settled := by
  refine ⟨h.toValid.close key, ?_⟩
  by_cases hcur : tabs.current = some key
  · exact (current_close_self (h.shown key hcur) hcur).2
  · rw [current_close_of_ne hcur]
    cases hnone : tabs.current with
    | none =>
      rw [keys_close, h.absent.1 hnone]
      exact iff_of_true rfl rfl
    | some k =>
      have hne : k ≠ key := by
        rintro rfl
        exact hcur hnone
      have hmem : k ∈ (tabs.close key).keys := (mem_close h.distinct).2 ⟨hne, h.shown k hnone⟩
      exact iff_of_false nofun (List.ne_nil_of_mem hmem)

/-- A verb with its arguments. -/
inductive Verb where
  | select (key : String)
  | add (key : String)
  | close (key : String)
  | tap (currentKey : Option String) (key : String)
  deriving DecidableEq, Repr

/-- A tap that returns nothing leaves the set alone. -/
def Verb.apply (tabs : TabSet) : Verb → TabSet
  | .select key => tabs.select key
  | .add key => tabs.add key
  | .close key => tabs.close key
  | .tap currentKey key => (tabTap tabs currentKey key).getD tabs

theorem Settled.apply {tabs : TabSet} (h : tabs.Settled) (verb : Verb) : (verb.apply tabs).Settled := by
  cases verb with
  | select key => exact h.select key
  | add key => exact h.add key
  | close key => exact h.close key
  | tap currentKey key =>
    change ((tabTap tabs currentKey key).getD tabs).Settled
    cases htap : tabTap tabs currentKey key with
    | none => exact h
    | some next =>
      obtain ⟨hkey, rfl⟩ := tabTap_eq htap
      exact settled_of_mem h.distinct hkey

theorem Settled.run {tabs : TabSet} (h : tabs.Settled) (verbs : List Verb) :
    (verbs.foldl Verb.apply tabs).Settled := by
  induction verbs generalizing tabs with
  | nil => exact h
  | cons verb verbs ih => exact ih (h.apply verb)

/-- The set of a launch at which every planned key could be resumed. -/
def ofPlan (plan : RestorePlan) : TabSet := ⟨plan.resumeKeys, plan.current⟩

/-- A fresh start, or the plan for a registry of distinct keys. -/
inductive Start : TabSet → Prop where
  | empty : Start {}
  | restored (keys : List String) (lastActive : Option String) (h : keys.Nodup) :
      Start (ofPlan (restorePlan keys lastActive))

theorem Start.settled {tabs : TabSet} (h : Start tabs) : tabs.Settled := by
  cases h with
  | empty => exact ⟨valid_empty, iff_of_true rfl rfl⟩
  | restored keys lastActive h =>
    unfold restorePlan ofPlan
    cases hactive : lastActive.filter (· ∈ keys) with
    | some key =>
      have hkey : key ∈ keys := of_decide_eq_true (Option.filter_eq_some_iff.1 hactive).2
      exact settled_of_mem h hkey
    | none =>
      refine ⟨⟨h, fun key hkey => List.mem_of_getLast? hkey⟩, ?_⟩
      exact List.getLast?_eq_none_iff

/-- On iOS a key stands for all that are canonically equivalent to it, as `==` does not tell them apart. -/
theorem verbs_settled {start : TabSet} (h : Start start) (verbs : List Verb) :
    let tabs := verbs.foldl Verb.apply start
    tabs.keys.Nodup ∧ (∀ key, tabs.current = some key → key ∈ tabs.keys) ∧ (tabs.current = none ↔ tabs.keys = []) ∧
      (∀ left key right, tabs.keys = left ++ key :: right →
        (tabs.close key).keys = left ++ right ∧
          (tabs.current = some key → (tabs.close key).current = left.getLast?.or right.head?)) ∧
      ∀ key, tabs.current ≠ some key → (tabs.close key).current = tabs.current := by
  intro tabs
  have hsettled : tabs.Settled := h.settled.run verbs
  refine ⟨hsettled.distinct, hsettled.shown, hsettled.absent, ?_, ?_⟩
  · intro left key right hkeys
    have hdistinct := hsettled.distinct
    rw [hkeys, List.nodup_middle, List.nodup_cons] at hdistinct
    have hleft : key ∉ left := fun hmem => hdistinct.1 (List.mem_append_left right hmem)
    refine ⟨?_, current_close_left hkeys hleft⟩
    rw [keys_close, hkeys, List.erase_append_right _ hleft, List.erase_cons_head]
  · intro key hne
    exact current_close_of_ne hne

theorem verbs_settled_restored :
    ((ofPlan (restorePlan ["a", "b", "c"] (some "b"))).close "b") = ⟨["a", "c"], some "a"⟩ ∧
      ∀ key, ([Verb.close "b", .add "d"].foldl Verb.apply
        (ofPlan (restorePlan ["a", "b", "c"] (some "b")))).current = some key → key ∈ ["a", "c", "d"] :=
  ⟨by decide, (verbs_settled (.restored ["a", "b", "c"] (some "b") (by decide)) [.close "b", .add "d"]).2.1⟩

end TabSet

end Hermo
