import Mathlib.Data.Option.Basic
import Mathlib.Data.List.Induction

/-!
# Runs of a partial step function

`exec` runs a list of inputs and stops at the first one that is not possible.  `Meets` says that every input of a run
satisfies a condition in the state it meets; `exec_invariant` carries an invariant through such a run, `exec_history`
one that speaks of the inputs so far.  `always_iff` and `prefixes_iff` are for a property that a step keeps exactly
under a condition, `Since` is for one that some inputs begin and others end, and `noting` for one that needs a record
of the states so far.
-/

namespace Run

variable {σ α : Type} (step : σ → α → Option σ)

/-- The state after the inputs, `none` when one of them is not possible. -/
def exec (s : σ) : List α → Option σ
  | [] => some s
  | a :: as => (step s a).bind fun s' => exec s' as

/-- Every input satisfies `ok` in the state it meets. -/
def Meets (ok : σ → α → Prop) (s : σ) : List α → Prop
  | [] => True
  | a :: as => ok s a ∧ ∀ s', step s a = some s' → Meets ok s' as

theorem Meets.cons {ok : σ → α → Prop} {s s' : σ} {a : α} {as : List α} (hs : step s a = some s') (ha : ok s a)
    (h : Meets step ok s' as) : Meets step ok s (a :: as) := by
  refine ⟨ha, ?_⟩
  intro t ht
  rw [hs, Option.some_inj] at ht
  exact ht ▸ h

theorem meets_of_forall {ok : σ → α → Prop} {as : List α} (h : ∀ a ∈ as, ∀ s, ok s a) (s : σ) :
    Meets step ok s as := by
  induction as generalizing s with
  | nil => trivial
  | cons a as ih =>
    refine ⟨h a List.mem_cons_self s, ?_⟩
    intro s' _
    exact ih (fun b hb => h b (List.mem_cons_of_mem a hb)) s'

theorem Meets.and {ok ok' : σ → α → Prop} {s : σ} {as : List α} (h : Meets step ok s as) (h' : Meets step ok' s as) :
    Meets step (fun s a => ok s a ∧ ok' s a) s as := by
  induction as generalizing s with
  | nil => trivial
  | cons a as ih => exact ⟨⟨h.1, h'.1⟩, fun s' hs' => ih (h.2 s' hs') (h'.2 s' hs')⟩

instance decidableMeets {ok : σ → α → Prop} [∀ s a, Decidable (ok s a)] :
    (s : σ) → (as : List α) → Decidable (Meets step ok s as)
  | _, [] => .isTrue trivial
  | s, a :: as =>
    match hs : step s a with
    | some t =>
      have : Decidable (Meets step ok t as) := decidableMeets t as
      decidable_of_iff (ok s a ∧ Meets step ok t as)
        (and_congr_right fun _ => ⟨fun h _ ht => Option.some_inj.1 (hs ▸ ht) ▸ h, fun h => h t hs⟩)
    | none =>
      decidable_of_iff (ok s a) ⟨fun h => ⟨h, fun _ ht => nomatch hs.symm.trans ht⟩, fun h => h.1⟩

/-- What every allowed step preserves holds after every run whose steps are all allowed. -/
theorem exec_invariant {ok : σ → α → Prop} {P : σ → Prop}
    (hstep : ∀ s a s', P s → ok s a → step s a = some s' → P s') {s s' : σ} {as : List α} (h : P s)
    (hok : Meets step ok s as) (hrun : exec step s as = some s') : P s' := by
  induction as generalizing s with
  | nil =>
    cases hrun
    exact h
  | cons a as ih =>
    obtain ⟨t, ht, hrest⟩ := Option.bind_eq_some_iff.1 hrun
    exact ih (hstep s a t h hok.1 ht) (hok.2 t ht) hrest

/-- What every step preserves holds after every run. -/
theorem exec_preserves {P : σ → Prop} (hstep : ∀ s a s', P s → step s a = some s' → P s') {s s' : σ}
    {as : List α} (h : P s) (hrun : exec step s as = some s') : P s' := by
  have hmeets : Meets step (fun _ _ => True) s as := meets_of_forall step (fun _ _ _ => trivial) s
  exact exec_invariant step (fun s a s' hs _ => hstep s a s' hs) h hmeets hrun

/-! ### Looking back -/

theorem exec_append (s : σ) (as bs : List α) : exec step s (as ++ bs) = (exec step s as).bind (exec step · bs) := by
  induction as generalizing s with
  | nil => rfl
  | cons a as ih =>
    change (step s a).bind (fun t => exec step t (as ++ bs)) = ((step s a).bind fun t => exec step t as).bind _
    rw [Option.bind_assoc]
    exact Option.bind_congr fun t _ => ih t

/-- A run that goes on by one input. -/
theorem exec_snoc {s s' : σ} {as : List α} {a : α} :
    exec step s (as ++ [a]) = some s' ↔ ∃ t, exec step s as = some t ∧ step t a = some s' := by
  rw [exec_append, Option.bind_eq_some_iff]
  refine exists_congr fun t => and_congr_right fun _ => ?_
  change (step t a).bind some = some s' ↔ step t a = some s'
  rw [Option.bind_fun_some]

/-- A run, cut before one of its inputs. -/
theorem exec_cut {s s' : σ} {as bs : List α} {a : α} (hrun : exec step s (as ++ a :: bs) = some s') :
    ∃ t t', exec step s as = some t ∧ step t a = some t' ∧ exec step t' bs = some s' := by
  rw [exec_append] at hrun
  obtain ⟨t, ht, hrest⟩ := Option.bind_eq_some_iff.1 hrun
  obtain ⟨t', ht', hrest⟩ := Option.bind_eq_some_iff.1 hrest
  exact ⟨t, t', ht, ht', hrest⟩

/-- What the inputs of a run meet, from a later state on. -/
theorem Meets.behind {ok : σ → α → Prop} {s t : σ} {as bs : List α} (h : Meets step ok s (as ++ bs))
    (hrun : exec step s as = some t) : Meets step ok t bs := by
  induction as generalizing s with
  | nil =>
    cases hrun
    exact h
  | cons a as ih =>
    obtain ⟨u, hu, hrest⟩ := Option.bind_eq_some_iff.1 hrun
    exact ih (h.2 u hu) hrest

/-- What the inputs of a run meet, up to a later state. -/
theorem Meets.upTo {ok : σ → α → Prop} {s : σ} {as bs : List α} (h : Meets step ok s (as ++ bs)) :
    Meets step ok s as := by
  induction as generalizing s with
  | nil => trivial
  | cons a as ih => exact ⟨h.1, fun t ht => ih (h.2 t ht)⟩

/-- A property of a state and the inputs that led to it, by induction on the last input. -/
theorem exec_history {P : List α → σ → Prop} {s : σ} (hstart : P [] s)
    (hstep : ∀ as t a t', exec step s as = some t → P as t → step t a = some t' → P (as ++ [a]) t') {as : List α}
    {s' : σ} (hrun : exec step s as = some s') : P as s' := by
  induction as using List.reverseRecOn generalizing s' with
  | nil =>
    cases hrun
    exact hstart
  | append_singleton as a ih =>
    obtain ⟨t, ht, ha⟩ := (exec_snoc step).1 hrun
    exact hstep as t a s' ht (ih ht) ha

/-- Along a run with an invariant, where a step keeps a property exactly under a condition: the property holds in all
states of the run if and only if all its steps meet the condition. -/
theorem always_iff {I P : σ → Prop} {given ok : σ → α → Prop} (hI : ∀ s a s', I s → step s a = some s' → I s')
    (hstep : ∀ s a s', I s → P s → given s a → step s a = some s' → (P s' ↔ ok s a)) {s s' : σ} {as : List α}
    (hs : I s) (h : P s) (hgiven : Meets step given s as) (hrun : exec step s as = some s') :
    (∀ before t, before <+: as → exec step s before = some t → P t) ↔ Meets step ok s as := by
  induction as generalizing s with
  | nil =>
    refine iff_of_true ?_ trivial
    intro before t hprefix ht
    rw [List.prefix_nil.1 hprefix] at ht
    cases ht
    exact h
  | cons a as ih =>
    obtain ⟨u, hu, hrest⟩ := Option.bind_eq_some_iff.1 hrun
    have hstate := hstep s a u hs h hgiven.1 hu
    constructor
    · intro hall
      have hP : P u := hall [a] u ⟨as, rfl⟩ (by unfold exec; rw [hu]; rfl)
      refine ⟨hstate.1 hP, ?_⟩
      intro v hv
      rw [hu, Option.some_inj] at hv
      subst hv
      refine (ih (hI s a u hs hu) hP (hgiven.2 u hu) hrest).1 ?_
      intro before t hprefix ht
      refine hall (a :: before) t (List.cons_prefix_cons.2 ⟨rfl, hprefix⟩) ?_
      unfold exec
      rw [hu, Option.bind_some, ht]
    · rintro ⟨hok, hmeets⟩ before t hprefix ht
      have hP : P u := hstate.2 hok
      cases before with
      | nil =>
        cases ht
        exact h
      | cons b before =>
        obtain ⟨rfl, hshort⟩ := List.cons_prefix_cons.1 hprefix
        unfold exec at ht
        rw [hu, Option.bind_some] at ht
        exact (ih (hI s b u hs hu) hP (hgiven.2 u hu) hrest).2 (hmeets u hu) before t hshort ht

/-- A property of all prefixes of a list, where each element keeps it exactly under a condition. -/
theorem prefixes_iff {P : List α → Prop} {ok : List α → α → Prop} (hstart : P [])
    (hstep : ∀ before a, P before → (P (before ++ [a]) ↔ ok before a)) (as : List α) :
    (∀ before, before <+: as → P before) ↔ ∀ before a, before ++ [a] <+: as → ok before a := by
  constructor
  · intro h before a hprefix
    have hbefore : before <+: as := (List.prefix_append before [a]).trans hprefix
    exact (hstep before a (h before hbefore)).1 (h _ hprefix)
  · intro h before
    induction before using List.reverseRecOn with
    | nil => exact fun _ => hstart
    | append_singleton before a ih =>
      intro hprefix
      have hbefore : before <+: as := (List.prefix_append before [a]).trans hprefix
      exact (hstep before a (ih hbefore)).2 (h before a hprefix)

/-- Some element of the list began it, and no later one ended it. -/
def Since (begins : List α → α → Prop) (ends : α → Prop) (as : List α) : Prop :=
  ∃ start a between, as = start ++ a :: between ∧ begins start a ∧ ∀ b ∈ between, ¬ ends b

theorem not_since_nil (begins : List α → α → Prop) (ends : α → Prop) : ¬ Since begins ends [] := by
  rintro ⟨start, a, between, heq, -⟩
  cases start <;> cases heq

theorem since_snoc {begins : List α → α → Prop} {ends : α → Prop} (as : List α) (a : α) :
    Since begins ends (as ++ [a]) ↔ begins as a ∨ (Since begins ends as ∧ ¬ ends a) := by
  constructor
  · rintro ⟨start, b, between, heq, hbegins, hbetween⟩
    -- the last element is the one that began, or stands behind it
    cases between using List.reverseRecOn with
    | nil =>
      obtain ⟨rfl, hlast⟩ := List.append_inj' heq rfl
      cases hlast
      exact .inl hbegins
    | append_singleton between c =>
      rw [← List.cons_append, ← List.append_assoc] at heq
      obtain ⟨rfl, hlast⟩ := List.append_inj' heq rfl
      cases hlast
      refine .inr ⟨⟨start, b, between, rfl, hbegins, ?_⟩, ?_⟩
      · intro d hd
        exact hbetween d (List.mem_append_left _ hd)
      · exact hbetween a (List.mem_append_right _ (List.mem_singleton_self a))
  · rintro (hbegins | ⟨⟨start, b, between, rfl, hbegins, hbetween⟩, ha⟩)
    · exact ⟨as, a, [], rfl, hbegins, nofun⟩
    · refine ⟨start, b, between ++ [a], by simp, hbegins, ?_⟩
      intro c hc
      rcases List.mem_append.1 hc with hc | hc
      · exact hbetween c hc
      · rw [List.mem_singleton.1 hc]
        exact ha

/-- A property of a list that some elements begin and others end: it holds since one that began it. -/
theorem since_iff {Q : List α → Prop} {begins : List α → α → Prop} {ends : α → Prop} (hstart : ¬ Q [])
    (hstep : ∀ before a, Q (before ++ [a]) ↔ begins before a ∨ (Q before ∧ ¬ ends a)) (as : List α) :
    Q as ↔ Since begins ends as := by
  induction as using List.reverseRecOn with
  | nil => exact iff_of_false hstart (not_since_nil begins ends)
  | append_singleton as a ih => rw [hstep, since_snoc, ih]

/-! ### A record beside the state -/

variable {γ : Type}

/-- A step that also notes the state it reaches. -/
def noting (note : γ → σ → γ) (w : σ × γ) (a : α) : Option (σ × γ) :=
  (step w.1 a).map fun s' => (s', note w.2 s')

theorem noting_eq {note : γ → σ → γ} {w w' : σ × γ} {a : α} (h : noting step note w a = some w') :
    step w.1 a = some w'.1 ∧ w'.2 = note w.2 w'.1 := by
  obtain ⟨s', hs, rfl⟩ := Option.map_eq_some_iff.1 h
  exact ⟨hs, rfl⟩

/-- Every run has a record. -/
theorem exec_noting {s s' : σ} {as : List α} (hrun : exec step s as = some s') (note : γ → σ → γ) (record : γ) :
    ∃ record', exec (noting step note) (s, record) as = some (s', record') := by
  induction as generalizing s record with
  | nil =>
    cases hrun
    exact ⟨record, rfl⟩
  | cons a as ih =>
    obtain ⟨t, ht, hrest⟩ := Option.bind_eq_some_iff.1 hrun
    obtain ⟨record', hnoted⟩ := ih hrest (note record t)
    refine ⟨record', ?_⟩
    unfold exec noting
    dsimp only
    rw [ht]
    exact hnoted

end Run
