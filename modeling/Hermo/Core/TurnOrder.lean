import Mathlib.Data.List.Pairwise
import Hermo.Core.TabOps
import Hermo.Transcript.Positions

/-!
# The prompt and the turn it starts

The reply of `prompt.submit` wakes the task of `send`, the events of the turn wake the supervisor, and nothing orders
the append of the one before the first event of the other.  `Race` is the core with the origin of every row of the
session; `prompt_first_iff` says that the prompt stands above the rows of its turn in every state exactly when `send`
appends it before the turn has a row.
-/

namespace Hermo

/-- Where a row comes from: the prompt, the turn it started, anything else. -/
inductive Origin where
  | prompt | turn | other
  deriving DecidableEq, Repr

/-- Every row of the turn has a larger index than the row of the prompt. -/
def PromptFirst (origins : List Origin) : Prop :=
  ∀ i j : Nat, origins[i]? = some .prompt → origins[j]? = some .turn → i < j

/-- A history of the gateway: in it a prompt precedes its turn. -/
structure History where
  origins : List Origin
  promptFirst : PromptFirst origins

/-- One lock section next to the one `send` ends with. -/
inductive Move where
  /-- The supervisor delivers an event of the turn. -/
  | event (ev : EventParams)
  /-- The supervisor re-emits an approval of the turn. -/
  | card (card : Value)
  /-- Any other lock section, with the origins of the rows it installs. -/
  | other (a : Action) (history : History)

structure Race where
  core : CoreState
  origins : List Origin

/-! ### Origins -/

private theorem promptFirst_iff (origins : List Origin) :
    PromptFirst origins ↔ origins.Pairwise fun a b => ¬ (a = .turn ∧ b = .prompt) := by
  rw [List.pairwise_iff_getElem]
  unfold PromptFirst
  constructor
  · rintro h i j hi hj hlt ⟨hturn, hprompt⟩
    have hle := h j i (List.getElem?_eq_some_iff.2 ⟨hj, hprompt⟩) (List.getElem?_eq_some_iff.2 ⟨hi, hturn⟩)
    omega
  · intro h i j hprompt hturn
    obtain ⟨hi, hprompt⟩ := List.getElem?_eq_some_iff.1 hprompt
    obtain ⟨hj, hturn⟩ := List.getElem?_eq_some_iff.1 hturn
    by_contra hlt
    have hne : i ≠ j := by
      rintro rfl
      rw [hprompt] at hturn
      cases hturn
    exact h j i hj hi (by omega) ⟨hturn, hprompt⟩

theorem PromptFirst.take {origins : List Origin} (h : PromptFirst origins) (n : Nat) :
    PromptFirst (origins.take n) := by
  rw [promptFirst_iff] at h ⊢
  exact h.sublist (List.take_sublist n origins)

/-- Rows that are not the prompt may always come at the end. -/
theorem PromptFirst.append {origins : List Origin} (h : PromptFirst origins) {origin : Origin} (ho : origin ≠ .prompt)
    (n : Nat) : PromptFirst (origins ++ List.replicate n origin) := by
  rw [promptFirst_iff] at h ⊢
  refine List.pairwise_append.2 ⟨h, ?_, ?_⟩
  · exact List.pairwise_replicate.2 (.inr fun hpair => ho hpair.2)
  · intro a _ b hb hpair
    rw [List.eq_of_mem_replicate hb] at hpair
    exact ho hpair.2

/-- The prompt may come at the end exactly when the turn has no row yet. -/
theorem promptFirst_append_prompt {origins : List Origin} :
    PromptFirst (origins ++ [.prompt]) ↔ PromptFirst origins ∧ .turn ∉ origins := by
  rw [promptFirst_iff, promptFirst_iff, List.pairwise_append]
  constructor
  · rintro ⟨h, -, hcross⟩
    exact ⟨h, fun hturn => hcross .turn hturn .prompt List.mem_cons_self ⟨rfl, rfl⟩⟩
  · rintro ⟨h, hturn⟩
    refine ⟨h, List.pairwise_singleton .., ?_⟩
    rintro a ha b - ⟨rfl, -⟩
    exact hturn ha

theorem promptFirst_other (n : Nat) : PromptFirst (List.replicate n .other) := by
  intro i j hprompt
  have hmem := List.mem_of_getElem? hprompt
  cases List.eq_of_mem_replicate hmem

/-! ### The rows under a key -/

namespace CoreState

section

variable [Serializer]

/-- Without a replacement the rows of a session stay where they are. -/
theorem places_act {s : CoreState} (hs : s.WellFormed) {key : String} {a : Action} (ha : a.replaces key = false) :
    (s.rowsOf key).map Row.index <+: ((s.act a).1.rowsOf key).map Row.index := by
  have hrows : ∀ t : CoreState, (t.rowsOf key).map Row.index =
      ((t.tab key).live.map fun live => live.reducer.state.places).getD [] := by
    intro t
    unfold rowsOf transcriptOf
    cases (t.tab key).live <;> rfl
  rw [hrows, hrows, tab_act]
  cases hon : s.onTab key a with
  | none => exact List.prefix_refl _
  | some b =>
    obtain ⟨hkeeps, hrebuild⟩ := onTab_kept ha hon
    change _ <+: (((s.tab key).act key b).1.live.map _).getD []
    cases hl : (s.tab key).live with
    | none => exact List.nil_prefix
    | some live =>
      rw [Tab.live_act hl key hkeeps]
      change live.reducer.state.places <+: (live.reducer.performOption _).1.state.places
      cases hop : (s.tab key).op live key b with
      | none => exact List.prefix_refl _
      | some o => exact Reducer.perform_places (hs key live hl) (Tab.op_replaces hrebuild hop)

theorem length_act {s : CoreState} (hs : s.WellFormed) {key : String} {a : Action} (ha : a.replaces key = false) :
    (s.rowsOf key).length ≤ ((s.act a).1.rowsOf key).length := by
  have hle := (places_act hs ha).length_le
  rwa [List.length_map, List.length_map] at hle

/-- The lock section of `send` pushes a row when the session has the captured epoch. -/
theorem length_appendUserRow {s : CoreState} {key : String} {live : LiveSession} (hl : (s.tab key).live = some live)
    (text : String) :
    ((s.act (.appendUserRow key text live.historyEpoch)).1.rowsOf key).length = (s.rowsOf key).length + 1 := by
  have hon : s.onTab key (.appendUserRow key text live.historyEpoch) =
      some (.appendUserRow text live.historyEpoch) := if_pos rfl
  have hop : (s.tab key).op live key (.appendUserRow text live.historyEpoch) = some (.appendUserRow key text) :=
    if_pos rfl
  unfold rowsOf transcriptOf
  rw [tab_act, hon]
  change (((((s.tab key).act key _).1.live.map _).map _).getD []).length = _
  rw [Tab.live_act hl key rfl, hop, hl]
  exact List.length_append

/-- Otherwise it changes nothing. -/
theorem appendUserRow_skip {s : CoreState} {key : String} {historyEpoch : UInt64}
    (h : ∀ live, (s.tab key).live = some live → live.historyEpoch ≠ historyEpoch) (text : String) :
    (s.act (.appendUserRow key text historyEpoch)).1 = s := by
  change (s.appendUserRow key text historyEpoch).1 = s
  unfold appendUserRow
  cases hl : s.sessions.lookup key with
  | none => rfl
  | some live =>
    dsimp only
    rw [if_neg (h live hl)]

end

end CoreState

/-! ### The race -/

namespace Race

variable [Serializer]

/-- The state after a lock section: the rows it pushes have this origin, the rows it installs those of the history. -/
def after (w : Race) (key : String) (a : Action) (origin : Origin) (history : List Origin) : Race :=
  let core := (w.core.act a).1
  let known := if a.replaces key then history.take (core.rowsOf key).length else w.origins
  ⟨core, known ++ List.replicate ((core.rowsOf key).length - known.length) origin⟩

def move (w : Race) (key : String) : Move → Race
  | .event ev => w.after key (.deliver ev) .turn []
  | .card card => w.after key (.reemitCard key card) .turn []
  | .other a history => w.after key a .other history.origins

def run (w : Race) (key : String) (moves : List Move) : Race := moves.foldl (fun w m => w.move key m) w

/-- The lock section of `send` after the reply. -/
def finish (w : Race) (key text : String) (historyEpoch : UInt64) : Race :=
  w.after key (.appendUserRow key text historyEpoch) .prompt []

/-- When `send` will append its row, the turn has no row yet. -/
def NotOvertaken (w : Race) (key : String) (historyEpoch : UInt64) : Prop :=
  ∀ live, (w.core.tab key).live = some live → live.historyEpoch = historyEpoch → .turn ∉ w.origins

/-- Every row has its origin, and so far the prompt stands above its turn. -/
structure Ordered (w : Race) (key : String) : Prop where
  wellFormed : w.core.WellFormed
  length : w.origins.length = (w.core.rowsOf key).length
  promptFirst : PromptFirst w.origins

private theorem after_length {w : Race} {key : String} (hw : w.core.WellFormed)
    (hlen : w.origins.length = (w.core.rowsOf key).length) (a : Action) (origin : Origin) (history : List Origin) :
    (w.after key a origin history).origins.length = ((w.after key a origin history).core.rowsOf key).length := by
  unfold after
  dsimp only
  rw [List.length_append, List.length_replicate]
  cases ha : a.replaces key with
  | true =>
    rw [if_pos rfl, List.length_take]
    omega
  | false =>
    have hle := CoreState.length_act hw ha
    rw [if_neg (by simp)]
    omega

/-- A lock section that does not belong to `send` keeps the order. -/
theorem Ordered.after {w : Race} {key : String} (h : w.Ordered key) (a : Action) {origin : Origin}
    (ho : origin ≠ .prompt) {history : List Origin} (hh : PromptFirst history) :
    (w.after key a origin history).Ordered key := by
  refine ⟨h.wellFormed.act a, after_length h.wellFormed h.length a origin history, ?_⟩
  unfold Race.after
  dsimp only
  refine PromptFirst.append ?_ ho _
  split
  · exact hh.take _
  · exact h.promptFirst

theorem Ordered.move {w : Race} {key : String} (h : w.Ordered key) (m : Move) : (w.move key m).Ordered key := by
  have hnil : PromptFirst [] := by
    intro i j hprompt
    cases hprompt
  cases m with
  | event ev => exact h.after _ (by decide) hnil
  | card card => exact h.after _ (by decide) hnil
  | other a history => exact h.after a (by decide) history.promptFirst

theorem Ordered.run {w : Race} {key : String} (h : w.Ordered key) (moves : List Move) :
    (w.run key moves).Ordered key := by
  induction moves generalizing w with
  | nil => exact h
  | cons m moves ih => exact ih (h.move m)

/-- `send` keeps the order exactly when the turn has no row yet. -/
theorem finish_iff {w : Race} {key : String} (h : w.Ordered key) (text : String) (historyEpoch : UInt64) :
    (w.finish key text historyEpoch).Ordered key ↔ w.NotOvertaken key historyEpoch := by
  by_cases happends : ∃ live, (w.core.tab key).live = some live ∧ live.historyEpoch = historyEpoch
  · obtain ⟨live, hl, rfl⟩ := happends
    have hlen := CoreState.length_appendUserRow hl text
    have horigins : (w.finish key text live.historyEpoch).origins = w.origins ++ [.prompt] := by
      unfold finish after
      dsimp only
      rw [if_neg (by simp [Action.replaces]), hlen, h.length, Nat.add_sub_cancel_left]
      rfl
    -- the row is appended last, so it comes first only while the turn has none
    have hiff : w.NotOvertaken key live.historyEpoch ↔ .turn ∉ w.origins := by
      constructor
      · exact fun hclear => hclear live hl rfl
      · exact fun hturn _ _ _ => hturn
    rw [hiff]
    constructor
    · intro h'
      have hfirst := h'.promptFirst
      rw [horigins] at hfirst
      exact (promptFirst_append_prompt.1 hfirst).2
    · intro hturn
      refine ⟨h.wellFormed.act _, after_length h.wellFormed h.length _ _ _, ?_⟩
      rw [horigins]
      exact promptFirst_append_prompt.2 ⟨h.promptFirst, hturn⟩
  -- the session is gone or was replaced: nothing is appended
  · have hskip : ∀ live, (w.core.tab key).live = some live → live.historyEpoch ≠ historyEpoch :=
      fun live hl he => happends ⟨live, hl, he⟩
    have hsame := CoreState.appendUserRow_skip hskip text
    refine iff_of_true ?_ fun live hl he => absurd he (hskip live hl)
    have hlen : ((w.core.act (.appendUserRow key text historyEpoch)).1.rowsOf key).length - w.origins.length = 0 := by
      rw [hsame, h.length, Nat.sub_self]
    refine ⟨h.wellFormed.act _, after_length h.wellFormed h.length _ _ _, ?_⟩
    unfold finish after
    dsimp only
    rw [if_neg (by simp [Action.replaces]), hlen, List.replicate_zero, List.append_nil]
    exact h.promptFirst

end Race

/-! ### A turn that starts at once -/

section

attribute [local instance] Serializer.compact

private def chatOpen : Action := .openSession (.created ⟨"live", "chat", ""⟩) none 80

private def turnStart : Move := .event ⟨"message.start", "live", some 1, .object []⟩

end

end Hermo
