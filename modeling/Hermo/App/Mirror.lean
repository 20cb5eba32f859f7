import Mathlib.Data.List.Induction
import Hermo.App.TranscriptState
import Hermo.Core.TabOps

/-!
# The rows of the app and the rows of the core

The sink hands every change to the app before the next lock section runs.  `appRows` is the row list the app keeps for
a tab along such a run; the app drops it when it closes the tab.  `mirrored_iff` says when it shows the rows of the
core: an open reports no changes when its history is empty, so a session that is opened again must have no rows then.
-/

namespace Hermo

/-- The rows under a key. -/
def Tab.rows (t : Tab) : List Row := (t.live.map fun live => live.reducer.state.rows).getD []

theorem CoreState.rowsOf_eq (s : CoreState) (key : String) : s.rowsOf key = (s.tab key).rows := by
  unfold rowsOf transcriptOf Tab.rows
  rw [Option.map_map]
  rfl

private theorem CoreState.onTab_closes {s : CoreState} {key : String} {a : Action} :
    s.onTab key a = some .close ↔ a.closes key := by
  cases a <;> simp [onTab, Action.closes]

private theorem openReducer_changes (reply : OpenReply) (h : reply.messages ≠ []) (copy : List Row) :
    mirror copy (openReducer reply).1.state.rows ((openReducer reply).2.map SessionChange.change) =
      some (openReducer reply).1.state.rows := by
  unfold openReducer
  rw [if_neg h]
  exact Reducer.ingestResumeMessages_mirror {} reply.key reply.messages copy

section

variable [Serializer]

/-! ### One tab action -/

/-- An action that keeps the session sends what the app needs. -/
private theorem receive_keeps {t : Tab} (h : t.WellFormed) (key : String) {b : TabAction} (hb : b.keeps)
    (hlen : (t.act key b).1.rows.length ≤ intLimit) :
    receive (t.rows.map rowText) (t.act key b).2 = some ((t.act key b).1.rows.map rowText) := by
  cases hl : t.live with
  | none =>
    obtain ⟨hlive, hdtos⟩ := Tab.act_none hl key hb
    unfold Tab.rows
    rw [hlive, hdtos, hl]
    rfl
  | some live =>
    obtain ⟨title, hdtos⟩ := Tab.dtos_act hl key hb
    have hafter : (t.act key b).1.rows = (live.reducer.performOption (t.op live key b)).1.state.rows := by
      unfold Tab.rows
      rw [Tab.live_act hl key hb]
      rfl
    have hbefore : t.rows = live.reducer.state.rows := by
      unfold Tab.rows
      rw [hl]
      rfl
    rw [hafter] at hlen ⊢
    rw [hdtos, hbefore]
    refine receive_mirror ?_ hlen key title
    cases t.op live key b with
    | none => rfl
    | some o => exact Reducer.perform_mirror (h live hl) o

/-- One tab action, for a tab that is not closed. -/
private theorem receive_act {t : Tab} (h : t.WellFormed) (key : String) {b : TabAction} (hb : b ≠ .close)
    (hlen : (t.act key b).1.rows.length ≤ intLimit) :
    receive (t.rows.map rowText) (t.act key b).2 = some ((t.act key b).1.rows.map rowText) ↔
      ∀ reply profile cols historyEpoch, b = .openSession reply profile cols historyEpoch → reply.messages = [] →
        t.rows = [] := by
  by_cases hk : b.keeps
  · refine iff_of_true (receive_keeps h key hk hlen) ?_
    rintro reply profile cols historyEpoch rfl
    cases hk
  · cases b with
    | close => exact absurd rfl hb
    | openSession reply profile cols historyEpoch =>
      change receive (t.rows.map rowText) (changesToDtos key (openReducer reply).2
        (openReducer reply).1.state.rows "") = some ((openReducer reply).1.state.rows.map rowText) ↔ _
      by_cases hm : reply.messages = []
      · have hopen : openReducer reply = ({}, []) := if_pos hm
        rw [hopen]
        change some (t.rows.map rowText) = some [] ↔ _
        rw [Option.some_inj, List.map_eq_nil_iff]
        constructor
        · intro hrows _ _ _ _ _ _
          exact hrows
        · intro hrows
          exact hrows reply profile cols historyEpoch rfl hm
      · refine iff_of_true (receive_mirror (openReducer_changes reply hm t.rows) hlen key "") ?_
        intro _ _ _ _ heq
        cases heq
        exact fun hempty => absurd hempty hm
    | _ => exact absurd rfl hk

namespace CoreState

/-! ### One lock section -/

/-- The rows the app keeps for `key` after a lock section. -/
def appStep (s : CoreState) (key : String) (rows : List String) (a : Action) : Option (List String) :=
  if a.closes key then some [] else receive rows ((s.act a).2.filter (·.key == key))

/-- The rows the app keeps for `key` after a run. -/
def appRows (s : CoreState) (key : String) (rows : List String) : List Action → Option (List String)
  | [] => some rows
  | a :: actions => (s.appStep key rows a).bind fun rows' => (s.act a).1.appRows key rows' actions

theorem appRows_concat (s : CoreState) (key : String) (rows : List String) (pre : List Action) (a : Action) :
    s.appRows key rows (pre ++ [a]) =
      (s.appRows key rows pre).bind fun rows' => (s.run pre).appStep key rows' a := by
  induction pre generalizing s rows with
  | nil =>
    simp only [List.nil_append, appRows, run_nil, Option.bind_some]
    cases s.appStep key rows a <;> rfl
  | cons b pre ih =>
    simp only [List.cons_append, appRows, run_cons]
    cases s.appStep key rows b with
    | none => rfl
    | some rows' => exact ih _ _

theorem appRows_length {s : CoreState} {key : String} {rows rows' : List String} {actions : List Action}
    (h : s.appRows key rows actions = some rows') (hlen : rows.length ≤ intLimit) : rows'.length ≤ intLimit := by
  induction actions generalizing s rows with
  | nil =>
    cases h
    exact hlen
  | cons a actions ih =>
    obtain ⟨mid, hmid, hrest⟩ := Option.bind_eq_some_iff.1 h
    refine ih hrest ?_
    unfold appStep at hmid
    split at hmid
    · cases hmid
      exact Nat.zero_le _
    · exact receive_length hmid hlen

/-- One lock section, the app having shown the rows before it. -/
theorem appStep_iff {s : CoreState} (h : s.WellFormed) (key : String) (a : Action)
    (hlen : ((s.act a).1.rowsOf key).length ≤ intLimit) :
    s.appStep key ((s.rowsOf key).map rowText) a = some (((s.act a).1.rowsOf key).map rowText) ↔
      ∀ reply profile cols, a = .openSession reply profile cols → reply.key = key → reply.messages = [] →
        s.rowsOf key = [] := by
  unfold appStep
  simp only [rowsOf_eq, tab_act] at hlen ⊢
  by_cases hc : a.closes key
  · have hon : s.onTab key a = some .close := onTab_closes.2 hc
    rw [if_pos hc, hon]
    refine iff_of_true rfl ?_
    rintro reply profile cols rfl
    cases hc
  · rw [if_neg hc, dtos_act]
    cases hon : s.onTab key a with
    -- an action on another tab sends nothing for this one
    | none =>
      refine iff_of_true rfl ?_
      rintro reply profile cols rfl hkey
      rw [onTab, if_pos hkey] at hon
      cases hon
    | some b =>
      rw [hon] at hlen
      have hb : b ≠ .close := by
        rintro rfl
        exact hc (onTab_closes.1 hon)
      refine (receive_act (h key) key hb hlen).trans ?_
      constructor
      · rintro hrows reply profile cols rfl hkey hm
        rw [onTab, if_pos hkey, Option.some_inj] at hon
        exact hrows reply profile cols _ hon.symm hm
      · rintro hrows reply profile cols historyEpoch rfl hm
        obtain ⟨rfl, hkey⟩ := onTab_open hon
        exact hrows reply profile cols rfl hkey hm

/-! ### A run -/

/-- No transcript of the run outgrows an `Int`. -/
def Fits (s : CoreState) (key : String) (actions : List Action) : Prop :=
  ∀ pre, pre <+: actions → ((s.run pre).rowsOf key).length ≤ intLimit

/-- Where the session of `key` is opened with an empty history, there are no rows under the key. -/
def OpensClear (s : CoreState) (key : String) (actions : List Action) : Prop :=
  ∀ pre reply profile cols, pre ++ [.openSession reply profile cols] <+: actions → reply.key = key →
    reply.messages = [] → (s.run pre).rowsOf key = []

private theorem run_concat (s : CoreState) (pre : List Action) (a : Action) :
    s.run (pre ++ [a]) = ((s.run pre).act a).1 := run_append s pre [a]

/-- The app shows the rows of the core after such a run. -/
theorem appRows_eq (registry : SessionRegistry) (key : String) {actions : List Action}
    (hfits : (new registry).Fits key actions) (hclear : (new registry).OpensClear key actions) :
    (new registry).appRows key [] actions = some ((((new registry).run actions).rowsOf key).map rowText) := by
  induction actions using List.reverseRecOn with
  | nil => rfl
  | append_singleton pre a ih =>
    have hpre : pre <+: pre ++ [a] := List.prefix_append pre [a]
    have hbefore := ih (fun p hp => hfits p (hp.trans hpre)) (fun p r pr c hp => hclear p r pr c (hp.trans hpre))
    have hlen := hfits _ (List.prefix_refl _)
    rw [run_concat] at hlen
    rw [appRows_concat, hbefore, Option.bind_some, run_concat]
    refine (appStep_iff ((wellFormed_new registry).run pre) key a hlen).2 ?_
    rintro reply profile cols rfl
    exact hclear pre reply profile cols (List.prefix_refl _)

/-- In every run from a start of the core the app shows the rows of the core after each lock section exactly when no
transcript outgrows an `Int` and every session that is opened with an empty history had no rows under its key. -/
theorem mirrored_iff (registry : SessionRegistry) (key : String) (actions : List Action) :
    let start := new registry
    (∀ pre, pre <+: actions → start.appRows key [] pre = some (((start.run pre).rowsOf key).map rowText)) ↔
      start.Fits key actions ∧ start.OpensClear key actions := by
  intro start
  constructor
  · intro h
    have hfits : start.Fits key actions := by
      intro pre hpre
      have hbound := appRows_length (h pre hpre) (Nat.zero_le _)
      rwa [List.length_map] at hbound
    refine ⟨hfits, ?_⟩
    intro pre reply profile cols hpre
    have hbefore : pre <+: actions := (List.prefix_append pre _).trans hpre
    have hstep := h _ hpre
    rw [appRows_concat, h pre hbefore, Option.bind_some, run_concat] at hstep
    have hlen := hfits _ hpre
    rw [run_concat] at hlen
    exact (appStep_iff ((wellFormed_new registry).run pre) key _ hlen).1 hstep reply profile cols rfl
  · rintro ⟨hfits, hclear⟩ pre hpre
    exact appRows_eq registry key (fun p hp => hfits p (hp.trans hpre))
      (fun p r pr c hp => hclear p r pr c (hp.trans hpre))

end CoreState

end

/-! ### A chat opened again -/

section

attribute [local instance] Serializer.compact

private def reopenings : List Action :=
  [.openSession (.created ⟨"live", "chat", ""⟩) none 80, .appendUserRow "chat" "hi" 1,
    .openSession (.resumed "chat" ⟨"live", [], ""⟩) none 80]

/-- A chat with one row is opened again, and the history of the reply is empty: the core shows no row, but no change
is sent, so the app still shows the old one. -/
theorem reopen_keeps_old_row :
    let start := CoreState.new {}
    (start.run reopenings).rowsOf "chat" = [] ∧
      start.appRows "chat" [] reopenings = some [rowText ⟨0, .user "hi"⟩] ∧
      ¬ ∀ pre, pre <+: reopenings →
        start.appRows "chat" [] pre = some (((start.run pre).rowsOf "chat").map rowText) := by
  intro start
  have hrows : (start.run reopenings).rowsOf "chat" = [] := by decide
  have happ : start.appRows "chat" [] reopenings = some [rowText ⟨0, .user "hi"⟩] := by decide
  refine ⟨hrows, happ, ?_⟩
  intro h
  have hmirrored := h reopenings (List.prefix_refl _)
  rw [hrows, happ] at hmirrored
  cases hmirrored

end

end Hermo
