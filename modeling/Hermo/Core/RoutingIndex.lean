import Hermo.Core.Routing
import Hermo.Library.PartialInverse
import Mathlib.Data.List.Induction

/-!
# The routing index and the live sids

`route_event` finds the session of a live sid in `sid_index`, and every open session holds its live sid itself.  The
two agree (`Indexed`) as long as an open or a re-point does not bring in a live sid that another session still holds,
and an open does not give a session that is open another live sid: `open_session_inner` never removes the entry of the
old one, and `repoint_live_sid` removes it without asking whose it is.
-/

namespace Hermo

open PartialInverse

namespace CoreState

/-- The live sid of an open session. -/
def liveSid (s : CoreState) (key : String) : Option String := (s.sessions.lookup key).map LiveSession.liveSid

/-- The index maps a live sid to a key exactly when the session of the key is open and has this live sid. -/
def Indexed (s : CoreState) : Prop := Inverse s.liveSid fun sid => s.sidIndex.lookup sid

/-- The action brings in no live sid that another session holds, and an open does not change the one of its session. -/
def KeepsIndex (s : CoreState) : Action → Prop
  | .openSession reply _ _ =>
    (∀ key, key ≠ reply.key → s.liveSid key ≠ some reply.liveSid) ∧
      ∀ sid, s.liveSid reply.key = some sid → sid = reply.liveSid
  | .repointLiveSid key newLiveSid =>
    (s.liveSid key).isSome → ∀ key', key' ≠ key → s.liveSid key' ≠ some newLiveSid
  | _ => True

theorem indexed_new (registry : SessionRegistry) : (new registry).Indexed := inverse_empty

private theorem lookup_insert_eq {α : Type} (m : AList fun _ : String => α) (key : String) (a : α) :
    (fun k => (m.insert key a).lookup k) = Function.update (fun k => m.lookup k) key (some a) := by
  funext k
  by_cases h : k = key
  · subst h
    rw [AList.lookup_insert, Function.update_self]
  · rw [AList.lookup_insert_ne h, Function.update_of_ne h]

private theorem lookup_erase_eq {α : Type} (m : AList fun _ : String => α) (key : String) :
    (fun k => (m.erase key).lookup k) = Function.update (fun k => m.lookup k) key none := by
  funext k
  by_cases h : k = key
  · subst h
    rw [AList.lookup_erase, Function.update_self]
  · rw [AList.lookup_erase_ne h, Function.update_of_ne h]

private theorem liveSid_insert (s : CoreState) (key : String) (live : LiveSession) :
    (fun k => ((s.sessions.insert key live).lookup k).map LiveSession.liveSid) =
      Function.update s.liveSid key (some live.liveSid) := by
  have hlookup := congrArg (Option.map LiveSession.liveSid ∘ ·) (lookup_insert_eq s.sessions key live)
  exact hlookup.trans (Function.comp_update _ _ _ _)

private theorem liveSid_erase (s : CoreState) (key : String) :
    (fun k => ((s.sessions.erase key).lookup k).map LiveSession.liveSid) = Function.update s.liveSid key none := by
  have hlookup := congrArg (Option.map LiveSession.liveSid ∘ ·) (lookup_erase_eq s.sessions key)
  exact hlookup.trans (Function.comp_update _ _ _ _)

private theorem liveSid_eq {s : CoreState} {key : String} {live : LiveSession} (h : s.sessions.lookup key = some live) :
    s.liveSid key = some live.liveSid := by
  unfold liveSid
  rw [h]
  rfl

private theorem liveSid_eq_none {s : CoreState} {key : String} (h : s.sessions.lookup key = none) :
    s.liveSid key = none := by
  unfold liveSid
  rw [h]
  rfl

private theorem indexed_closeSession {s : CoreState} (h : s.Indexed) (key : String) : (s.closeSession key).Indexed := by
  have hsids := liveSid_erase s key
  cases hl : s.sessions.lookup key with
  | none =>
    have hsame : Function.update s.liveSid key none = s.liveSid := by
      rw [Function.update_eq_self_iff, liveSid_eq_none hl]
    have hindex : (s.closeSession key).sidIndex = s.sidIndex := by simp only [closeSession, hl]
    change Inverse (fun k => ((s.sessions.erase key).lookup k).map LiveSession.liveSid)
      (fun sid => (s.closeSession key).sidIndex.lookup sid)
    rw [hindex, hsids, hsame]
    exact h
  -- the entry of the live sid is the one of this key, as the index is right
  | some live =>
    have hindex : (s.closeSession key).sidIndex = s.sidIndex.erase live.liveSid := by simp only [closeSession, hl]
    change Inverse (fun k => ((s.sessions.erase key).lookup k).map LiveSession.liveSid)
      (fun sid => (s.closeSession key).sidIndex.lookup sid)
    rw [hindex, hsids, lookup_erase_eq]
    exact Inverse.remove h (liveSid_eq hl)

private theorem indexed_repointLiveSid_iff {s : CoreState} (h : s.Indexed) (key newLiveSid : String) :
    (s.repointLiveSid key newLiveSid).Indexed ↔ s.KeepsIndex (.repointLiveSid key newLiveSid) := by
  unfold KeepsIndex repointLiveSid
  cases hl : s.sessions.lookup key with
  | none =>
    refine iff_of_true h ?_
    intro hopen
    rw [liveSid_eq_none hl] at hopen
    cases hopen
  | some live =>
    have hname := liveSid_eq hl
    dsimp only
    rw [hname]
    split
    · -- the reply names the live sid the session has
      rename_i hsame
      subst hsame
      refine iff_of_true h ?_
      intro _ key' hne hname'
      exact hne (Inverse.injective h hname' hname)
    · have hsids := liveSid_insert s key { live with liveSid := newLiveSid }
      have hindex := lookup_insert_eq (s.sidIndex.erase live.liveSid) newLiveSid key
      rw [lookup_erase_eq] at hindex
      unfold Indexed
      change Inverse (fun k => ((s.sessions.insert key _).lookup k).map LiveSession.liveSid)
        (fun sid => ((s.sidIndex.erase live.liveSid).insert newLiveSid key).lookup sid) ↔ _
      rw [hsids, hindex]
      exact (Inverse.move_iff h hname newLiveSid).trans (by simp)

section

variable [Serializer]

/-- An action that does not write the routing index leaves the live sids. -/
theorem act_liveSid (s : CoreState) {a : Action} (h : a.reindexes = false) : (s.act a).1.liveSid = s.liveSid := by
  funext key
  change ((s.act a).1.tab key).live.map _ = (s.tab key).live.map _
  rw [tab_act]
  cases hon : s.onTab key a with
  | none => rfl
  | some b =>
    have hkeeps : b.keeps = true ∧ ∀ old, b.liveSid old = old := by
      cases a <;> simp only [onTab, Option.ite_none_right_eq_some, Option.some.injEq] at hon
      case openSession => cases h
      case closeSession => cases h
      case clearSessions => cases h
      case forgetGateway => cases h
      case repointLiveSid => cases h
      all_goals
        obtain ⟨-, rfl⟩ := hon
        exact ⟨rfl, fun _ => rfl⟩
    change ((s.tab key).act key b).1.live.map _ = _
    cases hl : (s.tab key).live with
    | none => rw [(Tab.act_none hl key hkeeps.1).1]
    | some live =>
      rw [Tab.live_act hl key hkeeps.1]
      exact congrArg some (hkeeps.2 live.liveSid)

private theorem indexed_openSession_iff {s : CoreState} (h : s.Indexed) (reply : OpenReply)
    (profile : Option String) (cols : Int) :
    (s.act (.openSession reply profile cols)).1.Indexed ↔ s.KeepsIndex (.openSession reply profile cols) := by
  have hsids : (s.act (.openSession reply profile cols)).1.liveSid =
      Function.update s.liveSid reply.key (some reply.liveSid) :=
    liveSid_insert s reply.key ⟨reply.liveSid, (openReducer reply).1, 0, s.historyEpoch + 1⟩
  have hindex : (fun sid => (s.act (.openSession reply profile cols)).1.sidIndex.lookup sid) =
      Function.update (fun sid => s.sidIndex.lookup sid) reply.liveSid (some reply.key) :=
    lookup_insert_eq s.sidIndex reply.liveSid reply.key
  unfold Indexed
  rw [hsids, hindex]
  exact Inverse.insert_iff h reply.key reply.liveSid

/-- The index survives a step exactly when the step keeps the live sids apart and the live sid of an open session. -/
theorem indexed_act_iff {s : CoreState} (h : s.Indexed) (a : Action) : (s.act a).1.Indexed ↔ s.KeepsIndex a := by
  cases a with
  | openSession reply profile cols => exact indexed_openSession_iff h reply profile cols
  | closeSession key => exact iff_of_true (indexed_closeSession h key) trivial
  | clearSessions => exact iff_of_true inverse_empty trivial
  | forgetGateway => exact iff_of_true inverse_empty trivial
  | repointLiveSid key newLiveSid => exact indexed_repointLiveSid_iff h key newLiveSid
  | _ =>
    refine iff_of_true ?_ trivial
    unfold Indexed
    rw [act_liveSid s rfl, act_sidIndex s rfl]
    exact h

/-- In every run from a start of the core, the routing index is right in every state exactly when every step keeps it
so: no open or re-point brings in a live sid that another session holds, and no open changes the live sid of a session
that is open. -/
theorem indexed_iff (registry : SessionRegistry) (actions : List Action) :
    let start := new registry
    (∀ before after, actions = before ++ after → (start.run before).Indexed) ↔
      ∀ before a after, actions = before ++ a :: after → (start.run before).KeepsIndex a := by
  intro start
  constructor
  · intro h before a after heq
    have hbefore := h before (a :: after) heq
    have hafter := h (before ++ [a]) after (by rw [heq, List.append_assoc]; rfl)
    rw [run_append] at hafter
    exact (indexed_act_iff hbefore a).1 hafter
  · intro h before
    induction before using List.reverseRecOn with
    | nil => exact fun _ _ => indexed_new registry
    | append_singleton before a ih =>
      intro after heq
      rw [List.append_assoc] at heq
      rw [run_append]
      exact (indexed_act_iff (ih (a :: after) heq) a).2 (h before a after heq)

end

end CoreState

/-! ### Live sids that move -/

section

attribute [local instance] Serializer.compact

private def resumedAs (key liveSid : String) : Action := .openSession (.resumed key ⟨liveSid, [], ""⟩) none 80

/-- Opening "chat" again under another live sid leaves the entry of the old one, and when a reconnect exchanges the
live sids of two sessions, the second re-point removes the entry of the first. -/
theorem index_left_behind :
    let reopened := (CoreState.new {}).run [resumedAs "chat" "live1", resumedAs "chat" "live2"]
    let exchanged := (CoreState.new {}).run [resumedAs "a" "live1", resumedAs "b" "live2", .repointLiveSid "a" "live2",
      .repointLiveSid "b" "live1"]
    (reopened.sidIndex.lookup "live1" = some "chat" ∧ reopened.liveSid "chat" = some "live2" ∧ ¬ reopened.Indexed) ∧
      exchanged.sidIndex.lookup "live2" = none ∧ exchanged.liveSid "a" = some "live2" ∧
        exchanged.liveSid "b" = some "live1" ∧ ¬ exchanged.Indexed := by
  intro reopened exchanged
  have hold : reopened.sidIndex.lookup "live1" = some "chat" := by decide
  have hnew : reopened.liveSid "chat" = some "live2" := by decide
  have hlost : exchanged.sidIndex.lookup "live2" = none := by decide
  have hname : exchanged.liveSid "a" = some "live2" := by decide
  refine ⟨⟨hold, hnew, ?_⟩, hlost, hname, by decide, ?_⟩
  · intro h
    have hsid := (h "live1" "chat").1 hold
    rw [hnew] at hsid
    exact absurd hsid (by decide)
  · intro h
    have hkey := hlost.symm.trans ((h "live2" "a").2 hname)
    cases hkey

end

end Hermo
