import Hermo.Core.TabOps

/-!
# Routing by the ids of the gateway

Every id the gateway uses names one session; `owner` is this naming, and a stored id names its own session.  As long
as the core is only told ids of that kind (`Action.Named`), the routing index is right: `Routed.resolve` says that
an event reaches the session it belongs to or none, and `Routed.resolve_key` that the stored id of an open session
always reaches it.
-/

namespace Hermo

variable (owner : String → String)

/-- The ids an action brings in name the session it brings them in for. -/
def Action.Named : Action → Prop
  | .openSession reply _ _ => owner reply.key = reply.key ∧ reply.key ≠ "" ∧ owner reply.liveSid = reply.key
  | .repointLiveSid key newLiveSid => owner newLiveSid = key
  | _ => True

/-- The action writes the routing index. -/
def Action.reindexes : Action → Bool
  | .openSession _ _ _ | .closeSession _ | .clearSessions | .forgetGateway | .repointLiveSid _ _ => true
  | _ => false

namespace CoreState

/-- The routing index and the open keys agree with the naming. -/
structure Routed (s : CoreState) : Prop where
  index : ∀ sid key, s.sidIndex.lookup sid = some key → owner sid = key
  keys : ∀ key, key ∈ s.sessions → owner key = key ∧ key ≠ ""

theorem routed_new (registry : SessionRegistry) : (new registry).Routed owner := by
  constructor
  · intro sid key h
    cases h
  · intro key h
    cases h

variable {owner}

theorem Routed.resolve {s : CoreState} (h : s.Routed owner) {sid key : String} (hr : s.resolve sid = some key) :
    owner sid = key := by
  unfold CoreState.resolve at hr
  split at hr
  · cases hr
  · split at hr
    · rename_i hl
      rw [Option.some_inj] at hr
      exact hr ▸ h.index _ _ hl
    · split at hr
      · rename_i hmem
        rw [Option.some_inj] at hr
        exact hr ▸ (h.keys _ hmem).1
      · cases hr

theorem Routed.resolve_key {s : CoreState} (h : s.Routed owner) {key : String} (hk : key ∈ s.sessions) :
    s.resolve key = some key := by
  obtain ⟨hown, hne⟩ := h.keys key hk
  unfold CoreState.resolve
  rw [if_neg hne]
  split
  · rename_i key' hl
    rw [← h.index _ _ hl, hown]
  · rw [if_pos hk]

theorem mem_sessions_iff (s : CoreState) (key : String) : key ∈ s.sessions ↔ (s.tab key).live.isSome :=
  AList.lookup_isSome.symm

private theorem lookup_erase_some {m : AList fun _ : String => String} {sid sid' key : String}
    (h : (m.erase sid').lookup sid = some key) : m.lookup sid = some key := by
  by_cases hs : sid = sid'
  · rw [hs, AList.lookup_erase] at h
    cases h
  · rwa [AList.lookup_erase_ne hs] at h

private theorem lookup_insert_some {m : AList fun _ : String => String} {sid sid' key key' : String}
    (h : (m.insert sid' key').lookup sid = some key) : (sid = sid' ∧ key = key') ∨ m.lookup sid = some key := by
  by_cases hs : sid = sid'
  · rw [hs, AList.lookup_insert, Option.some_inj] at h
    exact .inl ⟨hs, h.symm⟩
  · rw [AList.lookup_insert_ne hs] at h
    exact .inr h

variable [Serializer]

private theorem editReducer_sidIndex (s : CoreState) (key : String)
    (edit : Reducer → Reducer × List SessionChange) : (s.editReducer key edit).1.sidIndex = s.sidIndex := by
  unfold editReducer
  split <;> rfl

private theorem deliverEvent_sidIndex (s : CoreState) (ev : EventParams) :
    (s.deliverEvent ev).1.sidIndex = s.sidIndex := by
  unfold deliverEvent routeEvent
  cases s.resolve ev.sessionId with
  | none => rfl
  | some key =>
    dsimp only
    cases hl : s.sessions.lookup key with
    | none => rfl
    | some live => rfl

private theorem reemitCard_sidIndex (s : CoreState) (key : String) (card : Value) :
    (s.reemitCard key card).1.sidIndex = s.sidIndex := by
  unfold reemitCard
  dsimp only
  split
  · rfl
  · split
    · rfl
    · split
      · rfl
      · split
        · rfl
        · split <;> rfl

/-- Only opens, closes and re-points write the routing index. -/
theorem act_sidIndex (s : CoreState) {a : Action} (h : a.reindexes = false) : (s.act a).1.sidIndex = s.sidIndex := by
  cases a with
  | deliver ev => exact deliverEvent_sidIndex s ev
  | rebuildSession key messages replayEpoch =>
    unfold act rebuildSession
    dsimp only
    split <;> rfl
  | touch key seq epoch => rfl
  | reemitCard key card => exact reemitCard_sidIndex s key card
  | appendUserRow key text historyEpoch =>
    unfold act appendUserRow
    dsimp only
    split
    · rfl
    · split
      · exact editReducer_sidIndex s key _
      · rfl
  | respondApproval key requestId => exact editReducer_sidIndex s key _
  | respondClarify key requestId => exact editReducer_sidIndex s key _
  | _ => cases h

/-- A key is open after an action when it was open before or the action opened it. -/
theorem open_of_act {s : CoreState} {a : Action} {key : String} (h : key ∈ (s.act a).1.sessions) :
    key ∈ s.sessions ∨ ∃ reply profile cols, a = .openSession reply profile cols ∧ reply.key = key := by
  rw [mem_sessions_iff] at h ⊢
  rw [tab_act] at h
  cases hon : s.onTab key a with
  | none =>
    rw [hon] at h
    exact .inl h
  | some b =>
    rw [hon] at h
    change ((s.tab key).act key b).1.live.isSome at h
    by_cases hb : b.keeps
    · cases hl : (s.tab key).live with
      | none =>
        rw [(Tab.act_none hl key hb).1] at h
        cases h
      | some live => exact .inl rfl
    · cases a <;> simp only [onTab, Option.ite_none_right_eq_some, Option.some.injEq] at hon
      case openSession reply profile cols => exact .inr ⟨reply, profile, cols, rfl, hon.1⟩
      case closeSession =>
        obtain ⟨-, rfl⟩ := hon
        cases h
      case clearSessions =>
        subst hon
        cases h
      case forgetGateway =>
        subst hon
        cases h
      all_goals
        obtain ⟨-, rfl⟩ := hon
        exact absurd rfl hb

theorem Routed.act {s : CoreState} (h : s.Routed owner) {a : Action} (ha : a.Named owner) :
    (s.act a).1.Routed owner := by
  constructor
  · intro sid key hl
    cases a with
    | openSession reply profile cols =>
      rcases lookup_insert_some hl with ⟨rfl, rfl⟩ | hl
      · exact ha.2.2
      · exact h.index sid key hl
    | closeSession key' =>
      unfold CoreState.act closeSession at hl
      dsimp only at hl
      split at hl
      · exact h.index sid key (lookup_erase_some hl)
      · exact h.index sid key hl
    | clearSessions => cases hl
    | forgetGateway => cases hl
    | repointLiveSid key' sid' =>
      unfold CoreState.act repointLiveSid at hl
      dsimp only at hl
      split at hl
      · exact h.index sid key hl
      · split at hl
        · exact h.index sid key hl
        · rcases lookup_insert_some hl with ⟨rfl, rfl⟩ | hl
          · exact ha
          · exact h.index sid key (lookup_erase_some hl)
    | _ =>
      rw [act_sidIndex s rfl] at hl
      exact h.index sid key hl
  · intro key hk
    rcases open_of_act hk with hk | ⟨reply, profile, cols, rfl, rfl⟩
    · exact h.keys key hk
    · exact ⟨ha.1, ha.2.1⟩

end CoreState

end Hermo
