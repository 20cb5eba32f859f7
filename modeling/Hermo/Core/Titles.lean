import Hermo.Core.TabOps

/-!
# The title of a tab

A title lives in the registry record and in the header of the reducer, which every open and every rebuild starts
afresh.  `deliver_event` copies the title of the header into the record whenever the header changed, also when the
event carried a model, a directory, a branch or a usage and no title.  `title_run_iff` says when the record follows the
titles the events carry.
-/

namespace Hermo

section

variable [Serializer]

/-- The header an event carries; only `session.info` and `session.title` carry one. -/
def EventParams.header (ev : EventParams) : SessionHeader :=
  match EventKind.parse ev.eventType with
  | .sessionInfo => Reducer.infoHeader ev.payload
  | .sessionTitle => Reducer.titleHeader ev.payload
  | _ => {}

namespace Reducer

omit [Serializer] in
theorem mergeHeader_title (r : Reducer) (info : SessionHeader) :
    ((r.mergeHeader info).2.any (· == .headerUpdated)) = decide (info ≠ {}) ∧
      (r.mergeHeader info).1.state.header.title =
        if info.title = "" then r.state.header.title else info.title := by
  have hempty : (info.title = "" ∧ info.model = "" ∧ info.cwd = "" ∧ info.branch = "" ∧ info.usageJson = "") ↔
      info = {} := by
    obtain ⟨title, model, cwd, branch, usageJson⟩ := info
    simp
  unfold mergeHeader
  rw [if_congr hempty rfl rfl]
  by_cases h : info = {}
  · simp [h]
  · rw [if_neg h]
    simp [h]

/-- A handler of another event leaves the header alone. -/
theorem handle_quietHeader (r : Reducer) {k : EventKind} (hinfo : k ≠ .sessionInfo) (htitle : k ≠ .sessionTitle)
    (payload : Value) : (r.handle k payload).2.any (· == .headerUpdated) = false := by
  cases k with
  | sessionInfo => exact absurd rfl hinfo
  | sessionTitle => exact absurd rfl htitle
  | messageStart => rfl
  | messageDelta =>
    unfold handle onMessageDelta appendStreamingText
    dsimp only
    repeat' split
    all_goals rfl
  | messageInterim =>
    unfold handle onMessageInterim
    dsimp only
    repeat' split
    all_goals rfl
  | messageComplete =>
    unfold handle onMessageComplete
    dsimp only
    repeat' split
    all_goals rfl
  | thinkingDelta =>
    unfold handle onThinkingDelta
    dsimp only
    repeat' split
    all_goals rfl
  | toolGenerating => rfl
  | toolStart =>
    unfold handle onToolStart
    dsimp only
    repeat' split
    all_goals rfl
  | toolProgress =>
    unfold handle onToolProgress
    dsimp only
    repeat' split
    all_goals rfl
  | toolComplete =>
    unfold handle onToolComplete
    dsimp only
    repeat' split
    all_goals rfl
  | statusUpdate =>
    unfold handle onStatusUpdate
    dsimp only
    repeat' split
    all_goals rfl
  | approvalRequest =>
    simp only [handle, onApprovalRequest]
    split <;> rfl
  | clarifyRequest =>
    simp only [handle, onClarifyRequest]
    split <;> rfl
  | error => rfl
  | unknown => rfl

end Reducer

/-- The header changes with an event that carries one, and its title with one that carries a title. -/
theorem LiveSession.applyEvent_title (live : LiveSession) {ev : EventParams} (hid : ev.sessionId ≠ "") :
    ((live.applyEvent ev).2.any fun c => c.change == .headerUpdated) = decide (ev.header ≠ {}) ∧
      (ev.header ≠ {} → (live.applyEvent ev).1.reducer.state.header.title =
        if ev.header.title = "" then live.reducer.state.header.title else ev.header.title) := by
  have hchanges : ((live.applyEvent ev).2.any fun c => c.change == .headerUpdated) =
      (live.reducer.handle (.parse ev.eventType) ev.payload).2.any (· == .headerUpdated) := by
    unfold applyEvent Reducer.apply Reducer.wrap
    rw [if_neg hid, List.any_map]
    rfl
  have hstate : (live.applyEvent ev).1.reducer.state.header.title =
      (live.reducer.handle (.parse ev.eventType) ev.payload).1.state.header.title := by
    unfold applyEvent Reducer.apply
    rw [if_neg hid]
  rw [hchanges, hstate]
  unfold EventParams.header
  generalize hk : EventKind.parse ev.eventType = k
  cases k with
  | sessionInfo =>
    obtain ⟨hany, htitle⟩ := Reducer.mergeHeader_title live.reducer (Reducer.infoHeader ev.payload)
    exact ⟨hany, fun _ => htitle⟩
  | sessionTitle =>
    obtain ⟨hany, htitle⟩ := Reducer.mergeHeader_title live.reducer (Reducer.titleHeader ev.payload)
    exact ⟨hany, fun _ => htitle⟩
  | _ =>
    refine ⟨?_, fun h => absurd rfl h⟩
    rw [Reducer.handle_quietHeader]
    · simp
    · simp
    · simp

namespace CoreState

/-- The title an action brings to the open session of `key`: `session.title` and `session.info` events, and with them
a `set_session_title` that succeeded. -/
def carriedTitle (s : CoreState) (key : String) : Action → Option String
  | .deliver ev =>
    if s.resolve ev.sessionId = some key ∧ key ∈ s.sessions ∧ ev.header.title ≠ "" then some ev.header.title else none
  | _ => none

/-- The titles a run brings, in their order. -/
def carriedTitles (s : CoreState) (key : String) : List Action → List String
  | [] => []
  | a :: actions => (s.carriedTitle key a).toList ++ carriedTitles (s.act a).1 key actions

/-- The tab of `key` has the title `title`. -/
def Titled (s : CoreState) (key title : String) : Prop :=
  ∃ record, s.registry.get key = some record ∧ record.title = title

/-- The record follows the titles along every part of a run that does not close the tab. -/
def FollowsTitles (s : CoreState) (key : String) (actions : List Action) : Prop :=
  ∀ before between after, actions = before ++ between ++ after → (∀ a ∈ between, a.closes key = false) →
    ∀ title, title ≠ "" → (s.run before).Titled key title →
      (s.run (before ++ between)).Titled key
        (((s.run before).carriedTitles key between).getLast?.getD title)

/-- A header without a title finds the title of the record in the reducer. -/
def TitleAtHand (s : CoreState) (key : String) (ev : EventParams) : Prop :=
  s.resolve ev.sessionId = some key → ev.header ≠ {} → ev.header.title = "" →
    ∀ live title, s.sessions.lookup key = some live → title ≠ "" → s.Titled key title →
      live.reducer.state.header.title = title

omit [Serializer] in
theorem titled_iff (s : CoreState) (key title : String) :
    s.Titled key title ↔ (s.tab key).record.map SessionRecord.title = some title := by
  rw [Option.map_eq_some_iff]
  rfl

end CoreState

omit [Serializer] in
private theorem deliverRecord_title (ev : EventParams) (changes : List SessionChange) (title : String)
    (record : SessionRecord) :
    (deliverRecord ev changes title record).title =
      if (changes.any fun c => c.change == .headerUpdated) then title else record.title := by
  unfold deliverRecord
  dsimp only
  split
  · rfl
  · split <;> rfl

/-- The title of a record after every action but an event and a close. -/
theorem Tab.title_act {t : Tab} {key title : String} (h : t.record.map SessionRecord.title = some title)
    {a : TabAction} (hevent : ∀ ev, a ≠ .deliver ev) (hclose : a ≠ .close) :
    (t.act key a).1.record.map SessionRecord.title = some title := by
  have hmap : ∀ f : SessionRecord → SessionRecord, (∀ r, (f r).title = r.title) →
      (t.record.map f).map SessionRecord.title = some title := by
    intro f hf
    rw [Option.map_map, ← h]
    exact congrArg (t.record.map ·) (funext hf)
  cases a with
  | deliver ev => exact absurd rfl (hevent ev)
  | close => exact absurd rfl hclose
  | openSession reply profile cols historyEpoch =>
    change some (openRecord reply profile cols t.record).title = some title
    unfold openRecord
    rw [h]
    rfl
  | rebuildSession messages replayEpoch historyEpoch =>
    unfold act
    cases t.live with
    | none => exact h
    | some live => exact hmap _ fun _ => rfl
  | repointLiveSid newLiveSid => exact h
  | touch seq epoch => exact hmap _ fun _ => rfl
  | reemitCard card => exact (congrArg _ (reemitCard_record t key card)).trans h
  | appendUserRow text historyEpoch =>
    unfold act
    cases t.live with
    | none => exact h
    | some live =>
      dsimp only
      split
      · exact (congrArg _ (editReducer_record t key _)).trans h
      · exact h
  | respondApproval requestId => exact (congrArg _ (editReducer_record t key _)).trans h
  | respondClarify requestId => exact (congrArg _ (editReducer_record t key _)).trans h

namespace CoreState

/-- The title of a record after an event that reaches its session. -/
theorem title_deliver {s : CoreState} {key title : String} {ev : EventParams} {live : LiveSession}
    (hroute : s.resolve ev.sessionId = some key) (hlive : s.sessions.lookup key = some live)
    (htitle : s.Titled key title) :
    (s.act (.deliver ev)).1.Titled key
      (if ev.header = {} then title
        else if ev.header.title = "" then live.reducer.state.header.title else ev.header.title) := by
  have hid : ev.sessionId ≠ "" := by
    intro hempty
    rw [resolve, if_pos hempty] at hroute
    cases hroute
  obtain ⟨hany, hheader⟩ := live.applyEvent_title hid
  obtain ⟨record, hrecord, rfl⟩ := htitle
  have htab : ((s.act (.deliver ev)).1.tab key).record =
      (s.registry.get key).map (deliverRecord ev (live.applyEvent ev).2
        (live.applyEvent ev).1.reducer.state.header.title) := by
    rw [tab_act, onTab, if_pos hroute]
    change ((s.tab key).act key (.deliver ev)).1.record = _
    unfold Tab.act tab
    dsimp only
    rw [hlive]
  refine ⟨_, htab.trans (congrArg _ hrecord), ?_⟩
  rw [deliverRecord_title, hany]
  by_cases hempty : ev.header = {}
  · simp [hempty]
  · rw [if_neg hempty, ← hheader hempty]
    simp [hempty]

/-- One action: the record takes the title that is carried to it, exactly when a header without one finds its own. -/
private theorem title_step {s : CoreState} {key title : String} {a : Action} (ha : a.closes key = false)
    (hempty : title ≠ "") (htitle : s.Titled key title) (hhand : ∀ ev, a = .deliver ev → s.TitleAtHand key ev) :
    (s.act a).1.Titled key ((s.carriedTitle key a).getD title) := by
  have hother : s.carriedTitle key a = none → (∀ ev, s.onTab key a ≠ some (.deliver ev)) →
      (s.act a).1.Titled key ((s.carriedTitle key a).getD title) := by
    intro hnone hevent
    rw [hnone, Option.getD_none, titled_iff, tab_act]
    rw [titled_iff] at htitle
    cases hon : s.onTab key a with
    | none => exact htitle
    | some b =>
      refine Tab.title_act htitle (fun ev heq => hevent ev (heq ▸ hon)) ?_
      rintro rfl
      cases a
      all_goals simp [onTab, Action.closes] at hon ha
      exact ha hon
  cases a with
  | deliver ev =>
    by_cases hroute : s.resolve ev.sessionId = some key
    · cases hlive : s.sessions.lookup key with
      | none =>
        have hclosed : key ∉ s.sessions := AList.lookup_eq_none.1 hlive
        have hnone : s.carriedTitle key (.deliver ev) = none := by simp [carriedTitle, hclosed]
        rw [hnone, Option.getD_none, titled_iff, tab_act, onTab, if_pos hroute]
        rw [titled_iff] at htitle
        change ((s.tab key).act key (.deliver ev)).1.record.map _ = _
        unfold Tab.act
        rw [show (s.tab key).live = none from hlive]
        exact htitle
      | some live =>
        have hopen : key ∈ s.sessions := AList.lookup_isSome.1 (by rw [hlive]; rfl)
        have hafter := title_deliver hroute hlive htitle
        have hcarried : (s.carriedTitle key (.deliver ev)).getD title =
            if ev.header = {} then title
              else if ev.header.title = "" then live.reducer.state.header.title else ev.header.title := by
          by_cases hheader : ev.header = {}
          · simp [carriedTitle, hheader]
          · by_cases hcarries : ev.header.title = ""
            · rw [if_neg hheader, if_pos hcarries, hhand ev rfl hroute hheader hcarries live title hlive hempty htitle]
              simp [carriedTitle, hcarries]
            · simp [carriedTitle, hroute, hopen, hheader, hcarries]
        exact hcarried ▸ hafter
    · refine hother (by simp [carriedTitle, hroute]) fun ev' => ?_
      rw [onTab, if_neg hroute]
      simp
  | _ =>
    refine hother rfl fun ev hon => ?_
    cases (onTab_deliver hon).1

private theorem carriedTitle_ne {s : CoreState} {key title : String} {a : Action}
    (h : s.carriedTitle key a = some title) : title ≠ "" := by
  unfold carriedTitle at h
  split at h
  · obtain ⟨⟨-, -, hne⟩, heq⟩ := Option.ite_none_right_eq_some.1 h
    rwa [Option.some_inj.1 heq] at hne
  · cases h

private theorem title_run {s : CoreState} {key title : String} {actions : List Action}
    (hkeeps : ∀ a ∈ actions, a.closes key = false) (hempty : title ≠ "") (htitle : s.Titled key title)
    (hhand : ∀ before ev after, actions = before ++ .deliver ev :: after → (s.run before).TitleAtHand key ev) :
    (s.run actions).Titled key ((s.carriedTitles key actions).getLast?.getD title) := by
  induction actions generalizing s title with
  | nil => exact htitle
  | cons a actions ih =>
    have hafter := title_step (hkeeps a List.mem_cons_self) hempty htitle
      fun ev heq => hhand [] ev actions (by rw [heq]; rfl)
    have hrest : ((s.act a).1.run actions).Titled key (((s.act a).1.carriedTitles key actions).getLast?.getD
        ((s.carriedTitle key a).getD title)) := by
      refine ih (fun b hb => hkeeps b (List.mem_cons_of_mem a hb)) ?_ hafter ?_
      · cases hcarried : s.carriedTitle key a with
        | none => exact hempty
        | some carried => exact carriedTitle_ne hcarried
      · intro before ev after heq
        exact hhand (a :: before) ev after (by rw [heq]; rfl)
    unfold carriedTitles
    rw [run_cons, List.getLast?_append]
    cases hlast : (carriedTitles (s.act a).1 key actions).getLast? with
    | some last => simpa [hlast] using hrest
    | none =>
      rw [hlast] at hrest
      cases hcarried : s.carriedTitle key a <;> simpa [hcarried] using hrest

/-- In every run from a start of the core, the record of a tab follows the titles its events carry exactly when every
header without a title finds the one of the record in the reducer. -/
theorem title_run_iff (registry : SessionRegistry) (key : String) (actions : List Action) :
    (new registry).FollowsTitles key actions ↔
      ∀ before ev after, actions = before ++ .deliver ev :: after → ((new registry).run before).TitleAtHand key ev := by
  constructor
  · intro h before ev after heq hroute hheader hcarries live title hlive hempty htitle
    have hafter := title_deliver hroute hlive htitle
    have hkept := h before [.deliver ev] after (by simpa using heq) (by simp [Action.closes]) title hempty htitle
    rw [run_append] at hkept
    have hcarried : ((new registry).run before).carriedTitles key [.deliver ev] = [] := by
      simp [carriedTitles, carriedTitle, hcarries]
    rw [hcarried] at hkept
    rw [if_neg hheader, if_pos hcarries] at hafter
    obtain ⟨record, hrecord, htitle⟩ := hafter
    obtain ⟨record', hrecord', htitle'⟩ := hkept
    have hsame : record = record' := Option.some.inj (hrecord.symm.trans hrecord')
    rw [← htitle, hsame, htitle']
    rfl
  · rintro h before between after rfl hkeeps title hempty htitle
    rw [run_append]
    refine title_run hkeeps hempty htitle ?_
    rintro before' ev after' rfl
    rw [← run_append]
    exact h (before ++ before') ev (after' ++ after) (by simp)

end CoreState

end

/-! ### A title that is lost -/

section

attribute [local instance] Serializer.compact

private def titledChat : List Action :=
  [.openSession (.created ⟨"live", "chat", ""⟩) none 80,
    .deliver ⟨"session.title", "live", none, .object [("title", .string "Plans")]⟩]

private def modelOnly : EventParams := ⟨"session.info", "live", some 1, .object [("model", .string "m1")]⟩

/-- A tab is opened again, and the first `session.info` brings a model: the title is gone. -/
theorem reopened_tab_untitled :
    let reopened : List Action := titledChat ++ [.openSession (.resumed "chat" ⟨"live", [], ""⟩) none 80]
    ((CoreState.new {}).run reopened).Titled "chat" "Plans" ∧
      ((CoreState.new {}).run (reopened ++ [.deliver modelOnly])).Titled "chat" "" ∧
        ¬ (CoreState.new {}).FollowsTitles "chat" (reopened ++ [.deliver modelOnly]) := by
  intro reopened
  have hbefore : ((CoreState.new {}).run reopened).Titled "chat" "Plans" := ⟨_, rfl, by decide⟩
  have hafter : ((CoreState.new {}).run (reopened ++ [.deliver modelOnly])).Titled "chat" "" := ⟨_, rfl, by decide⟩
  refine ⟨hbefore, hafter, ?_⟩
  intro h
  obtain ⟨record, hrecord, htitle⟩ := h reopened [.deliver modelOnly] [] (by simp) (by simp [Action.closes]) "Plans"
    (by decide) hbefore
  obtain ⟨record', hrecord', htitle'⟩ := hafter
  have hsame : record = record' := Option.some.inj (hrecord.symm.trans hrecord')
  have hcarried : ((CoreState.new {}).run reopened).carriedTitles "chat" [.deliver modelOnly] = [] := by decide
  rw [hcarried, hsame, htitle'] at htitle
  exact absurd htitle (by decide)

end

end Hermo
