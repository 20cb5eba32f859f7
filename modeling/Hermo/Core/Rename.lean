import Hermo.Core.Operations
import Hermo.Core.Titles

/-!
# Renaming a chat

`set_session_title` captures a session id, awaits `session.title` and delivers the new title as an event of that id.
`Renamed` is what the user expects of it: the title is in the record and in the header of the reducer.  `rename_iff`
says when it holds at the return: the captured id still leads to the key, the chat is open, and it is not opened
again, rebuilt or closed before the call returns.
-/

namespace Hermo

section

variable [Serializer]

/-- The title in the header of a live session. -/
def Tab.headerTitle (t : Tab) : Option String := t.live.map fun live => live.reducer.state.header.title

private theorem Reducer.handle_header {r : Reducer} (hr : r.WellFormed) {k : EventKind} (hinfo : k ≠ .sessionInfo)
    (htitle : k ≠ .sessionTitle) (payload : Value) : (r.handle k payload).1.state.header = r.state.header := by
  refine (handle_effect hr k payload).header_eq ?_
  intro hmem
  have hquiet := handle_quietHeader r hinfo htitle payload
  rw [List.any_eq_false] at hquiet
  exact hquiet _ hmem rfl

/-- Without a title to carry, an operation on the rows leaves the title of the header alone. -/
theorem Reducer.perform_title {r : Reducer} (hr : r.WellFormed) {o : Op} (ho : o.replaces = false)
    (hev : ∀ ev, o = .apply ev → ev.header.title = "") :
    (r.perform o).1.state.header.title = r.state.header.title := by
  have happly : ∀ ev : EventParams, ev.header.title = "" →
      (r.apply ev).1.state.header.title = r.state.header.title := by
    intro ev htitle
    unfold apply
    split
    · rfl
    · unfold EventParams.header at htitle
      dsimp only
      generalize hk : EventKind.parse ev.eventType = k at htitle
      cases k with
      | sessionInfo =>
        refine (mergeHeader_title r (infoHeader ev.payload)).2.trans ?_
        rw [if_pos htitle]
      | sessionTitle =>
        refine (mergeHeader_title r (titleHeader ev.payload)).2.trans ?_
        rw [if_pos htitle]
      | _ => exact congrArg SessionHeader.title (handle_header hr (by simp) (by simp) ev.payload)
  cases o with
  | apply ev => exact happly ev (hev ev rfl)
  | resolveApproval key requestId => exact congrArg SessionHeader.title (r.resolveCard_header _ _ key)
  | resolveClarify key requestId => exact congrArg SessionHeader.title (r.resolveCard_header _ _ key)
  | appendUserRow key text => rfl
  | applyApprovalCard key requestId card =>
    rw [perform_applyApprovalCard]
    split
    · rfl
    · exact happly _ rfl
  | ingestResumeMessages => cases ho
  | resetFromResume => cases ho

/-- An action on the tab that keeps the transcript and carries no title. -/
theorem Tab.headerTitle_act {t : Tab} (ht : t.WellFormed) (key : String) {a : TabAction} (ha : a.keeps = true)
    (hr : ∀ messages replayEpoch historyEpoch, a ≠ .rebuildSession messages replayEpoch historyEpoch)
    (hev : ∀ ev, a = .deliver ev → t.live.isSome → ev.header.title = "") :
    (t.act key a).1.headerTitle = t.headerTitle := by
  unfold headerTitle
  cases hl : t.live with
  | none => rw [(act_none hl key ha).1]
  | some live =>
    rw [live_act hl key ha]
    refine congrArg some ?_
    dsimp only
    cases hop : t.op live key a with
    | none => rfl
    | some o =>
      refine Reducer.perform_title (ht live hl) (op_replaces hr hop) ?_
      rintro ev rfl
      refine hev ev ?_ (by rw [hl]; rfl)
      cases a <;> simp only [op, Option.some.injEq, reduceCtorEq, Option.ite_none_left_eq_some,
        Option.ite_none_right_eq_some, and_false, Op.apply.injEq] at hop
      rw [hop]

/-- There is no title in the header of the open session, or nothing at all. -/
def Tab.Untitled (t : Tab) : Prop := t.headerTitle = some "" ∨ (t.live = none ∧ t.record = none)

omit [Serializer] in
private theorem ingestResumeMessages_header (r : Reducer) (key : String) (messages : List Value) :
    (r.ingestResumeMessages key messages).1.state.header = {} := by
  have hfold : ∀ acc : Reducer × List TranscriptChange, acc.1.state.header = {} →
      (messages.foldl Reducer.ingestMessage acc).1.state.header = {} := by
    induction messages with
    | nil => exact fun acc h => h
    | cons msg messages ih =>
      intro acc h
      refine ih _ ?_
      unfold Reducer.ingestMessage
      dsimp only
      split
      · exact h
      · exact h
  exact hfold ({}, [.reset]) rfl

/-- What opens, rebuilds or closes a session leaves no title in the header. -/
theorem Tab.untitled_replaced {t : Tab} (key : String) {a : TabAction}
    (ha : a.keeps = false ∨
      t.live.isSome ∧ ∃ messages replayEpoch historyEpoch, a = .rebuildSession messages replayEpoch historyEpoch) :
    (t.act key a).1.Untitled := by
  rcases ha with hkeeps | ⟨hlive, messages, replayEpoch, historyEpoch, rfl⟩
  · cases a with
    | openSession reply profile cols historyEpoch =>
      refine .inl (congrArg some ?_)
      change (openReducer reply).1.state.header.title = ""
      rw [openReducer_eq, ingestResumeMessages_header]
    | close => exact .inr ⟨rfl, rfl⟩
    | _ => cases hkeeps
  · obtain ⟨live, hl⟩ := Option.isSome_iff_exists.1 hlive
    left
    unfold headerTitle
    rw [live_act hl key rfl]
    refine congrArg some ?_
    change (live.reducer.ingestResumeMessages key messages).1.state.header.title = ""
    rw [ingestResumeMessages_header]

/-- With neither a session nor a record nothing comes up but by opening. -/
private theorem Tab.act_absent {t : Tab} (hl : t.live = none) (hr : t.record = none) (key : String) {a : TabAction}
    (ha : a.keeps = true) : (t.act key a).1.record = none := by
  cases a with
  | openSession => cases ha
  | close => cases ha
  | deliver ev => simp [act, hl, hr]
  | rebuildSession => simp [act, hl, hr]
  | repointLiveSid => simp [act, hr]
  | touch => simp [act, hr]
  | reemitCard card => exact (reemitCard_record t key card).trans hr
  | appendUserRow => simp [act, hl, hr]
  | respondApproval => exact (editReducer_record t key _).trans hr
  | respondClarify => exact (editReducer_record t key _).trans hr

/-- Without a title to carry, no action brings one back. -/
theorem Tab.Untitled.act {t : Tab} (h : t.Untitled) (ht : t.WellFormed) (key : String) {a : TabAction}
    (hev : ∀ ev, a = .deliver ev → t.live.isSome → ev.header.title = "") : (t.act key a).1.Untitled := by
  by_cases hkeeps : a.keeps = true
  · by_cases hr : ∃ messages replayEpoch historyEpoch, a = .rebuildSession messages replayEpoch historyEpoch
    · cases hl : t.live with
      | some live => exact untitled_replaced key (.inr ⟨by rw [hl]; rfl, hr⟩)
      | none =>
        rcases h with hheader | ⟨-, hrecord⟩
        · unfold headerTitle at hheader
          rw [hl] at hheader
          cases hheader
        · exact .inr ⟨(act_none hl key hkeeps).1, act_absent hl hrecord key hkeeps⟩
    · push Not at hr
      rcases h with hheader | ⟨hl, hrecord⟩
      · exact .inl ((headerTitle_act ht key hkeeps hr hev).trans hheader)
      · exact .inr ⟨(act_none hl key hkeeps).1, act_absent hl hrecord key hkeeps⟩
  · exact untitled_replaced key (.inl (by simpa using hkeeps))

/-- A live session has a record. -/
def Tab.Recorded (t : Tab) : Prop := t.live.isSome → t.record.isSome

theorem Tab.Recorded.act {t : Tab} (h : t.Recorded) (key : String) (a : TabAction) : (t.act key a).1.Recorded := by
  by_cases hkeeps : a.keeps = true
  · cases hl : t.live with
    | none =>
      intro hlive
      rw [(act_none hl key hkeeps).1] at hlive
      cases hlive
    | some live =>
      intro _
      obtain ⟨f, hf, -⟩ := record_act hl key hkeeps
      rw [hf, Option.isSome_map]
      exact h (by rw [hl]; rfl)
  · cases a with
    | openSession reply profile cols historyEpoch => exact fun _ => rfl
    | close => exact fun hlive => by cases hlive
    | _ => exact absurd rfl hkeeps

namespace CoreState

/-- The title is in the record and in the header of the open session. -/
structure Titles (s : CoreState) (key title : String) : Prop where
  header : (s.tab key).headerTitle = some title
  record : (s.tab key).record.map SessionRecord.title = some title

/-- The expected result of a rename. -/
def Renamed (s : CoreState) (key title : String) : Prop :=
  s.Titled key title ∧ ∀ live, s.sessions.lookup key = some live → live.reducer.state.header.title = title

/-- The session id `set_session_title` sends and names in its event. -/
def renameSid (s : CoreState) (key : String) : String := ((s.sessions.lookup key).map LiveSession.liveSid).getD key

/-- The synthetic event behind a successful `session.title`. -/
def renameEvent (sessionId title : String) : EventParams :=
  ⟨"session.title", sessionId, none, .object [("title", .string title)]⟩

theorem recorded_run (registry : SessionRegistry) (actions : List Action) (key : String) :
    (((new registry).run actions).tab key).Recorded := by
  induction actions using List.reverseRecOn with
  | nil => exact fun hlive => by cases hlive
  | append_singleton actions a ih =>
    rw [run_append]
    change (((((new registry).run actions).act a).1).tab key).Recorded
    rw [tab_act]
    cases ((new registry).run actions).onTab key a with
    | none => exact ih
    | some b => exact ih.act key b

/-- An event that carries no title to the open session of the key. -/
private theorem title_of_carried {s : CoreState} {key : String} {a : Action} (hc : s.carriedTitle key a = none)
    {b : TabAction} (hon : s.onTab key a = some b) :
    ∀ ev, b = .deliver ev → (s.tab key).live.isSome → ev.header.title = "" := by
  rintro ev rfl hlive
  obtain ⟨rfl, hres⟩ := onTab_deliver hon
  have hopen : key ∈ s.sessions := AList.lookup_isSome.1 hlive
  by_contra hne
  rw [carriedTitle, if_pos ⟨hres, hopen, hne⟩] at hc
  cases hc

/-- The title stays as long as the transcript does. -/
theorem Titles.act {s : CoreState} {key title : String} (h : s.Titles key title) (hwf : s.WellFormed) {a : Action}
    (hr : a.replaces key = false) (hc : s.carriedTitle key a = none) : (s.act a).1.Titles key title := by
  have htab := tab_act s key a
  cases hon : s.onTab key a with
  | none =>
    rw [hon] at htab
    exact ⟨htab ▸ h.header, htab ▸ h.record⟩
  | some b =>
    obtain ⟨hkeeps, hrebuild⟩ := onTab_kept hr hon
    have hev := title_of_carried hc hon
    rw [hon] at htab
    refine ⟨?_, ?_⟩
    · rw [htab]
      exact (Tab.headerTitle_act (hwf key) key hkeeps hrebuild hev).trans h.header
    · by_cases hdeliver : ∃ ev, b = .deliver ev
      · obtain ⟨ev, rfl⟩ := hdeliver
        obtain ⟨rfl, hres⟩ := onTab_deliver hon
        obtain ⟨live, hl, hheader⟩ := Option.map_eq_some_iff.1 h.header
        have hafter := title_deliver hres hl ((titled_iff s key title).2 h.record)
        rw [hev ev rfl (by rw [hl]; rfl), if_pos rfl, hheader, ite_self] at hafter
        exact (titled_iff _ key title).1 hafter
      · push Not at hdeliver
        rw [htab]
        refine Tab.title_act h.record hdeliver ?_
        rintro rfl
        cases hkeeps

omit [Serializer] in
private theorem onTab_replaces {s : CoreState} {key : String} {a : Action} (h : a.replaces key = true) :
    ∃ b, s.onTab key a = some b ∧ (b.keeps = false ∨
      ∃ messages replayEpoch historyEpoch, b = .rebuildSession messages replayEpoch historyEpoch) := by
  cases a with
  | openSession reply profile cols => exact ⟨_, if_pos (by simpa [Action.replaces] using h), .inl rfl⟩
  | closeSession key' => exact ⟨_, if_pos (by simpa [Action.replaces] using h), .inl rfl⟩
  | rebuildSession key' messages replayEpoch =>
    exact ⟨_, if_pos (by simpa [Action.replaces] using h), .inr ⟨_, _, _, rfl⟩⟩
  | clearSessions => exact ⟨_, rfl, .inl rfl⟩
  | forgetGateway => exact ⟨_, rfl, .inl rfl⟩
  | _ => cases h

private theorem carried_cons {s : CoreState} {key : String} {a : Action} {late : List Action}
    (h : s.carriedTitles key (a :: late) = []) :
    s.carriedTitle key a = none ∧ (s.act a).1.carriedTitles key late = [] := by
  unfold carriedTitles at h
  obtain ⟨ha, hlate⟩ := List.append_eq_nil_iff.1 h
  exact ⟨Option.toList_eq_nil_iff.1 ha, hlate⟩

private theorem untitled_run {s : CoreState} {key : String} (h : (s.tab key).Untitled) (hwf : s.WellFormed)
    {late : List Action} (hc : s.carriedTitles key late = []) : ((s.run late).tab key).Untitled := by
  induction late generalizing s with
  | nil => exact h
  | cons a late ih =>
    obtain ⟨ha, hlate⟩ := carried_cons hc
    refine ih ?_ (hwf.act a) hlate
    rw [tab_act]
    cases hon : s.onTab key a with
    | none => exact h
    | some b => exact h.act (hwf key) key (title_of_carried ha hon)

/-- As long as no title is carried, what replaces the transcript decides whether the title stays. -/
private theorem titles_run {s : CoreState} {key title : String} (h : s.Titles key title) (hwf : s.WellFormed)
    {late : List Action} (hc : s.carriedTitles key late = []) :
    ((∀ a ∈ late, a.replaces key = false) ∧ (s.run late).Titles key title) ∨
      ((∃ a ∈ late, a.replaces key = true) ∧ ((s.run late).tab key).Untitled) := by
  induction late generalizing s with
  | nil => exact .inl ⟨nofun, h⟩
  | cons a late ih =>
    obtain ⟨ha, hlate⟩ := carried_cons hc
    cases hr : a.replaces key with
    | false =>
      rcases ih (h.act hwf hr ha) (hwf.act a) hlate with ⟨hkeep, htitles⟩ | ⟨⟨b, hb, hreplace⟩, huntitled⟩
      · exact .inl ⟨List.forall_mem_cons.2 ⟨hr, hkeep⟩, htitles⟩
      · exact .inr ⟨⟨b, List.mem_cons_of_mem a hb, hreplace⟩, huntitled⟩
    | true =>
      refine .inr ⟨⟨a, List.mem_cons_self, hr⟩, untitled_run ?_ (hwf.act a) hlate⟩
      obtain ⟨b, hon, hb⟩ := onTab_replaces (s := s) hr
      obtain ⟨live, hl, -⟩ := Option.map_eq_some_iff.1 h.header
      rw [tab_act, hon]
      exact Tab.untitled_replaced key (hb.imp_right fun hrebuild => ⟨by rw [hl]; rfl, hrebuild⟩)

omit [Serializer] in
private theorem Titles.renamed {s : CoreState} {key title : String} (h : s.Titles key title) : s.Renamed key title := by
  refine ⟨(titled_iff s key title).2 h.record, ?_⟩
  intro live hl
  have hheader := h.header
  unfold Tab.headerTitle at hheader
  rw [show (s.tab key).live = some live from hl] at hheader
  exact Option.some.inj hheader

omit [Serializer] in
private theorem not_renamed {s : CoreState} {key title : String} (h : (s.tab key).Untitled) (htitle : title ≠ "") :
    ¬ s.Renamed key title := by
  rintro ⟨⟨record, hrecord, -⟩, hheader⟩
  rcases h with hempty | ⟨-, hnone⟩
  · obtain ⟨live, hl, hlive⟩ := Option.map_eq_some_iff.1 hempty
    exact htitle ((hheader live hl).symm.trans hlive)
  · exact absurd (hnone.symm.trans hrecord) nofun

/-- The change the app expects of a rename. -/
def titleUpdate (key title : String) : TranscriptChangeDto := ⟨key, .headerUpdated, u32Max, "", title⟩

private theorem renameEvent_header (sid title : String) : (renameEvent sid title).header = { title := title } := rfl

/-- The event of a rename that reaches the open session of the key. -/
private theorem rename_delivered {s : CoreState} {key sid title : String} (hrec : (s.tab key).Recorded)
    (htitle : title ≠ "") (hres : s.resolve sid = some key) (hopen : key ∈ s.sessions) :
    (s.act (.deliver (renameEvent sid title))).1.Titles key title ∧
      titleUpdate key title ∈ (s.act (.deliver (renameEvent sid title))).2 := by
  obtain ⟨live, hl⟩ : ∃ live, s.sessions.lookup key = some live :=
    Option.isSome_iff_exists.1 (AList.lookup_isSome.2 hopen)
  have hid : (renameEvent sid title).sessionId ≠ "" := by
    rintro (rfl : sid = "")
    cases hres
  have hne : (renameEvent sid title).header ≠ {} := fun h => htitle (congrArg SessionHeader.title h)
  obtain ⟨hany, hheader⟩ := live.applyEvent_title hid
  have hafter : (live.applyEvent (renameEvent sid title)).1.reducer.state.header.title = title := by
    rw [hheader hne]
    exact if_neg htitle
  have hon : s.onTab key (.deliver (renameEvent sid title)) = some (.deliver (renameEvent sid title)) := if_pos hres
  have hact : (s.tab key).act key (.deliver (renameEvent sid title)) =
      ({ s.tab key with
          live := some (live.applyEvent (renameEvent sid title)).1
          record := (s.tab key).record.map (deliverRecord (renameEvent sid title)
            (live.applyEvent (renameEvent sid title)).2 title) },
        changesToDtos key (live.applyEvent (renameEvent sid title)).2
          (live.applyEvent (renameEvent sid title)).1.reducer.state.rows title) := by
    unfold Tab.act
    rw [show (s.tab key).live = some live from hl]
    dsimp only
    rw [hafter]
  refine ⟨⟨?_, ?_⟩, ?_⟩
  · rw [tab_act, hon]
    change ((s.tab key).act key _).1.headerTitle = _
    rw [hact]
    exact congrArg some hafter
  · have hlive : (s.tab key).live = some live := hl
    obtain ⟨record, hrecord⟩ := Option.isSome_iff_exists.1 (hrec (by rw [hlive]; rfl))
    have hroute : s.resolve (renameEvent sid title).sessionId = some key := hres
    have htitled := title_deliver hroute hl (⟨record, hrecord, rfl⟩ : s.Titled key record.title)
    rw [if_neg hne, renameEvent_header, if_neg htitle] at htitled
    exact (titled_iff _ key title).1 htitled
  · have hsent : titleUpdate key title ∈ (s.act (.deliver (renameEvent sid title))).2.filter (·.key == key) := by
      rw [dtos_act, hon]
      change _ ∈ ((s.tab key).act key _).2
      rw [hact]
      rw [decide_eq_true hne, List.any_eq_true] at hany
      obtain ⟨c, hc, hchange⟩ := hany
      refine List.mem_map.2 ⟨c, hc, ?_⟩
      rw [beq_iff_eq.1 hchange]
      rfl
    exact (List.mem_filter.1 hsent).1

/-- The event of a rename is shown for the key only when it reaches its session. -/
private theorem rename_missed {s : CoreState} {key sid title : String}
    (h : titleUpdate key title ∈ (s.act (.deliver (renameEvent sid title))).2) :
    s.resolve sid = some key ∧ key ∈ s.sessions := by
  have hown : titleUpdate key title ∈ (s.act (.deliver (renameEvent sid title))).2.filter (·.key == key) :=
    List.mem_filter.2 ⟨h, beq_self_eq_true key⟩
  rw [dtos_act] at hown
  by_cases hres : s.resolve sid = some key
  · refine ⟨hres, ?_⟩
    by_contra hclosed
    have hnone : (s.tab key).live = none := AList.lookup_eq_none.2 hclosed
    rw [show s.onTab key (.deliver (renameEvent sid title)) = some (.deliver (renameEvent sid title)) from if_pos hres]
      at hown
    change _ ∈ ((s.tab key).act key _).2 at hown
    rw [(Tab.act_none hnone key rfl).2] at hown
    cases hown
  · rw [show s.onTab key (.deliver (renameEvent sid title)) = none from if_neg hres] at hown
    cases hown

/-- A rename that succeeded is in force at its return, unless another one came in between, if and only if the session
id it sent leads to the key when it is delivered, and the chat is open and stays as it is until the return. -/
theorem rename_iff (registry : SessionRegistry) (before inflight late : List Action) (key title : String)
    (htitle : title ≠ "")
    (hlate : (((((new registry).run before).run inflight).act
      (.deliver (renameEvent (((new registry).run before).renameSid key) title))).1).carriedTitles key late = []) :
    (((((((new registry).run before).run inflight).act
            (.deliver (renameEvent (((new registry).run before).renameSid key) title))).1).run late).Renamed key title ∧
        titleUpdate key title ∈ ((((new registry).run before).run inflight).act
          (.deliver (renameEvent (((new registry).run before).renameSid key) title))).2) ↔
      (((new registry).run before).run inflight).resolve (((new registry).run before).renameSid key) = some key ∧
        key ∈ (((new registry).run before).run inflight).sessions ∧ ∀ a ∈ late, a.replaces key = false := by
  generalize ((new registry).run before).renameSid key = sid at *
  rw [← run_append] at *
  have hwf : ((new registry).run (before ++ inflight)).WellFormed := (wellFormed_new registry).run _
  have hrec := recorded_run registry (before ++ inflight) key
  generalize (new registry).run (before ++ inflight) = s at *
  constructor
  · rintro ⟨hrenamed, hsent⟩
    obtain ⟨hres, hopen⟩ := rename_missed hsent
    refine ⟨hres, hopen, ?_⟩
    obtain ⟨htitles, -⟩ := rename_delivered hrec htitle hres hopen
    rcases titles_run htitles (hwf.act _) hlate with ⟨hkeep, -⟩ | ⟨-, huntitled⟩
    · exact hkeep
    · exact absurd hrenamed (not_renamed huntitled htitle)
  · rintro ⟨hres, hopen, hkeep⟩
    obtain ⟨htitles, hsent⟩ := rename_delivered hrec htitle hres hopen
    refine ⟨?_, hsent⟩
    rcases titles_run htitles (hwf.act _) hlate with ⟨-, hafter⟩ | ⟨⟨a, ha, hreplace⟩, -⟩
    · exact hafter.renamed
    · rw [hkeep a ha] at hreplace
      cases hreplace

end CoreState

namespace Operations

/-- `set_session_title` sends `renameSid`. -/
theorem begin_setSessionTitle (s : Shared) (written : Bool) (key title : String) (hclient : s.client = true) :
    begin s written (.setSessionTitle key title) = (s, .titling (s.store.core.renameSid key) title) := by
  unfold begin CoreState.renameSid
  dsimp only
  rw [if_neg (by simp [hclient])]

/-- Behind a successful `session.title` it delivers `renameEvent`. -/
theorem next_titling (s : Shared) (sid title : String) :
    ∃ s' p, Point.next s (.titling sid title) (.answered (.ok ())) = some (s', p) ∧
      s'.store.core = (s.store.core.act (.deliver (CoreState.renameEvent sid title))).1 := ⟨_, _, rfl, rfl⟩

end Operations

end

/-! ### A tab that is not open, and a session that got another id -/

section

attribute [local instance] Serializer.compact

private def renamedChat : Action := .openSession (.created ⟨"live", "chat", ""⟩) none 80

theorem rename_iff_open :
    ((((CoreState.new {}).run [renamedChat]).act (.deliver (CoreState.renameEvent "live" "Plans"))).1.run
      [.touch "chat" 7 "e1"]).Renamed "chat" "Plans" :=
  ((CoreState.rename_iff {} [renamedChat] [] [.touch "chat" 7 "e1"] "chat" "Plans" (by decide) rfl).2
    ⟨rfl, by decide, by simp [Action.replaces]⟩).1

private def knownChat : SessionRegistry := { sessions := [⟨"chat", 0, "", 80, "", ""⟩] }

/-- A chat that is known but not open keeps its old title, and so does an open one whose live sid changes during the
call. -/
theorem rename_lost :
    ¬ (((CoreState.new knownChat).act (.deliver (CoreState.renameEvent ((CoreState.new knownChat).renameSid "chat")
      "Plans"))).1).Renamed "chat" "Plans" ∧
    ¬ ((((CoreState.new {}).run [renamedChat, .repointLiveSid "chat" "live2"]).act (.deliver (CoreState.renameEvent
      (((CoreState.new {}).run [renamedChat]).renameSid "chat") "Plans"))).1).Renamed "chat" "Plans" := by
  constructor
  · rintro ⟨⟨record, hrecord, htitle⟩, -⟩
    cases hrecord
    exact absurd htitle (by decide)
  · rintro ⟨⟨record, hrecord, htitle⟩, -⟩
    cases hrecord
    exact absurd htitle (by decide)

end

end Hermo
