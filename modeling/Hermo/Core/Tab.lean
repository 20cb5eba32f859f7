import Hermo.Core.Action

/-!
# The view of one chat

`Tab` is everything the core holds under one durable key, and `TabAction` what a lock section does to it.  Apart from
the routing index and the counter of history epochs, the sessions do not interfere: `tab_act` says that an action
changes the tab of a key by at most one `TabAction`, and `dtos_act` that the changes it sends for that key are those
of this `TabAction`.  Statements about one session are proved on its tab.
-/

namespace Hermo

/-- All state under one key. -/
structure Tab where
  live : Option LiveSession := none
  record : Option SessionRecord := none
  emitted : List String := []

/-- What an action does to one tab; rebuilds carry the new value of the history-epoch counter. -/
inductive TabAction where
  | deliver (ev : EventParams)
  | openSession (reply : OpenReply) (profile : Option String) (cols : Int) (historyEpoch : UInt64)
  | close
  | rebuildSession (messages : List Value) (replayEpoch : Option String) (historyEpoch : UInt64)
  | repointLiveSid (newLiveSid : String)
  | touch (seq : Int) (epoch : String)
  | reemitCard (card : Value)
  | appendUserRow (text : String) (historyEpoch : UInt64)
  | respondApproval (requestId : String)
  | respondClarify (requestId : String)

/-- The registry writes of `deliver_event` on the record of the session. -/
def deliverRecord (ev : EventParams) (changes : List SessionChange) (title : String) (record : SessionRecord) :
    SessionRecord :=
  let touched := match ev.seq with
    | some seq => SessionRegistry.touchRecord seq "" record
    | none => record
  if changes.any fun c => c.change == .headerUpdated then { touched with title := title } else touched

namespace Tab

variable [Serializer]

def editReducer (t : Tab) (key : String) (edit : Reducer → Reducer × List SessionChange) :
    Tab × List TranscriptChangeDto :=
  match t.live with
  | none => (t, [])
  | some live =>
    let (reducer, changes) := edit live.reducer
    ({ t with live := some { live with reducer := reducer } }, changesToDtos key changes reducer.state.rows "")

/-- `reemit_approvals` on one tab. -/
def reemitCard (t : Tab) (key : String) (card : Value) : Tab × List TranscriptChangeDto :=
  let requestId := card.strAt "request_id"
  if requestId = "" then (t, [])
  else if t.emitted.contains requestId then (t, [])
  else
    match t.live with
    | none => (t, [])
    | some live =>
      if live.reducer.hasUnresolvedApproval requestId then (t, [])
      else
        let (reducer, emitted) := live.reducer.applyApprovalCard key requestId card
        let t := { t with live := some { live with reducer := reducer } }
        match emitted with
        | none | some [] => (t, [])
        | some changes =>
          ({ t with emitted := t.emitted ++ [requestId] }, changesToDtos key changes reducer.state.rows "")

def act (t : Tab) (key : String) : TabAction → Tab × List TranscriptChangeDto
  | .deliver ev =>
    match t.live with
    | none => (t, [])
    | some live =>
      let (live, changes) := live.applyEvent ev
      let title := live.reducer.state.header.title
      ({ t with live := some live, record := t.record.map (deliverRecord ev changes title) },
        changesToDtos key changes live.reducer.state.rows title)
  | .openSession reply profile cols historyEpoch =>
    let (reducer, changes) := openReducer reply
    ({ t with
        live := some ⟨reply.liveSid, reducer, 0, historyEpoch⟩
        record := some (openRecord reply profile cols t.record) },
      changesToDtos key changes reducer.state.rows "")
  | .close => ({}, [])
  | .rebuildSession messages replayEpoch historyEpoch =>
    match t.live with
    | none => (t, [])
    | some live =>
      let (reducer, changes) := live.reducer.ingestResumeMessages key messages
      ({ t with
          live := some { live with historyEpoch := historyEpoch, reducer := reducer, lastSeenSeq := 0 }
          record := t.record.map fun rec =>
            { rec with lastSeenSeq := 0, replayEpoch := replayEpoch.getD rec.replayEpoch } },
        changesToDtos key changes reducer.state.rows "")
  | .repointLiveSid newLiveSid =>
    ({ t with live := t.live.map fun live => { live with liveSid := newLiveSid } }, [])
  | .touch seq epoch => ({ t with record := t.record.map (SessionRegistry.touchRecord seq epoch) }, [])
  | .reemitCard card => t.reemitCard key card
  | .appendUserRow text historyEpoch =>
    match t.live with
    | none => (t, [])
    | some live =>
      if live.historyEpoch = historyEpoch then t.editReducer key fun r => r.appendUserRow key text else (t, [])
  | .respondApproval requestId => t.editReducer key fun r => r.resolveApproval key requestId
  | .respondClarify requestId => t.editReducer key fun r => r.resolveClarify key requestId

end Tab

namespace CoreState

/-- The tab of a key. -/
def tab (s : CoreState) (key : String) : Tab :=
  ⟨s.sessions.lookup key, s.registry.get key, (s.emittedApprovals.lookup key).getD []⟩

/-- The transcript of an open session. -/
def transcriptOf (s : CoreState) (key : String) : Option Transcript :=
  (s.tab key).live.map fun live => live.reducer.state

/-- The transcript rows of a key, none when it is not open. -/
def rowsOf (s : CoreState) (key : String) : List Row := ((s.transcriptOf key).map Transcript.rows).getD []

/-- What an action does to the tab of `key`, `none` when it concerns other keys. -/
def onTab (s : CoreState) (key : String) : Action → Option TabAction
  | .deliver ev => if s.resolve ev.sessionId = some key then some (.deliver ev) else none
  | .openSession reply profile cols =>
    if reply.key = key then some (.openSession reply profile cols (s.historyEpoch + 1)) else none
  | .closeSession key' => if key' = key then some .close else none
  | .clearSessions | .forgetGateway => some .close
  | .rebuildSession key' messages replayEpoch =>
    if key' = key then some (.rebuildSession messages replayEpoch (s.historyEpoch + 1)) else none
  | .repointLiveSid key' newLiveSid => if key' = key then some (.repointLiveSid newLiveSid) else none
  | .touch key' seq epoch => if key' = key then some (.touch seq epoch) else none
  | .reemitCard key' card => if key' = key then some (.reemitCard card) else none
  | .appendUserRow key' text historyEpoch => if key' = key then some (.appendUserRow text historyEpoch) else none
  | .respondApproval key' requestId => if key' = key then some (.respondApproval requestId) else none
  | .respondClarify key' requestId => if key' = key then some (.respondClarify requestId) else none

end CoreState

/-- Run a tab action, if there is one. -/
def Tab.actOption [Serializer] (t : Tab) (key : String) : Option TabAction → Tab × List TranscriptChangeDto
  | none => (t, [])
  | some a => t.act key a

/-! ### An action is at most one tab action -/

private theorem openRecord_storedId (reply : OpenReply) (profile : Option String) (cols : Int)
    (previous : Option SessionRecord) : (openRecord reply profile cols previous).storedId = reply.key := rfl

/-- What of the result of a lock section concerns `key`. -/
def view (key : String) (result : CoreState × List TranscriptChangeDto) : Tab × List TranscriptChangeDto :=
  (result.1.tab key, result.2.filter (·.key == key))

section

variable [Serializer]

private theorem changesToDtos_key {key : String} {changes : List SessionChange} {rows : List Row} {title : String} :
    ∀ dto ∈ changesToDtos key changes rows title, dto.key = key := by
  intro dto hdto
  unfold changesToDtos at hdto
  rw [List.mem_map] at hdto
  obtain ⟨c, -, rfl⟩ := hdto
  cases c.change <;> rfl

private theorem view_own {s : CoreState} {key : String} {changes : List SessionChange} {rows : List Row}
    {title : String} :
    view key (s, changesToDtos key changes rows title) = (s.tab key, changesToDtos key changes rows title) := by
  unfold view
  rw [List.filter_eq_self.2]
  intro dto hdto
  rw [changesToDtos_key dto hdto]
  exact beq_self_eq_true key

private theorem view_other {s : CoreState} {key key' : String} (h : key' ≠ key) {changes : List SessionChange}
    {rows : List Row} {title : String} :
    view key (s, changesToDtos key' changes rows title) = (s.tab key, []) := by
  unfold view
  rw [List.filter_eq_nil_iff.2]
  intro dto hdto
  rw [changesToDtos_key dto hdto]
  simpa using h

end

private theorem view_nil {s : CoreState} {key : String} : view key (s, []) = (s.tab key, []) := rfl

namespace CoreState

theorem tab_setSession (s : CoreState) (key key' : String) (live : LiveSession) :
    (s.setSession key' live).tab key = if key' = key then { s.tab key with live := some live } else s.tab key := by
  unfold tab setSession
  by_cases h : key' = key
  · subst h
    simp
  · simp [h, AList.lookup_insert_ne (Ne.symm h)]

/-- The registry writes of `deliver_event` touch the record of the session and no other. -/
private theorem get_deliverRegistry (registry : SessionRegistry) (key : String) (ev : EventParams)
    (changes : List SessionChange) (title key' : String) :
    (deliverRegistry registry key ev changes title).get key' =
      if key' = key then (registry.get key').map (deliverRecord ev changes title) else registry.get key' := by
  have htitle : ∀ r : SessionRecord, ({ r with title := title } : SessionRecord).storedId = r.storedId := fun _ => rfl
  unfold deliverRegistry deliverRecord
  cases ev.seq with
  | none =>
    dsimp only
    split
    · rw [SessionRegistry.get_modify _ htitle]
    · simp
  | some seq =>
    dsimp only
    split
    · rw [SessionRegistry.get_modify _ htitle, SessionRegistry.get_touch]
      split
      · rw [Option.map_map]
        rfl
      · rfl
    · rw [SessionRegistry.get_touch]

private theorem tab_closeSession (s : CoreState) (key key' : String) :
    (s.closeSession key').tab key = if key' = key then {} else s.tab key := by
  unfold closeSession tab
  dsimp only
  by_cases h : key' = key
  · subst h
    rw [if_pos rfl, AList.lookup_erase, AList.lookup_erase, SessionRegistry.get_close, if_pos rfl]
    rfl
  · rw [if_neg h, AList.lookup_erase_ne (Ne.symm h), AList.lookup_erase_ne (Ne.symm h), SessionRegistry.get_close,
      if_neg (Ne.symm h)]

section

variable [Serializer]

private theorem view_editReducer (s : CoreState) (key key' : String)
    (edit : Reducer → Reducer × List SessionChange) :
    view key (s.editReducer key' edit) =
      if key' = key then (s.tab key).editReducer key edit else (s.tab key, []) := by
  unfold editReducer
  by_cases h : key' = key
  · subst h
    rw [if_pos rfl]
    unfold Tab.editReducer
    cases hl : s.sessions.lookup key' with
    | none => simp [tab, hl, view_nil]
    | some live =>
      dsimp only
      rw [view_own, tab_setSession, if_pos rfl]
      simp [tab, hl]
  · rw [if_neg h]
    cases s.sessions.lookup key' with
    | none => rfl
    | some live =>
      dsimp only
      rw [view_other h, tab_setSession, if_neg h]

private theorem view_deliverEvent (s : CoreState) (key : String) (ev : EventParams) :
    view key (s.deliverEvent ev) =
      if s.resolve ev.sessionId = some key then (s.tab key).act key (.deliver ev) else (s.tab key, []) := by
  unfold deliverEvent routeEvent
  cases hr : s.resolve ev.sessionId with
  | none => rfl
  | some key' =>
    dsimp only
    by_cases h : key' = key
    · subst h
      rw [if_pos rfl]
      cases hl : s.sessions.lookup key' with
      | none => simp [view_nil, Tab.act, tab, hl]
      | some live =>
        dsimp only
        rw [view_own]
        unfold Tab.act tab setSession
        dsimp only
        rw [get_deliverRegistry, if_pos rfl, AList.lookup_insert]
        simp [hl]
    · rw [if_neg (by simpa using h)]
      cases s.sessions.lookup key' with
      | none => rfl
      | some live =>
        dsimp only
        rw [view_other h]
        unfold tab setSession
        dsimp only
        rw [get_deliverRegistry, if_neg (Ne.symm h), AList.lookup_insert_ne (Ne.symm h)]

private theorem view_openSession (s : CoreState) (key : String) (reply : OpenReply) (profile : Option String)
    (cols : Int) :
    view key (s.openSession reply profile cols) =
      if reply.key = key then (s.tab key).act key (.openSession reply profile cols (s.historyEpoch + 1))
      else (s.tab key, []) := by
  unfold openSession
  dsimp only
  by_cases h : reply.key = key
  · subst h
    rw [view_own, if_pos rfl]
    unfold tab Tab.act
    dsimp only
    rw [AList.lookup_insert, SessionRegistry.get_setActive, SessionRegistry.get_upsert, openRecord_storedId,
      if_pos rfl]
  · rw [view_other h, if_neg h]
    unfold tab
    dsimp only
    rw [AList.lookup_insert_ne (Ne.symm h), SessionRegistry.get_setActive, SessionRegistry.get_upsert,
      openRecord_storedId, if_neg (Ne.symm h)]

private theorem view_rebuildSession (s : CoreState) (key key' : String) (messages : List Value)
    (replayEpoch : Option String) :
    view key (s.rebuildSession key' messages replayEpoch) =
      if key' = key then (s.tab key).act key (.rebuildSession messages replayEpoch (s.historyEpoch + 1))
      else (s.tab key, []) := by
  have hid : ∀ r : SessionRecord,
      ({ r with lastSeenSeq := 0, replayEpoch := replayEpoch.getD r.replayEpoch } : SessionRecord).storedId =
        r.storedId := fun _ => rfl
  unfold rebuildSession
  dsimp only
  by_cases h : key' = key
  · subst h
    rw [if_pos rfl]
    cases hl : s.sessions.lookup key' with
    | none => simp [view_nil, tab, Tab.act, hl]
    | some live =>
      dsimp only
      rw [view_own]
      unfold tab Tab.act
      dsimp only
      rw [AList.lookup_insert, SessionRegistry.get_modify _ hid, if_pos rfl, hl]
  · rw [if_neg h]
    cases s.sessions.lookup key' with
    | none => rfl
    | some live =>
      dsimp only
      rw [view_other h]
      unfold tab
      dsimp only
      rw [AList.lookup_insert_ne (Ne.symm h), SessionRegistry.get_modify _ hid, if_neg (Ne.symm h)]

private theorem view_repointLiveSid (s : CoreState) (key key' sid : String) :
    view key (s.repointLiveSid key' sid, []) =
      if key' = key then (s.tab key).act key (.repointLiveSid sid) else (s.tab key, []) := by
  rw [view_nil]
  unfold repointLiveSid
  by_cases h : key' = key
  · subst h
    rw [if_pos rfl]
    cases hl : s.sessions.lookup key' with
    | none => simp [tab, Tab.act, hl]
    | some live =>
      dsimp only
      split
      · rename_i heq
        subst heq
        simp [tab, Tab.act, hl]
      · simp [tab, Tab.act, hl]
  · rw [if_neg h]
    cases s.sessions.lookup key' with
    | none => rfl
    | some live =>
      dsimp only
      split
      · rfl
      · simp [tab, AList.lookup_insert_ne (Ne.symm h)]

private theorem view_touch (s : CoreState) (key key' : String) (seq : Int) (epoch : String) :
    view key (s.touch key' seq epoch, []) =
      if key' = key then (s.tab key).act key (.touch seq epoch) else (s.tab key, []) := by
  rw [view_nil]
  unfold touch tab Tab.act
  dsimp only
  rw [SessionRegistry.get_touch]
  by_cases h : key' = key
  · rw [if_pos h, if_pos h.symm]
  · rw [if_neg h, if_neg (Ne.symm h)]

private theorem view_reemitCard (s : CoreState) (key key' : String) (card : Value) :
    view key (s.reemitCard key' card) =
      if key' = key then (s.tab key).act key (.reemitCard card) else (s.tab key, []) := by
  unfold reemitCard
  by_cases h : key' = key
  · subst h
    rw [if_pos rfl]
    unfold Tab.act Tab.reemitCard tab
    dsimp only
    split
    · rfl
    · split
      · rfl
      · cases hl : s.sessions.lookup key' with
        | none => simp [view_nil, tab, hl]
        | some live =>
          dsimp only
          split
          · simp [view_nil, tab, hl]
          · generalize live.reducer.applyApprovalCard key' (card.strAt "request_id") card = result
            obtain ⟨reducer, emitted⟩ := result
            rcases emitted with _ | _ | ⟨c, cs⟩
            · simp [view_nil, tab, setSession]
            · simp [view_nil, tab, setSession]
            · dsimp only
              rw [view_own]
              simp [tab, setSession]
  · rw [if_neg h]
    dsimp only
    split
    · rfl
    · split
      · rfl
      · cases s.sessions.lookup key' with
        | none => rfl
        | some live =>
          dsimp only
          split
          · rfl
          · generalize live.reducer.applyApprovalCard key' (card.strAt "request_id") card = result
            obtain ⟨reducer, emitted⟩ := result
            rcases emitted with _ | _ | ⟨c, cs⟩
            · dsimp only
              rw [view_nil, tab_setSession, if_neg h]
            · dsimp only
              rw [view_nil, tab_setSession, if_neg h]
            · dsimp only
              rw [view_other h]
              simp [tab, setSession, AList.lookup_insert_ne (Ne.symm h)]

private theorem view_appendUserRow (s : CoreState) (key key' text : String) (historyEpoch : UInt64) :
    view key (s.appendUserRow key' text historyEpoch) =
      if key' = key then (s.tab key).act key (.appendUserRow text historyEpoch) else (s.tab key, []) := by
  unfold appendUserRow
  by_cases h : key' = key
  · subst h
    rw [if_pos rfl]
    unfold Tab.act
    cases hl : s.sessions.lookup key' with
    | none => simp [view_nil, tab, hl]
    | some live =>
      dsimp only
      split
      · rename_i heq
        rw [view_editReducer, if_pos rfl]
        simp [tab, hl, heq]
      · rename_i hne
        simp [view_nil, tab, hl, hne]
  · rw [if_neg h]
    cases s.sessions.lookup key' with
    | none => rfl
    | some live =>
      dsimp only
      split
      · rw [view_editReducer, if_neg h]
      · rfl

private theorem actOption_ite (t : Tab) (key : String) (p : Prop) [Decidable p] (a : TabAction) :
    t.actOption key (if p then some a else none) = if p then t.act key a else (t, []) := by
  split <;> rfl

/-- An action is at most one tab action on every tab, and sends what that tab action sends. -/
theorem view_act (s : CoreState) (key : String) (a : Action) :
    view key (s.act a) = (s.tab key).actOption key (s.onTab key a) := by
  cases a with
  | deliver ev => exact (view_deliverEvent s key ev).trans (actOption_ite ..).symm
  | openSession reply profile cols => exact (view_openSession s key reply profile cols).trans (actOption_ite ..).symm
  | closeSession key' =>
    refine (view_nil.trans ?_).trans (actOption_ite ..).symm
    rw [tab_closeSession]
    split <;> rfl
  | clearSessions => rfl
  | forgetGateway => rfl
  | rebuildSession key' messages replayEpoch =>
    exact (view_rebuildSession s key key' messages replayEpoch).trans (actOption_ite ..).symm
  | repointLiveSid key' sid => exact (view_repointLiveSid s key key' sid).trans (actOption_ite ..).symm
  | touch key' seq epoch => exact (view_touch s key key' seq epoch).trans (actOption_ite ..).symm
  | reemitCard key' card => exact (view_reemitCard s key key' card).trans (actOption_ite ..).symm
  | appendUserRow key' text historyEpoch =>
    exact (view_appendUserRow s key key' text historyEpoch).trans (actOption_ite ..).symm
  | respondApproval key' requestId =>
    refine (view_editReducer s key key' _).trans (Eq.trans ?_ (actOption_ite ..).symm)
    split
    · rename_i h
      rw [h]
      rfl
    · rfl
  | respondClarify key' requestId =>
    refine (view_editReducer s key key' _).trans (Eq.trans ?_ (actOption_ite ..).symm)
    split
    · rename_i h
      rw [h]
      rfl
    · rfl

theorem tab_act (s : CoreState) (key : String) (a : Action) :
    (s.act a).1.tab key = ((s.tab key).actOption key (s.onTab key a)).1 := congrArg Prod.fst (view_act s key a)

/-- The changes sent for a key. -/
theorem dtos_act (s : CoreState) (key : String) (a : Action) :
    (s.act a).2.filter (·.key == key) = ((s.tab key).actOption key (s.onTab key a)).2 :=
  congrArg Prod.snd (view_act s key a)

end

end CoreState

end Hermo
