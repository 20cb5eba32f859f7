import Hermo.App.Rows
import Hermo.Library.Outbox
import Hermo.Library.Tasks

/-!
# Opens and the change stream

The core, the changes its tasks hand to the sink, and the app that processes them on its main thread, with any number
of opens in flight: picker rows, new chats and bot chats.  An open asks the core, whose lock section puts the session
in place and leaves its changes to the sink; the main thread takes the changes of the sink one by one, and completes
the opens whose calls have returned, in any order.  `Mirrors` is the invariant: for every key, what was parked for it
and what is still on its way take the rows of the app to those of the core.
-/

namespace Hermo

open Tasks Run

/-- The action neither opens nor closes a session. -/
def Action.stays : Action → Bool
  | .openSession _ _ _ | .closeSession _ | .clearSessions | .forgetGateway => false
  | _ => true

/-- The completion of an open, as the coroutine or the reducer goes on with it. -/
def AppState.openCompleted [HeaderReader] (p : Platform) (s : AppState) (key profile : String) : Option AppState :=
  match p with
  | .android => some (Repository.opened s key profile).1
  | .ios => (AppFeature.sessionOpened s key (withProfile · key profile)).map Prod.fst

theorem AppState.openCompleted_eq [HeaderReader] {p : Platform} {s : AppState} {key : String} {rows : List String}
    (h : p.receive (s.rowsOf key) (s.early key) = some rows) (profile : String) :
    ∃ mid sessions, s.openCompleted p key profile =
        some { mid.finishInFlightOpen p with sessions := sessions, currentKey := some key } ∧
      Registered s key mid ∧ rowsUnder sessions key = rows ∧
      ∀ k, k ≠ key → rowsUnder sessions k = s.rowsOf k := by
  obtain ⟨mid, hok, hmid, hown, hothers⟩ := rowsOf_register h
  refine ⟨mid, withProfile mid.sessions key profile, ?_, hmid, ?_, ?_⟩
  · unfold openCompleted
    cases p with
    | android =>
      have hopen : ({ mid.finishInFlightOpen .android with
          sessions := withProfile mid.sessions key profile, currentKey := some key } : AppState).isOpenOrRestoring
            key := by
        refine .inl ?_
        change key ∈ mid.tabs.keys
        rw [hmid.tabs]
        exact TabSet.mem_add.2 (.inr rfl)
      have hregister : Repository.register s key = (mid.finishInFlightOpen .android, true) := by
        unfold Repository.register
        rw [hok]
      unfold Repository.opened Repository.refreshThen
      rw [hregister]
      exact congrArg some (congrArg Prod.fst (if_pos hopen))
    | ios =>
      unfold AppFeature.sessionOpened AppFeature.registerOpenedSession AppFeature.completed
      rw [hok]
      rfl
  · exact (rowsUnder_withProfile mid.sessions key profile key).trans hown
  · exact fun k hk => (rowsUnder_withProfile mid.sessions key profile k).trans (hothers k hk)

/-- `taken` are the calls of the sink that the main thread has processed. -/
structure Intake where
  core : Outbox.System CoreState String TranscriptChangeDto
  taken : Nat
  app : AppState

namespace Intake

/-- An open; `profile` is the one of a bot chat, `worker` the task of the core that ran its call. -/
inductive Open where
  | called (profile : String)
  | asked (profile : String)
  | answered (worker profile key : String)
  | refused
  | ended

inductive Input where
  | run
  | answer (worker : String) (reply : OpenReply) (profile : Option String) (cols : Int)
  | refuse
  | complete

inductive Event where
  /-- Another lock section of the core: events, sends, rebuilds, answers to cards. -/
  | act (worker : String) (a : Action)
  | sink (worker : String)
  | deliver
  /-- The end of a header refresh. -/
  | header (key : String) (summary : Option SessionSummary)

section

variable [Serializer] [HeaderReader]

/-- A step of an open.  Its call returns after its changes were handed over. -/
def next (p : Platform) (s : Intake) : Open → Input → Option (Intake × Open × List Open)
  | .called profile, .run => some ({ s with app := s.app.beginOpen }, .asked profile, [])
  | .asked profile, .answer worker reply owner cols =>
    (Outbox.step CoreState.act s.core (.lock worker (.openSession reply owner cols))).map fun core =>
      ({ s with core := core }, .answered worker profile reply.key, [])
  | .asked _, .refuse => some (s, .refused, [])
  | .answered worker profile key, .complete =>
    if s.core.waiting.any (·.task == worker) then none
    else (s.app.openCompleted p key profile).map fun app => ({ s with app := app }, .ended, [])
  | .refused, .complete => some ({ s with app := s.app.finishInFlightOpen p }, .ended, [])
  | _, _ => none

def env (p : Platform) (s : Intake) : Event → Option Intake
  | .act worker a =>
    if a.stays then
      (Outbox.step CoreState.act s.core (.lock worker a)).map fun core => { s with core := core }
    else none
  | .sink worker =>
    (Outbox.step CoreState.act s.core (.call worker)).map fun core => { s with core := core }
  | .deliver =>
    match s.core.received[s.taken]? with
    | none => none
    | some c => (s.app.onTranscriptChange p c.change).map fun app => { s with app := app, taken := s.taken + 1 }
  | .header key summary => some { s with app := s.app.afterOpen p key summary }

def entry : Intake → Open → Bool
  | _, .called _ => true
  | _, _ => false

def program (p : Platform) : Program Intake Open Input Event := ⟨next p, env p, entry⟩

end

/-- The core as it starts, and the app with nothing open. -/
def start (registry : SessionRegistry) (phase : AppPhase) (endpointText : String) : System Intake Open :=
  ⟨⟨⟨.new registry, [], [], []⟩, 0, { phase := phase, endpointText := endpointText }⟩, []⟩

/-! ### The invariant -/

/-- The changes the app has not seen, of any key. -/
def stream (s : Intake) : List TranscriptChangeDto := s.core.applied.drop s.taken

/-- The changes of a key the app has not seen. -/
def streamOf (s : Intake) (key : String) : List TranscriptChangeDto := s.stream.filter (·.key == key)

section

variable [Serializer]

structure Mirrors (p : Platform) (s : Intake) : Prop where
  queued : Outbox.Queued s.core
  taken : s.taken ≤ s.core.received.length
  wellFormed : s.core.state.WellFormed
  rows : ∀ key, p.receive (s.app.rowsOf key) (s.app.early key ++ s.streamOf key) =
    some ((s.core.state.rowsOf key).map rowText)
  settled : ∀ key ∈ s.app.tabs.keys, s.app.early key = []
  dead : ∀ key, (s.core.state.tab key).live = none → s.app.early key = [] ∧ s.streamOf key = []
  pending : s.app.pendingKeys = ∅
  bounded : s.app.parkedChanges.length ≤ parkedChangesMax

theorem mirrors_start (p : Platform) (registry : SessionRegistry) (phase : AppPhase) (endpointText : String) :
    Mirrors p (start registry phase endpointText).shared :=
  ⟨Outbox.queued_start _, Nat.le_refl _, CoreState.wellFormed_new registry, fun _ => rfl, fun _ hk => (nomatch hk),
    fun _ _ => ⟨rfl, rfl⟩, rfl, Nat.zero_le _⟩

namespace Mirrors

variable {p : Platform} {s : Intake}

theorem open_iff (h : Mirrors p s) {key : String} : s.app.isOpenOrRestoring key ↔ key ∈ s.app.tabs.keys := by
  unfold AppState.isOpenOrRestoring
  rw [h.pending]
  exact or_iff_left (Finset.notMem_empty key)

/-- What was parked for a key can be applied. -/
theorem drains (h : Mirrors p s) (key : String) : ∃ rows, p.receive (s.app.rowsOf key) (s.app.early key) = some rows := by
  have hrows := h.rows key
  rw [p.receive_append] at hrows
  obtain ⟨rows, hearly, -⟩ := Option.bind_eq_some_iff.1 hrows
  exact ⟨rows, hearly⟩

/-- The app changes, and nothing it has not seen. -/
theorem app (h : Mirrors p s) (app : AppState)
    (hrows : ∀ key, p.receive (app.rowsOf key) (app.early key) = p.receive (s.app.rowsOf key) (s.app.early key))
    (hsettled : ∀ key ∈ app.tabs.keys, app.early key = [])
    (hdead : ∀ key, s.app.early key = [] → app.early key = []) (hpending : app.pendingKeys = ∅)
    (hbounded : app.parkedChanges.length ≤ parkedChangesMax) : Mirrors p { s with app := app } := by
  refine ⟨h.queued, h.taken, h.wellFormed, ?_, hsettled, ?_, hpending, hbounded⟩
  · intro key
    have hbefore := h.rows key
    rw [p.receive_append] at hbefore ⊢
    rw [hrows key]
    exact hbefore
  · intro key hlive
    exact ⟨hdead key (h.dead key hlive).1, (h.dead key hlive).2⟩

/-! ### The core -/

/-- A lock section. -/
theorem lock (h : Mirrors p s) {worker : String} {a : Action} {core : Outbox.System CoreState String TranscriptChangeDto}
    (hstep : Outbox.step CoreState.act s.core (.lock worker a) = some core) (hcloses : ∀ key, a.closes key = false)
    (hlen : ∀ key, ((s.core.state.act a).1.rowsOf key).length ≤ intLimit)
    (hclear : ∀ reply profile cols, a = .openSession reply profile cols → reply.messages = [] →
      s.core.state.rowsOf reply.key = []) :
    Mirrors p { s with core := core } ∧ core.state = (s.core.state.act a).1 := by
  have hqueued := h.queued.step (l := .lock worker a) trivial hstep
  simp only [Outbox.step, Option.ite_none_left_eq_some, Option.some.injEq] at hstep
  obtain ⟨-, rfl⟩ := hstep
  have htaken : s.taken ≤ s.core.applied.length := by
    have hchanges := congrArg List.length h.queued.changes
    rw [List.length_map, List.length_append] at hchanges
    exact h.taken.trans (by omega)
  have hstream : ∀ key, streamOf { s with core := { s.core with
        state := (s.core.state.act a).1
        applied := s.core.applied ++ (s.core.state.act a).2
        waiting := s.core.waiting ++ Outbox.outgoing worker s.core.applied.length (s.core.state.act a).2 } } key =
      s.streamOf key ++ (s.core.state.act a).2.filter (·.key == key) := by
    intro key
    unfold streamOf stream
    dsimp only
    rw [List.drop_append_of_le_length htaken, List.filter_append]
  refine ⟨⟨hqueued, h.taken, h.wellFormed.act a, ?_, h.settled, ?_, h.pending, h.bounded⟩, rfl⟩
  · intro key
    rw [hstream, ← List.append_assoc, p.receive_append, h.rows key, Option.bind_some]
    refine CoreState.receive_act h.wellFormed p key (hcloses key) (hlen key) ?_
    rintro reply profile cols rfl rfl hempty
    exact hclear reply profile cols rfl hempty
  · intro key hlive
    rw [hstream]
    obtain ⟨hbefore, hnone⟩ := CoreState.dead_before (hcloses key) hlive
    obtain ⟨hearly, hold⟩ := h.dead key hbefore
    rw [hold, hnone]
    exact ⟨hearly, rfl⟩

/-- A call of the sink, for the oldest change. -/
theorem sink (h : Mirrors p s) {worker : String} {core : Outbox.System CoreState String TranscriptChangeDto}
    (hold : Outbox.Oldest s.core (.call worker : Outbox.Label String Action))
    (hstep : Outbox.step CoreState.act s.core (.call worker) = some core) :
    Mirrors p { s with core := core } ∧ core.state = s.core.state := by
  have hqueued := h.queued.step hold hstep
  obtain ⟨c, -, rfl⟩ := Option.map_eq_some_iff.1 hstep
  have htaken : s.taken ≤ (s.core.received ++ [c]).length := by
    rw [List.length_append]
    exact h.taken.trans (Nat.le_add_right _ _)
  exact ⟨⟨hqueued, htaken, h.wellFormed, h.rows, h.settled, h.dead, h.pending, h.bounded⟩, rfl⟩

/-! ### The main thread -/

theorem stream_head (h : Mirrors p s) {c : Outbox.Outgoing String TranscriptChangeDto}
    (hc : s.core.received[s.taken]? = some c) : s.stream = c.change :: s.core.applied.drop (s.taken + 1) := by
  have hget : s.core.applied[s.taken]? = some c.change := by
    obtain ⟨hlt, -⟩ := List.getElem?_eq_some_iff.1 hc
    rw [← h.queued.changes, List.getElem?_map, List.getElem?_append_left hlt, hc]
    rfl
  obtain ⟨hlt, hget⟩ := List.getElem?_eq_some_iff.1 hget
  unfold stream
  rw [List.drop_eq_getElem_cons hlt, hget]

/-- A change of a tab is applied. -/
theorem deliver_known (h : Mirrors p s) {c : Outbox.Outgoing String TranscriptChangeDto}
    (hc : s.core.received[s.taken]? = some c) (hmem : c.change.key ∈ s.app.tabs.keys) :
    ∃ sessions, s.app.onTranscriptChange p c.change = some { s.app with sessions := sessions } ∧
      Mirrors p { s with app := { s.app with sessions := sessions }, taken := s.taken + 1 } := by
  have hhead := h.stream_head hc
  have hopen := h.open_iff.2 hmem
  have hown : s.streamOf c.change.key = c.change ::
      (s.core.applied.drop (s.taken + 1)).filter (·.key == c.change.key) := by
    unfold streamOf
    rw [hhead, List.filter_cons_of_pos (by simp)]
  have hrows := h.rows c.change.key
  rw [h.settled _ hmem, List.nil_append, hown] at hrows
  obtain ⟨mid, hmid, hrest⟩ := Option.bind_eq_some_iff.1 hrows
  obtain ⟨sessions, happ, hkey, hothers⟩ := applySessionChange_rows (AppState.mem_knownKeys.2 hopen) hmid
  refine ⟨sessions, ?_, h.queued, ?_, h.wellFormed, ?_, h.settled, ?_, h.pending, h.bounded⟩
  · unfold AppState.onTranscriptChange
    rw [if_neg (not_not.2 hopen), happ]
    rfl
  · exact (List.getElem?_eq_some_iff.1 hc).1
  · intro key
    by_cases heq : key = c.change.key
    · subst heq
      change p.receive (rowsUnder sessions _) (s.app.early _ ++ _) = _
      rw [h.settled _ hmem, hkey]
      exact hrest
    · have hsame : s.streamOf key = (s.core.applied.drop (s.taken + 1)).filter (·.key == key) := by
        unfold streamOf
        rw [hhead, List.filter_cons_of_neg (by simpa using Ne.symm heq)]
      have hbefore := h.rows key
      rw [hsame] at hbefore
      change p.receive (rowsUnder sessions key) _ = _
      rw [hothers key heq]
      exact hbefore
  · intro key hlive
    obtain ⟨hearly, hnone⟩ := h.dead key hlive
    refine ⟨hearly, ?_⟩
    unfold streamOf at hnone
    rw [hhead, List.filter_eq_nil_iff, List.forall_mem_cons] at hnone
    exact List.filter_eq_nil_iff.2 hnone.2

/-- A change of any other key is parked, where an open is in flight. -/
theorem deliver_unknown (h : Mirrors p s) {c : Outbox.Outgoing String TranscriptChangeDto}
    (hc : s.core.received[s.taken]? = some c) (hmem : c.change.key ∉ s.app.tabs.keys)
    (hparks : s.app.inFlightOpens > 0)
    (hspared : parkedChangesMax ≤ s.app.parkedChanges.length → s.app.OldestSpared p) :
    s.app.onTranscriptChange p c.change = some (s.app.park c.change) ∧
      Mirrors p { s with app := s.app.park c.change, taken := s.taken + 1 } := by
  have hhead := h.stream_head hc
  have hclosed : ¬ s.app.isOpenOrRestoring c.change.key := fun hopen => hmem (h.open_iff.1 hopen)
  have hbounded := h.bounded
  have hleft := s.app.receive_left hspared hbounded
  have hkept : ∀ key, c.change.key ≠ key → s.app.early key = [] → (s.app.park c.change).early key = [] := by
    intro key hne hnone
    rw [AppState.early_park, List.filter_cons_of_neg (by simpa using hne), List.filter_nil, List.append_nil]
    exact List.filter_eq_nil_iff.2 fun d hd => List.filter_eq_nil_iff.1 hnone d (List.mem_of_mem_drop hd)
  obtain ⟨hrowsOf, htabs, hpending, -⟩ := s.app.park_frame c.change
  refine ⟨?_, h.queued, (List.getElem?_eq_some_iff.1 hc).1, h.wellFormed, ?_, ?_, ?_, hpending.trans h.pending, ?_⟩
  · unfold AppState.onTranscriptChange
    rw [if_pos hclosed, if_pos hparks]
  · intro key
    have hbefore := h.rows key
    have hsplit : [c.change].filter (·.key == key) ++ (s.core.applied.drop (s.taken + 1)).filter (·.key == key) =
        s.streamOf key := by
      unfold streamOf
      rw [hhead, ← List.filter_append]
      rfl
    change p.receive ((s.app.park c.change).rowsOf key) ((s.app.park c.change).early key ++
      (s.core.applied.drop (s.taken + 1)).filter (·.key == key)) = _
    rw [hrowsOf, AppState.early_park, List.append_assoc, hsplit, p.receive_append, hleft key, ← p.receive_append]
    exact hbefore
  · intro key hkey
    change key ∈ (s.app.park c.change).tabs.keys at hkey
    rw [htabs] at hkey
    exact hkept key (fun heq => hmem (heq ▸ hkey)) (h.settled key hkey)
  · intro key hlive
    obtain ⟨hnone, hstream⟩ := h.dead key hlive
    unfold streamOf at hstream
    rw [hhead, List.filter_eq_nil_iff, List.forall_mem_cons] at hstream
    exact ⟨hkept key (by simpa using hstream.1) hnone, List.filter_eq_nil_iff.2 hstream.2⟩
  · exact s.app.park_length hbounded c.change

/-- An open ends without a session. -/
theorem finish (h : Mirrors p s) (hquiet : p.countDown s.app.inFlightOpens = 0 → ∀ key, s.app.early key = []) :
    Mirrors p { s with app := s.app.finishInFlightOpen p } := by
  have hearly : ∀ key, (s.app.finishInFlightOpen p).early key = s.app.early key := by
    intro key
    rw [AppState.early_finish]
    split
    · rename_i hzero
      exact (hquiet hzero key).symm
    · rfl
  refine h.app _ ?_ ?_ ?_ h.pending ((s.app.finish_length p).trans h.bounded)
  · intro key
    rw [hearly]
    rfl
  · intro key hkey
    rw [hearly]
    exact h.settled key hkey
  · intro key hnone
    rw [hearly]
    exact hnone

/-- An open completes: its session is a tab, with the rows that were parked for it. -/
theorem complete [HeaderReader] (h : Mirrors p s) (key profile : String)
    (hquiet : p.countDown s.app.inFlightOpens = 0 → ∀ k, k ≠ key → s.app.early k = []) :
    ∃ app, s.app.openCompleted p key profile = some app ∧ Mirrors p { s with app := app } ∧
      app.tabs = s.app.tabs.add key ∧ app.inFlightOpens = p.countDown s.app.inFlightOpens := by
  obtain ⟨rows, hrows⟩ := h.drains key
  obtain ⟨mid, sessions, heq, hmid, hown, hothers⟩ := AppState.openCompleted_eq hrows profile
  have hearly : ∀ k, (mid.finishInFlightOpen p).early k = if k = key then [] else s.app.early k := by
    intro k
    have hparked : mid.early k = if k = key then [] else s.app.early k := by
      unfold AppState.early
      rw [hmid.parkedChanges, List.filter_filter]
      split
      · rename_i hk
        subst hk
        exact List.filter_eq_nil_iff.2 fun d _ => by simp
      · rename_i hk
        exact List.filter_congr fun d _ => by grind
    rw [AppState.early_finish, hparked, hmid.inFlightOpens]
    split
    · rename_i hzero
      split
      · rfl
      · rename_i hk
        exact (hquiet hzero k hk).symm
    · rfl
  refine ⟨_, heq, ?_, hmid.tabs, congrArg p.countDown hmid.inFlightOpens⟩
  refine h.app _ ?_ ?_ ?_ ?_ ?_
  · intro k
    change p.receive (rowsUnder sessions k) ((mid.finishInFlightOpen p).early k) = _
    rw [hearly]
    by_cases hk : k = key
    · subst hk
      rw [if_pos rfl, hown, hrows]
      rfl
    · rw [if_neg hk, hothers k hk]
  · intro k hk
    change k ∈ mid.tabs.keys at hk
    rw [hmid.tabs, TabSet.mem_add] at hk
    change (mid.finishInFlightOpen p).early k = []
    rw [hearly]
    split
    · rfl
    · rename_i hne
      exact h.settled k (hk.resolve_right hne)
  · intro k hnone
    change (mid.finishInFlightOpen p).early k = []
    rw [hearly, hnone]
    exact ite_self []
  · change mid.pendingKeys = ∅
    rw [hmid.pendingKeys, h.pending]
    rfl
  · refine (mid.finish_length p).trans ?_
    rw [hmid.parkedChanges]
    exact (List.length_filter_le _ _).trans h.bounded

end Mirrors

end

end Intake

end Hermo
