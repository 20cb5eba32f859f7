import Hermo.Core.AtMostOnce
import Hermo.Core.RoutingIndex

/-!
# Sessions do not interfere

Delivering events never changes the routing.  With the index consistent, an event that reaches the session of a key is
addressed to it, by its live sid or by the key, so what happens under the key is a function of these events alone.
-/

namespace Hermo

namespace CoreState

/-- The event names `key`, or the live sid its session has. -/
def Addressed (s : CoreState) (key : String) (ev : EventParams) : Prop :=
  ev.sessionId = key ∨ s.liveSid key = some ev.sessionId

instance (s : CoreState) (key : String) : DecidablePred (s.Addressed key) :=
  fun _ => inferInstanceAs (Decidable (_ ∨ _))

/-- Only addressed events are routed to a session. -/
theorem addressed_of_resolve {s : CoreState} (h : s.Indexed) {key : String} {ev : EventParams}
    (hr : s.resolve ev.sessionId = some key) : s.Addressed key ev := by
  unfold resolve at hr
  split at hr
  · cases hr
  · split at hr
    · rename_i hl
      rw [Option.some_inj] at hr
      exact .inr ((h ev.sessionId key).1 (hr ▸ hl))
    · split at hr
      · exact .inl (Option.some.inj hr)
      · cases hr

/-- With live sids that are no keys of other sessions, every addressed event is routed to an open session. -/
theorem resolve_of_addressed {s : CoreState} (h : s.Indexed)
    (hdistinct : ∀ key key' sid, s.liveSid key = some sid → key' ∈ s.sessions → key' ≠ key → sid ≠ key')
    {key : String} {ev : EventParams} (hopen : key ∈ s.sessions) (hid : ev.sessionId ≠ "")
    (ha : s.Addressed key ev) : s.resolve ev.sessionId = some key := by
  unfold resolve
  rw [if_neg hid]
  rcases ha with hkey | hsid
  · rw [hkey, if_pos hopen]
    split
    · rename_i key' hl
      have hname := (h key key').1 hl
      by_contra hne
      exact hdistinct key' key key hname hopen (fun heq => hne (congrArg some heq.symm)) rfl
    · rfl
  · have hl : s.sidIndex.lookup ev.sessionId = some key := (h ev.sessionId key).2 hsid
    rw [hl]

end CoreState

section

variable [Serializer]

/-- The tab of a key after some of its own events, with the changes sent for it. -/
def Tab.deliverAll (t : Tab) (key : String) : List EventParams → Tab × List TranscriptChangeDto
  | [] => (t, [])
  | ev :: evs =>
    let (t', dtos) := t.act key (.deliver ev)
    let (t'', more) := t'.deliverAll key evs
    (t'', dtos ++ more)

namespace CoreState

/-- Deliver the events one after the other; the changes the sink receives, in order. -/
def deliverAll (s : CoreState) : List EventParams → CoreState × List TranscriptChangeDto
  | [] => (s, [])
  | ev :: evs =>
    let (s', dtos) := s.deliverEvent ev
    let (s'', more) := s'.deliverAll evs
    (s'', dtos ++ more)

/-- Under a key a run of events is the run of the events that are routed to it. -/
theorem view_deliverAll (s : CoreState) (key : String) (evs : List EventParams) :
    view key (s.deliverAll evs) =
      (s.tab key).deliverAll key (evs.filter fun ev => s.resolve ev.sessionId = some key) := by
  induction evs generalizing s with
  | nil => rfl
  | cons ev evs ih =>
    have hrest := ih (s.act (.deliver ev)).1
    have hrouting : (fun ev' : EventParams => decide ((s.act (.deliver ev)).1.resolve ev'.sessionId = some key)) =
        fun ev' => decide (s.resolve ev'.sessionId = some key) := by
      funext ev'
      rw [resolve_deliver]
    have htab := tab_act s key (.deliver ev)
    have hdtos := dtos_act s key (.deliver ev)
    rw [hrouting] at hrest
    have hview : view key (s.deliverAll (ev :: evs)) =
        ((view key ((s.act (.deliver ev)).1.deliverAll evs)).1,
          (s.act (.deliver ev)).2.filter (·.key == key) ++
            (view key ((s.act (.deliver ev)).1.deliverAll evs)).2) := by
      exact congrArg (Prod.mk _) (List.filter_append ..)
    rw [hview, hrest, htab, hdtos, onTab]
    by_cases hr : s.resolve ev.sessionId = some key
    · have hfilter : (ev :: evs).filter (fun ev' => s.resolve ev'.sessionId = some key) =
          ev :: evs.filter (fun ev' => s.resolve ev'.sessionId = some key) := by simp [hr]
      rw [if_pos hr, hfilter]
      rfl
    · have hfilter : (ev :: evs).filter (fun ev' => s.resolve ev'.sessionId = some key) =
          evs.filter (fun ev' => s.resolve ev'.sessionId = some key) := by simp [hr]
      rw [if_neg hr, hfilter]
      rfl

/-- With ids that tell the sessions apart, what happens under an open key is the run of the events addressed to it. -/
theorem view_addressed {s : CoreState} (h : s.Indexed)
    (hdistinct : ∀ key key' sid, s.liveSid key = some sid → key' ∈ s.sessions → key' ≠ key → sid ≠ key')
    {key : String} (hopen : key ∈ s.sessions) {evs : List EventParams} (hid : ∀ ev ∈ evs, ev.sessionId ≠ "") :
    view key (s.deliverAll evs) = (s.tab key).deliverAll key (evs.filter (s.Addressed key)) := by
  have hrouted : evs.filter (fun ev => s.resolve ev.sessionId = some key) = evs.filter (s.Addressed key) := by
    refine List.filter_congr fun ev hev => ?_
    have hiff : s.resolve ev.sessionId = some key ↔ s.Addressed key ev := by
      constructor
      · exact addressed_of_resolve h
      · exact resolve_of_addressed h hdistinct hopen (hid ev hev)
    simp [hiff]
  rw [view_deliverAll, hrouted]

/-- Two runs with the same events addressed to a key leave the same tab under it (transcript, latches, watermark,
registry record and re-emitted approvals) and send the same changes for it, whatever the other events are. -/
theorem sessions_do_not_interfere {s : CoreState} (h : s.Indexed) (key : String) {evs evs' : List EventParams}
    (heq : evs.filter (s.Addressed key) = evs'.filter (s.Addressed key)) :
    (s.deliverAll evs).1.tab key = (s.deliverAll evs').1.tab key ∧
      (s.deliverAll evs).2.filter (·.key == key) = (s.deliverAll evs').2.filter (·.key == key) := by
  have hrouted : ∀ l : List EventParams, l.filter (fun ev => s.resolve ev.sessionId = some key) =
      (l.filter (s.Addressed key)).filter fun ev => s.resolve ev.sessionId = some key := by
    intro l
    rw [List.filter_filter]
    refine List.filter_congr fun ev _ => ?_
    by_cases hr : s.resolve ev.sessionId = some key
    · have ha := addressed_of_resolve h hr
      simp [hr, ha]
    · simp [hr]
  have hview : view key (s.deliverAll evs) = view key (s.deliverAll evs') := by
    rw [view_deliverAll, view_deliverAll, hrouted evs, hrouted evs', heq]
  exact ⟨congrArg Prod.fst hview, congrArg Prod.snd hview⟩

end CoreState

end

section

attribute [local instance] Serializer.compact

private def twoChats : CoreState :=
  (CoreState.new {}).run [.openSession (.created ⟨"live-a", "a", ""⟩) none 80,
    .openSession (.created ⟨"live-b", "b", ""⟩) none 80]

private theorem twoChats_indexed : twoChats.Indexed := by
  have ha := (CoreState.indexed_act_iff (CoreState.indexed_new {})
    (.openSession (.created ⟨"live-a", "a", ""⟩) none 80)).2 (by
      constructor
      · rintro key - ⟨⟩
      · rintro sid ⟨⟩)
  refine (CoreState.indexed_act_iff ha _).2 ⟨?_, ?_⟩
  · intro key _ hsid
    have hkey := (ha "live-b" key).2 hsid
    cases hkey
  · rintro sid ⟨⟩

private def said (sessionId text : String) (seq : Int) : EventParams :=
  ⟨"message.delta", sessionId, some seq, .object [("text", .string text)]⟩

/-- The stream of "a", alone and interleaved with the stream of "b". -/
theorem sessions_do_not_interfere_twoChats :
    (twoChats.deliverAll [said "live-a" "x" 1, said "live-a" "y" 2]).1.tab "a" =
      (twoChats.deliverAll [said "live-b" "u" 1, said "live-a" "x" 1, said "b" "v" 2, said "live-a" "y" 2]).1.tab "a" ∧
    (twoChats.deliverAll [said "live-a" "x" 1, said "live-a" "y" 2]).2.filter (·.key == "a") =
      (twoChats.deliverAll [said "live-b" "u" 1, said "live-a" "x" 1, said "b" "v" 2,
        said "live-a" "y" 2]).2.filter (·.key == "a") :=
  CoreState.sessions_do_not_interfere twoChats_indexed "a" rfl

end

end Hermo
