import Hermo.Core.World
import Hermo.FakeGateway.Sessions

/-!
# What the fake gateway promises

The core relies on the gateway: a frame is the recorded event of its number, and a replay answers from the log.  The
events of a session are numbered from one on (`Numbered`), every line that is under way announces an event that was
recorded (`Vouches`), and as long as a session is not closed its log only grows; so the fake gateway keeps what
`World.FromGateway` asks for.
-/

namespace Hermo.FakeGateway

open OrderedMap (put lookup_put)
open Run (exec Meets)

/-! ### The numbers of the events -/

/-- The events of a session carry the numbers `1, …, seq`. -/
structure SessionRecord.Numbered (record : SessionRecord) : Prop where
  seq : record.seq = record.events.length
  numbers : record.events.map ReplayedEventRecord.seq = List.range' 1 record.events.length

/-- The events above a number are those behind the first ones. -/
private theorem filter_numbered {events : List ReplayedEventRecord} {base : Nat}
    (h : events.map ReplayedEventRecord.seq = List.range' (base + 1) events.length) (asked : Int) :
    events.filter (fun e => asked < e.seq) = events.drop (asked.toNat - base) := by
  induction events generalizing base with
  | nil => rw [List.drop_nil, List.filter_nil]
  | cons e events ih =>
    rw [List.map_cons, List.length_cons, List.range'_succ, List.cons.injEq] at h
    obtain ⟨hseq, hrest⟩ := h
    rw [List.filter_cons, ih hrest, hseq]
    by_cases hasked : asked < (base + 1 : Nat)
    · have hzero : asked.toNat - base = 0 := by omega
      have hzero' : asked.toNat - (base + 1) = 0 := by omega
      rw [if_pos (by simpa using hasked), hzero, hzero', List.drop_zero, List.drop_zero]
    · have hsucc : asked.toNat - base = asked.toNat - (base + 1) + 1 := by omega
      rw [if_neg (by simpa using hasked), hsucc, List.drop_succ_cons]

theorem SessionRecord.Numbered.above {record : SessionRecord} (h : record.Numbered) (asked : Int) :
    record.events.filter (fun e => asked < e.seq) = record.events.drop asked.toNat :=
  filter_numbered h.numbers asked

theorem SessionRecord.Numbered.seq_of_getElem {record : SessionRecord} (h : record.Numbered) {n : Nat}
    {e : ReplayedEventRecord} (he : record.events[n]? = some e) : e.seq = n + 1 := by
  have hnumber := congrArg (·[n]?) h.numbers
  obtain ⟨hlt, -⟩ := List.getElem?_eq_some_iff.1 he
  simp only [List.getElem?_map, he, Option.map_some, List.getElem?_range' hlt, Option.some_inj] at hnumber
  omega

section

variable [JsonReader]

/-- The events of a session after a change start with those before it, unless it was closed or inserted anew. -/
theorem Change.numbered {s s' : GatewayState} {t : Task} {key : String} {old new : Option SessionRecord}
    (h : Change s s' t key old new) (hold : ∀ record ∈ old, record.Numbered) : ∀ record ∈ new, record.Numbered := by
  intro record hrecord
  cases h with
  | same => exact hold record hrecord
  | amended before after hid horder hseq hevents =>
    cases hrecord
    obtain ⟨hlength, hnumbers⟩ := hold before rfl
    exact ⟨by rw [hseq, hevents, hlength], by rw [hevents, hnumbers]⟩
  | pushed before after eventType payload hid horder hseq hevents =>
    cases hrecord
    obtain ⟨hlength, hnumbers⟩ := hold before rfl
    constructor
    · rw [hseq, hevents, List.length_append, List.length_singleton, hlength]
    · rw [hevents, List.map_append, hnumbers, List.length_append, List.length_singleton, ← List.range'_append_1]
      simp [hlength, Nat.add_comm]
  | named _ hid horder hcounter hseq hevents =>
    cases hrecord
    exact ⟨by rw [hseq, hevents]; rfl, by rw [hevents]; rfl⟩
  | inserted old _ hid hseq hevents =>
    cases hrecord
    exact ⟨by rw [hseq, hevents]; rfl, by rw [hevents]; rfl⟩
  | closed => cases hrecord

def GatewayState.AllNumbered (s : GatewayState) : Prop :=
  ∀ key record, s.sessions.lookup key = some record → record.Numbered

theorem GatewayState.AllNumbered.changes {s s' : GatewayState} {t : Task} (h : s.AllNumbered)
    (hchanges : ChangesOne s s' t) : s'.AllNumbered := by
  obtain ⟨key, hchange, hother⟩ := hchanges
  intro k record hrecord
  by_cases hk : k = key
  · subst hk
    exact hchange.numbered (fun r hr => h k r hr) record hrecord
  · rw [hother k hk] at hrecord
    exact h k record hrecord

end

section

variable [JsonReader] [Lowercase]

theorem allNumbered_step {g g' : Gateway} {l : Move} (h : g.shared.AllNumbered)
    (hstep : program.step g l = some g') : g'.shared.AllNumbered := by
  rcases step_cases hstep with ⟨t, -, -, rfl⟩ | ⟨i, input, t, s, t', spawned, -, -, hnext, rfl⟩
  · exact h
  · exact h.changes (hnext.changesOne)

theorem allNumbered_run {config : Config} {fixtures : Fixtures} {labels : List Move} {g : Gateway}
    (hrun : exec program.step (start config fixtures) labels = some g) : g.shared.AllNumbered := by
  refine Run.exec_preserves program.step (P := fun g => g.shared.AllNumbered)
    (fun g l g' h hstep => allNumbered_step h hstep) ?_ hrun
  intro key record hrecord
  cases hrecord

end

/-! ### The replies -/

/-- A number of the gateway as the core reads it: exact up to `i64::MAX`. -/
def wireSeq (n : Nat) : Int := (Value.object [("seq", .number (.int n))]).i64At "seq"

theorem wireSeq_eq {n : Nat} (h : (n : Int) ≤ i64Max) : wireSeq n = n := by
  have hmin : i64Min ≤ (n : Int) := by
    unfold i64Min
    omega
  simp [wireSeq, Value.i64At, Value.get, hmin, h]

private theorem i64At_of_get {value : Value} {key : String} {n : Nat} (h : value.get key = some (.number (.int n))) :
    value.i64At key = wireSeq n := by
  unfold wireSeq Value.i64At
  rw [h]
  rfl

private theorem fromValue_eventJson (key : String) (e : ReplayedEventRecord) :
    ReplayedEvent.fromValue (GatewayState.eventJson key e) = ⟨e.eventType, key, wireSeq e.seq, e.payload⟩ := by
  unfold ReplayedEvent.fromValue GatewayState.eventJson
  rw [i64At_of_get (n := e.seq) (by rfl)]
  rfl

/-- A reply about a session that is there, as the core decodes it. -/
theorem fromValue_eventsSince {s : GatewayState} {key : String} {record : SessionRecord}
    (h : s.sessions.lookup key = some record) (asked : Int) :
    EventsSince.fromValue (s.eventsSince key asked) =
      { events := (record.events.filter fun e => asked < e.seq).map fun e =>
          ⟨e.eventType, key, wireSeq e.seq, e.payload⟩
        latestSeq := wireSeq record.seq
        truncated := false
        epoch := s.epoch } := by
  unfold GatewayState.eventsSince EventsSince.fromValue
  rw [h]
  dsimp only
  rw [i64At_of_get (n := record.seq) (by rfl)]
  simp [Value.get, Value.asArray, List.lookup_cons, Value.boolAt, Value.asBool, Value.strAt, Value.asStr,
    fromValue_eventJson, Function.comp_def]

/-- The log that the events of the sessions make up. -/
def GatewayState.log (s : GatewayState) : EventLog := fun _ key n =>
  match (s.sessions.lookup key).bind fun record => record.events[n - 1]? with
  | some e => (e.eventType, e.payload)
  | none => ("", .null)

/-- The session is there, with these events and maybe more. -/
def GatewayState.Extends (s : GatewayState) (key : String) (events : List ReplayedEventRecord) : Prop :=
  ∃ record, s.sessions.lookup key = some record ∧ events <+: record.events

theorem GatewayState.Extends.log {s : GatewayState} {key : String} {events : List ReplayedEventRecord}
    (h : s.Extends key events) {n : Nat} {e : ReplayedEventRecord} (he : events[n]? = some e) (epoch : String) :
    s.log epoch key (n + 1) = (e.eventType, e.payload) := by
  obtain ⟨record, hrecord, hprefix⟩ := h
  obtain ⟨hlt, -⟩ := List.getElem?_eq_some_iff.1 he
  obtain ⟨more, hmore⟩ := hprefix
  have hsame : record.events[n]? = some e := by rw [← hmore, List.getElem?_append_left hlt, he]
  unfold GatewayState.log
  rw [hrecord]
  dsimp only [Option.bind_some]
  rw [Nat.add_sub_cancel, hsame]

/-- A reply answers from the log of a later state. -/
theorem answers_eventsSince {s later : GatewayState} {key : String} (hnumbered : s.AllNumbered)
    (hextends : ∀ record, s.sessions.lookup key = some record → later.Extends key record.events)
    (hbound : ∀ record, later.sessions.lookup key = some record → (record.events.length : Int) ≤ i64Max)
    (epoch : String) (asked : Int) :
    later.log.Answers epoch key asked (EventsSince.fromValue (s.eventsSince key asked)) := by
  cases hrecord : s.sessions.lookup key with
  | none =>
    have htruncated : (EventsSince.fromValue (s.eventsSince key asked)).truncated = true := by
      unfold GatewayState.eventsSince
      rw [hrecord]
      rfl
    have hempty : (EventsSince.fromValue (s.eventsSince key asked)).events = [] := by
      unfold GatewayState.eventsSince
      rw [hrecord]
      rfl
    unfold EventLog.Answers
    rw [if_pos htruncated]
    exact ⟨0, 0, hempty⟩
  | some record =>
    have hnum := hnumbered key record hrecord
    have hlater := hextends record hrecord
    obtain ⟨record', hrecord', hprefix⟩ := hlater
    have hlength : (record.events.length : Int) ≤ i64Max := by
      have hle := hprefix.length_le
      have hmax := hbound record' hrecord'
      omega
    rw [fromValue_eventsSince hrecord, hnum.above]
    unfold EventLog.Answers
    rw [if_neg (by simp)]
    refine ⟨record.seq, ?_, wireSeq_eq (hnum.seq ▸ hlength)⟩
    dsimp only
    unfold EventLog.since
    rw [hnum.seq]
    refine List.ext_getElem? fun i => ?_
    rw [List.getElem?_map, List.getElem?_map, List.getElem?_drop]
    cases he : record.events[asked.toNat + i]? with
    | none =>
      have hle := List.getElem?_eq_none_iff.1 he
      rw [List.getElem?_eq_none (by simp; omega)]
      rfl
    | some e =>
      obtain ⟨hlt, -⟩ := List.getElem?_eq_some_iff.1 he
      have hseq := hnum.seq_of_getElem he
      have hlog := (hextends record hrecord).log he epoch
      have hi : i < record.events.length - asked.toNat := by omega
      have hindex : asked.toNat + 1 + 1 * i = asked.toNat + i + 1 := by omega
      rw [List.getElem?_range' hi, Option.map_some, Option.map_some, hindex, hlog, hseq, wireSeq_eq (by omega)]

/-! ### The frames -/

/-- The lines a handler is about to send. -/
def Job.lines : Job → List Value
  | .sending lines => lines
  | _ => []

/-- The lines a task is about to send. -/
def Task.lines : Task → List Value
  | .connection c => c.job.lines
  | .turn t =>
    match t.point with
    | .recorded frame _ => [frame]
    | _ => []
  | .delayed _ frame => [frame]
  | _ => []

/-- The line went out or is on a channel. -/
def GatewayState.Carries (s : GatewayState) (line : Value) : Prop :=
  (∃ channel, (channel, line) ∈ s.wire) ∨ ∃ channel lines, s.channels.lookup channel = some lines ∧ line ∈ lines

namespace GatewayState

theorem Carries.of_eq {s s' : GatewayState} {line : Value} (h : s'.Carries line) (hwire : s'.wire = s.wire)
    (hchannels : s'.channels = s.channels) : s.Carries line := by
  unfold Carries at h ⊢
  rwa [hwire, hchannels] at h

theorem carries_send {s : GatewayState} {channel : Nat} {out line : Value} (h : (s.send channel out).Carries line) :
    s.Carries line ∨ line = out := by
  unfold send at h
  split at h
  · rename_i waiting hwaiting
    rcases h with ⟨c, hc⟩ | ⟨c, lines, hc, hline⟩
    · exact .inl (.inl ⟨c, hc⟩)
    · dsimp only at hc
      rw [lookup_put] at hc
      split at hc
      · cases hc
        rcases List.mem_append.1 hline with hline | hline
        · exact .inl (.inr ⟨channel, waiting, hwaiting, hline⟩)
        · exact .inr (List.mem_singleton.1 hline)
      · exact .inl (.inr ⟨c, lines, hc, hline⟩)
  · exact .inl h

theorem carries_pop {s : GatewayState} {channel : Nat} {out line : Value} {waiting : List Value}
    (hchannel : s.channels.lookup channel = some (out :: waiting))
    (h : ({ s with channels := put channel waiting s.channels } : GatewayState).Carries line) : s.Carries line := by
  rcases h with hwire | ⟨c, lines, hc, hline⟩
  · exact .inl hwire
  · dsimp only at hc
    rw [lookup_put] at hc
    split at hc
    · cases hc
      exact .inr ⟨channel, _, hchannel, List.mem_cons_of_mem _ hline⟩
    · exact .inr ⟨c, lines, hc, hline⟩

theorem carries_hangUp {s : GatewayState} {channel : Nat} {line : Value} (h : (s.hangUp channel).Carries line) :
    s.Carries line := by
  rcases h with hwire | ⟨c, lines, hc, hline⟩
  · exact .inl hwire
  · by_cases heq : c = channel
    · subst heq
      dsimp only [hangUp] at hc
      rw [AList.lookup_erase] at hc
      cases hc
    · dsimp only [hangUp] at hc
      rw [AList.lookup_erase_ne heq] at hc
      exact .inr ⟨c, lines, hc, hline⟩

theorem carries_sendOut {s : GatewayState} {c : Connection} {out line : Value} {delivered : Bool}
    (h : (s.sendOut c out delivered).1.Carries line) : s.Carries line ∨ line = out := by
  have hsent : ({ s with wire := s.wire ++ [(c.channel, out)] } : GatewayState).Carries line →
      s.Carries line ∨ line = out := by
    rintro (⟨channel, hmem⟩ | hwaiting)
    · rcases List.mem_append.1 hmem with hmem | hmem
      · exact .inl (.inl ⟨channel, hmem⟩)
      · cases List.mem_singleton.1 hmem
        exact .inr rfl
    · exact .inl (.inr hwaiting)
  unfold sendOut at h
  split at h
  · rcases shouldDrop_eq { s with wire := s.wire ++ [(c.channel, out)] } c.sent with heq | ⟨heq, -⟩
    · rw [heq] at h
      exact hsent h
    · rw [heq] at h
      exact hsent (carries_hangUp h)
  · exact .inl (carries_hangUp h)

theorem lines_sendOut {s : GatewayState} {c : Connection} {out line : Value} {delivered : Bool}
    (hjob : c.job = .sending []) (hline : (s.sendOut c out delivered).1.Carries line ∨
      line ∈ (s.sendOut c out delivered).2.lines) : s.Carries line ∨ line = out := by
  rcases hline with hline | hline
  · exact carries_sendOut hline
  · have hnone : (s.sendOut c out delivered).2.lines = [] := by
      unfold sendOut
      split
      · dsimp only
        split
        · rfl
        · unfold Task.lines
          dsimp only
          rw [hjob]
          rfl
      · rfl
    rw [hnone] at hline
    cases hline

@[simp] theorem wire_entry (s : GatewayState) (key now : String) : (s.entry key now).1.wire = s.wire := by
  unfold entry
  split <;> rfl

@[simp] theorem channels_entry (s : GatewayState) (key now : String) :
    (s.entry key now).1.channels = s.channels := by
  unfold entry
  split <;> rfl

theorem carries_entry {s : GatewayState} {key now : String} {line : Value} (h : (s.entry key now).1.Carries line) :
    s.Carries line := h.of_eq (wire_entry _ _ _) (channels_entry _ _ _)

end GatewayState

theorem isObject_of_get {value v : Value} {key : String} (h : value.get key = some v) : value.isObject = true := by
  cases value with
  | object => rfl
  | _ => cases h

theorem isObject_setField {value : Value} (h : value.isObject = true) (key : String) (v : Value) :
    (value.setField key v).isObject = true := by
  cases value with
  | object => rfl
  | _ => cases h

/-- The fields of rewritten `params`. -/
theorem get_rewriteParams {params : Value} (h : params.isObject = true) (sessionId : String) (seq : Int) (k : String) :
    (rewriteParams params sessionId seq).get k =
      if k = "seq" then (params.get "seq").map fun _ => .number (.int seq)
      else if k = "session_id" then some (.string sessionId) else params.get k := by
  have hset := isObject_setField h "session_id" (.string sessionId)
  have hseq : (params.setField "session_id" (.string sessionId)).get "seq" = params.get "seq" := by
    rw [Value.get_setField h, if_neg (by decide)]
  unfold rewriteParams
  dsimp only
  rw [hseq]
  cases hget : params.get "seq" with
  | none =>
    rw [if_neg (by simp), Value.get_setField h]
    by_cases hk : k = "seq"
    · subst hk
      rw [if_pos rfl, if_neg (by decide)]
      exact hget
    · rw [if_neg hk]
  | some old =>
    rw [if_pos Option.isSome_some, Value.get_setField hset, Value.get_setField h]
    rfl

section

variable [JsonReader]

/-- The line is no numbered event. -/
def Silent (line : Value) : Prop := ∀ ev, Rpc.decodeValue line = .event ev → ev.seq = none

/-- The line, if it is an event, is `e` of the session. -/
def Announces (line : Value) (key : String) (e : ReplayedEventRecord) : Prop :=
  ∀ ev, Rpc.decodeValue line = .event ev →
    ev.sessionId = key ∧ ev.eventType = e.eventType ∧ ev.payload = e.payload ∧
      ∀ seq, ev.seq = some seq → seq = wireSeq e.seq

theorem decodeValue_event {line : Value} {ev : EventParams} (h : Rpc.decodeValue line = .event ev) :
    ev = Rpc.decodeEvent line := by
  unfold Rpc.decodeValue at h
  split at h
  · cases h
  · split at h
    · cases h
      rfl
    · split at h
      · cases h
      · split at h
        · cases h
        · split at h <;> cases h

theorem silent_replyOk (id result : Value) : Silent (replyOk id result) := by
  intro ev hev
  rw [decodeValue_event hev]
  rfl

theorem silent_replyErr (id : Value) (code : Int) (message : String) : Silent (replyErr id code message) := by
  intro ev hev
  rw [decodeValue_event hev]
  rfl

theorem silent_readyFrame (s : GatewayState) : Silent s.readyFrame := by
  intro ev hev
  rw [decodeValue_event hev]
  rfl

theorem announces_eventFrame (eventType key : String) (seq : Nat) (payload : Value) :
    Announces (eventFrame eventType key seq payload) key ⟨seq, eventType, payload⟩ := by
  intro ev hev
  rw [decodeValue_event hev]
  refine ⟨rfl, rfl, rfl, ?_⟩
  intro n hn
  have hseq : some (wireSeq seq) = some n := hn
  exact (Option.some_inj.1 hseq).symm

/-- A recorded frame that is sent again. -/
theorem announces_rewrite (frame : Value) (key : String) (seq : Nat) :
    Silent (rewrite frame key seq) ∨
      Announces (rewrite frame key seq) key ⟨seq, (typeOf frame).getD "", payloadOf frame⟩ := by
  unfold rewrite
  cases hparams : frame.get "params" with
  | none =>
    refine .inl fun ev hev => ?_
    rw [decodeValue_event hev]
    unfold Rpc.decodeEvent Rpc.seqOf
    rw [hparams]
    rfl
  | some params =>
    dsimp only
    by_cases hobject : params.isObject = true
    · rw [if_pos hobject]
      refine .inr fun ev hev => ?_
      rw [decodeValue_event hev]
      have hget : (frame.setField "params" (rewriteParams params key seq)).get "params" =
          some (rewriteParams params key seq) := by
        rw [Value.get_setField (isObject_of_get hparams), if_pos rfl]
      unfold Rpc.decodeEvent typeOf payloadOf Value.strAt
      rw [hget, hparams]
      dsimp only [Option.getD_some, Option.bind_some]
      rw [get_rewriteParams hobject, get_rewriteParams hobject, get_rewriteParams hobject]
      refine ⟨rfl, rfl, rfl, ?_⟩
      intro n hn
      have hnumber : ∀ v, (rewriteParams params key seq).get "seq" = some v → v = .number (.int seq) := by
        intro v hv
        rw [get_rewriteParams hobject, if_pos rfl] at hv
        obtain ⟨old, -, rfl⟩ := Option.map_eq_some_iff.1 hv
        rfl
      unfold Rpc.seqOf at hn
      split at hn
      · rename_i m hm
        cases hnumber _ hm
        cases hn
        exact i64At_of_get hm
      · cases hn
    · rw [if_neg hobject]
      refine .inl fun ev hev => ?_
      rw [decodeValue_event hev]
      unfold Rpc.decodeEvent Rpc.seqOf
      rw [hparams]
      dsimp only [Option.getD_some]
      cases params with
      | object => cases hobject rfl
      | _ => rfl

/-- A line that came up in the step to this state. -/
def GatewayState.Fresh (s : GatewayState) (line : Value) : Prop :=
  Silent line ∨ ∃ key record e, s.sessions.lookup key = some record ∧ e ∈ record.events ∧ Announces line key e

namespace GatewayState

theorem fresh_push {s : GatewayState} {key eventType : String} {record : SessionRecord} {payload line : Value}
    (h : Announces line key ⟨record.seq + 1, eventType, payload⟩) :
    (s.setRecord key (record.push eventType payload)).Fresh line := by
  refine .inr ⟨key, record.push eventType payload, _, ?_, ?_, h⟩
  · rw [lookup_setRecord, if_pos rfl]
  · exact List.mem_append_right _ (List.mem_singleton_self _)

theorem fresh_replyOk {s : GatewayState} {id result line : Value} (h : line ∈ [replyOk id result]) : s.Fresh line := by
  rw [List.mem_singleton.1 h]
  exact .inl (silent_replyOk id result)

theorem lines_close {s : GatewayState} {id params line : Value}
    (h : (s.handleSessionClose id params).1.Carries line ∨ line ∈ (s.handleSessionClose id params).2.lines) :
    s.Carries line ∨ (s.handleSessionClose id params).1.Fresh line := by
  unfold handleSessionClose at h ⊢
  dsimp only at h ⊢
  split at h
  · exact h.imp (fun h => h.of_eq rfl rfl) fresh_replyOk
  · exact h.imp (fun h => h) fresh_replyOk

theorem lines_interrupt {s : GatewayState} {id params line : Value}
    (h : (s.handleSessionInterrupt id params).1.Carries line ∨ line ∈ (s.handleSessionInterrupt id params).2.lines) :
    s.Carries line ∨ (s.handleSessionInterrupt id params).1.Fresh line := by
  unfold handleSessionInterrupt at h ⊢
  dsimp only at h ⊢
  cases hrecord : s.sessions.lookup (params.strAt "session_id") with
  | none =>
    rw [hrecord] at h
    exact h.imp (fun h => h) fresh_replyOk
  | some record =>
    rw [hrecord] at h
    dsimp only at h ⊢
    split at h
    · rename_i hrunning
      rw [if_pos hrunning]
      refine h.imp (fun h => h.of_eq rfl rfl) fun hline => ?_
      rcases List.mem_cons.1 hline with rfl | hline
      · exact fresh_push (announces_eventFrame _ _ _ _)
      · exact fresh_replyOk hline
    · exact h.imp (fun h => h) fresh_replyOk

theorem lines_submit {s : GatewayState} {now : String} {id params line : Value}
    (h : (s.handlePromptSubmit now id params).1.Carries line ∨ line ∈ (s.handlePromptSubmit now id params).2.lines) :
    s.Carries line ∨ (s.handlePromptSubmit now id params).1.Fresh line := by
  unfold handlePromptSubmit at h ⊢
  dsimp only at h ⊢
  split at h
  · exact h.imp carries_entry fresh_replyOk
  · exact h.elim (fun h => .inl (carries_entry h)) nofun

/-- The first step of a handler. -/
theorem lines_handleRpcLine {s : GatewayState} {channel : Nat} {now : String} {keys : List String} {rpc : String}
    {line : Value} (h : (s.handleRpcLine channel now keys rpc).1.Carries line ∨
      line ∈ (s.handleRpcLine channel now keys rpc).2.lines) :
    s.Carries line ∨ (s.handleRpcLine channel now keys rpc).1.Fresh line := by
  have hone {s' : GatewayState} {out : Value} (hsilent : Silent out) (h : s.Carries line ∨ line ∈ [out]) :
      s.Carries line ∨ s'.Fresh line := by
    rcases h with h | h
    · exact .inl h
    · rw [List.mem_singleton.1 h]
      exact .inr (.inl hsilent)
  have hsend {s₁ s' : GatewayState} {out : Value} (hsilent : Silent out)
      (hs₁ : s₁.Carries line → s.Carries line) (h : (s₁.send channel out).Carries line ∨ line ∈ []) :
      s.Carries line ∨ s'.Fresh line := by
    rcases h with h | h
    · rcases carries_send h with h | rfl
      · exact .inl (hs₁ h)
      · exact .inr (.inl hsilent)
    · cases h
  unfold handleRpcLine at h ⊢
  cases hvalue : fromStr rpc with
  | none =>
    rw [hvalue] at h
    exact h.elim .inl nofun
  | some value =>
    rw [hvalue] at h
    dsimp only at h ⊢
    generalize (value.get "id").getD .null = id at h ⊢
    generalize (value.get "params").getD .null = params at h ⊢
    cases hmethod : Method.parse (value.strAt "method") with
    | sessionCreate =>
      rw [hmethod] at h
      exact h.elim .inl nofun
    | sessionList =>
      rw [hmethod] at h
      exact hsend (silent_replyOk _ _) (fun h => h) h
    | sessionMostRecent =>
      rw [hmethod] at h
      exact hsend (silent_replyOk _ _) (fun h => h) h
    | sessionResume =>
      rw [hmethod] at h
      exact hsend (silent_replyOk _ _) carries_entry h
    | sessionEventsSince =>
      rw [hmethod] at h
      exact hsend (silent_replyOk _ _) (fun h => h) h
    | sessionTitle =>
      rw [hmethod] at h
      exact hone (silent_replyOk _ _) (h.imp_left carries_entry)
    | sessionClose =>
      rw [hmethod] at h
      exact lines_close h
    | sessionInterrupt =>
      rw [hmethod] at h
      exact lines_interrupt h
    | promptSubmit =>
      rw [hmethod] at h
      exact lines_submit h
    | slashExec =>
      rw [hmethod] at h
      refine hone ?_ h
      unfold handleSlashExec
      dsimp only
      split
      · exact silent_replyErr _ _ _
      · exact silent_replyOk _ _
    | unknown =>
      rw [hmethod] at h
      exact hone (silent_replyErr _ _ _) h
    | _ =>
      rw [hmethod] at h
      exact hone (silent_replyOk _ _) h

/-- The later steps of a handler. -/
theorem lines_runJob [Lowercase] {s s' : GatewayState} {channel : Nat} {now : String} {job job' : Job}
    {spawned : List Task} (h : s.runJob channel now job = some (s', job', spawned)) {line : Value}
    (hline : s'.Carries line ∨ line ∈ job'.lines ∨ ∃ u ∈ spawned, line ∈ u.lines) :
    s.Carries line ∨ line ∈ job.lines ∨ s'.Fresh line := by
  unfold runJob at h
  split at h
  · cases h
  · cases h
    rcases hline with hline | hline | ⟨u, hu, -⟩
    · rcases carries_send hline with hline | rfl
      · exact .inl hline
      · exact .inr (.inl List.mem_cons_self)
    · exact .inr (.inl (List.mem_cons_of_mem _ hline))
    · cases hu
  · cases h
    exact hline.elim .inl (fun h => h.elim nofun nofun)
  · cases h
    exact hline.elim .inl (fun h => h.elim nofun nofun)
  · rename_i id profile title sessionId
    cases h
    rcases hline with hline | hline | ⟨u, hu, -⟩
    · rcases carries_send hline with hline | rfl
      · exact .inl hline
      · exact .inr (.inr (.inl (silent_replyOk _ _)))
    · split at hline <;> cases hline
    · cases hu
  · dsimp only at h
    split at h
    · cases h
      exact hline.elim .inl (fun h => h.elim nofun nofun)
    · rename_i hpush
      cases h
      obtain ⟨record, -, rfl, rfl⟩ := nextSeqAndRecord_eq hpush
      rcases hline with hline | hline | ⟨u, hu, hline⟩
      · exact .inl hline
      · cases hline
      · rw [List.mem_singleton.1 hu] at hline
        rw [List.mem_singleton.1 hline]
        exact .inr (.inr (fresh_push (announces_eventFrame _ _ _ _)))
  · cases h
    rcases hline with hline | hline | ⟨u, hu, hline⟩
    · rcases carries_send (hline.of_eq rfl rfl) with hline | rfl
      · exact .inl hline
      · exact .inr (.inr (.inl (silent_replyOk _ _)))
    · cases hline
    · rw [List.mem_singleton.1 hu] at hline
      cases hline
  · split at h <;> cases h <;> exact hline.elim .inl (fun h => h.elim nofun nofun)

theorem lines_nextTurnStep {s : GatewayState} {t : Turn} {line : Value}
    (hline : (s.nextTurnStep t).1.Carries line ∨ line ∈ (s.nextTurnStep t).2.lines) :
    s.Carries line ∨ line ∈ (Task.turn t).lines ∨ (s.nextTurnStep t).1.Fresh line := by
  unfold nextTurnStep at hline ⊢
  split at hline
  · split at hline
    · exact hline.elim .inl fun h => absurd h List.not_mem_nil
    · split at hline <;> exact hline.elim .inl fun h => absurd h List.not_mem_nil
  · rename_i frame frames hpoint
    cases hpush : s.nextSeqAndRecord t.sessionId ((typeOf frame).getD "") (payloadOf frame) with
    | none =>
      rw [hpush] at hline
      exact hline.elim .inl fun h => absurd h List.not_mem_nil
    | some result =>
      obtain ⟨s', seq⟩ := result
      rw [hpush] at hline
      obtain ⟨record, -, rfl, rfl⟩ := nextSeqAndRecord_eq hpush
      rcases hline with hline | hline
      · exact .inl hline
      · rw [List.mem_singleton.1 hline]
        refine .inr (.inr ?_)
        rcases announces_rewrite frame t.sessionId (record.seq + 1) with hsilent | hannounces
        · exact .inl hsilent
        · exact fresh_push hannounces
  · rename_i frame frames hpoint
    rcases hline with hline | hline
    · rcases carries_send hline with hline | rfl
      · exact .inl hline
      · refine .inr (.inl ?_)
        unfold Task.lines
        dsimp only
        rw [hpoint]
        exact List.mem_singleton_self _
    · cases hline
  · split at hline <;> exact hline.elim .inl fun h => absurd h List.not_mem_nil

theorem carries_routeHttp {s : GatewayState} {request : HttpRequest} {line : Value}
    (h : (s.routeHttp request).1.Carries line ∨ line ∈ (s.routeHttp request).2.lines) : s.Carries line := by
  unfold routeHttp at h
  cases hroute : Route.parse request.method request.path with
  | wsTicket =>
    rw [hroute] at h
    dsimp only at h
    split at h <;> exact h.elim (fun h => h.of_eq rfl rfl) nofun
  | me =>
    rw [hroute] at h
    dsimp only at h
    split at h <;> exact h.elim (fun h => h) nofun
  | profiles =>
    rw [hroute] at h
    unfold takeProfileFailure at h
    dsimp only at h
    by_cases hleft : s.profileFailuresLeft = 0
    · rw [if_pos hleft] at h
      dsimp only at h
      rw [if_neg (by simp)] at h
      split at h <;> exact h.elim (fun h => h) nofun
    · rw [if_neg hleft] at h
      exact h.elim (fun h => h.of_eq rfl rfl) nofun
  | _ =>
    rw [hroute] at h
    exact h.elim (fun h => h) nofun

/-- The lines behind a step of a task are those before it and those that came up in it. -/
theorem Next.lines [Lowercase] {s s' : GatewayState} {t t' : Task} {spawned : List Task}
    (h : Next s t s' t' spawned) {line : Value}
    (hline : s'.Carries line ∨ line ∈ t'.lines ∨ ∃ u ∈ spawned, line ∈ u.lines) :
    s.Carries line ∨ line ∈ t.lines ∨ s'.Fresh line := by
  have hnone {p : Prop} (h : p ∨ ∃ u ∈ ([] : List Task), line ∈ u.lines) : p := h.resolve_right (by simp)
  cases h with
  | http request => exact .inl (carries_routeHttp (hline.imp_right hnone))
  | minting request number => exact hline.elim (fun h => .inl (h.of_eq rfl rfl)) (fun h => h.elim nofun nofun)
  | upgrade query =>
    rcases s.acceptWs_eq query with heq | ⟨ticket, -, -, heq⟩
    · rw [heq] at hline
      exact hline.elim .inl (fun h => h.elim nofun nofun)
    · rw [heq] at hline
      refine hline.elim (fun h => .inl ?_) (fun h => h.elim nofun nofun)
      rcases h with hwire | ⟨channel, lines, hchannel, hmem⟩
      · exact .inl hwire
      · dsimp only at hchannel
        rw [lookup_put] at hchannel
        split at hchannel
        · cases hchannel
          cases hmem
        · exact .inr ⟨channel, lines, hchannel, hmem⟩
  | greeting ticket channel delivered =>
    rcases lines_sendOut rfl (hline.imp_right hnone) with hcarries | rfl
    · exact .inl hcarries
    · exact .inr (.inr (.inl (silent_readyFrame s)))
  | handle c now keys hjob hlines hkeys => exact (lines_handleRpcLine (hline.imp_right hnone)).imp_right .inr
  | job c hrun => exact lines_runJob hrun hline
  | outgoing c delivered hjob hlines hchannel =>
    have hsent := lines_sendOut (c := { c with sent := c.sent + 1 }) hjob (hline.imp_right hnone)
    rcases hsent with hcarries | rfl
    · exact .inl (carries_pop hchannel hcarries)
    · exact .inl (.inr ⟨c.channel, _, hchannel, List.mem_cons_self⟩)
  | text c frame hjob hlines => exact hline.imp_right fun h => .inl (hnone h)
  | close c hjob hlines => exact hline.elim (fun h => .inl (carries_hangUp h)) (fun h => h.elim nofun nofun)
  | turn t => exact lines_nextTurnStep (hline.imp_right hnone)
  | delayed channel frame =>
    rcases hline with hline | hline
    · rcases carries_send hline with hcarries | rfl
      · exact .inl hcarries
      · exact .inr (.inl (List.mem_singleton_self _))
    · exact hline.elim nofun nofun

end GatewayState

/-! ### The promises -/

/-- The line, if it is a numbered event of the session, is a recorded one. -/
def GatewayState.Vouches (s : GatewayState) (key : String) (line : Value) : Prop :=
  (∀ ev, Rpc.decodeValue line = .event ev → ev.sessionId = key → ev.seq = none) ∨
    ∃ record e, s.sessions.lookup key = some record ∧ e ∈ record.events ∧ Announces line key e

theorem GatewayState.Fresh.vouches {s : GatewayState} {line : Value} (h : s.Fresh line) (key : String) :
    s.Vouches key line := by
  rcases h with hsilent | ⟨key', record, e, hrecord, he, hannounces⟩
  · exact .inl fun ev hev _ => hsilent ev hev
  · by_cases hk : key' = key
    · subst hk
      exact .inr ⟨record, e, hrecord, he, hannounces⟩
    · exact .inl fun ev hev hkey => absurd ((hannounces ev hev).1.symm.trans hkey) hk

theorem GatewayState.Vouches.extends {s s' : GatewayState} {key : String} {line : Value} (h : s.Vouches key line)
    (hs' : ∀ record, s.sessions.lookup key = some record → s'.Extends key record.events) : s'.Vouches key line := by
  rcases h with hnone | ⟨record, e, hrecord, he, hannounces⟩
  · exact .inl hnone
  · obtain ⟨record', hrecord', hprefix⟩ := hs' record hrecord
    exact .inr ⟨record', e, hrecord', hprefix.subset he, hannounces⟩

section

variable [Lowercase]

/-- The step neither closes the session nor creates another one in its place. -/
def Keeps (key : String) (g : Gateway) : Move → Prop
  | .task i _ =>
    ∀ t, g.tasks[i]? = some t →
      t.asks ≠ some (.sessionClose, key) ∧ (t.inserts.map Prod.fst = some key → key ∉ g.shared.sessions)
  | _ => True

instance (key : String) (g : Gateway) (l : Move) : Decidable (Keeps key g l) :=
  match l with
  | .task i _ =>
    decidable_of_iff (∀ t ∈ g.tasks[i]?,
      t.asks ≠ some (.sessionClose, key) ∧ (t.inserts.map Prod.fst = some key → key ∉ g.shared.sessions)) Iff.rfl
  | .start _ | .env _ => .isTrue trivial

theorem extends_step {key : String} {g g' : Gateway} {l : Move} (hkeeps : Keeps key g l)
    (hstep : program.step g l = some g') {record : SessionRecord}
    (hrecord : g.shared.sessions.lookup key = some record) : g'.shared.Extends key record.events := by
  rcases step_cases hstep with ⟨t, -, -, rfl⟩ | ⟨i, input, t, s, t', spawned, rfl, ht, hnext, rfl⟩
  · exact ⟨record, hrecord, List.prefix_rfl⟩
  · obtain ⟨hclose, hinsert⟩ := hkeeps t ht
    obtain ⟨k, hchange, hother⟩ := hnext.changesOne
    by_cases hk : key = k
    · subst hk
      rw [hrecord] at hchange
      unfold GatewayState.Extends
      dsimp only
      generalize s.sessions.lookup key = new at hchange ⊢
      cases hchange with
      | same => exact ⟨record, rfl, List.prefix_rfl⟩
      | amended before after hid horder hseq hevents => exact ⟨after, rfl, hevents ▸ List.prefix_rfl⟩
      | pushed before after eventType payload hid horder hseq hevents =>
        exact ⟨after, rfl, hevents ▸ List.prefix_append _ _⟩
      | inserted old after hid hseq hevents hinserts =>
        have hnone := AList.lookup_eq_none.2 (hinsert (congrArg _ hinserts))
        rw [hrecord] at hnone
        cases hnone
      | closed before hasks => exact absurd hasks hclose
    · exact ⟨record, (hother key hk).trans hrecord, List.prefix_rfl⟩

theorem extends_run {key : String} {g g' : Gateway} {labels : List Move}
    (hmeets : Meets program.step (Keeps key) g labels) (hrun : exec program.step g labels = some g')
    {events : List ReplayedEventRecord} (h : g.shared.Extends key events) : g'.shared.Extends key events := by
  refine Run.exec_invariant program.step (P := fun g => g.shared.Extends key events) ?_ h hmeets hrun
  intro u l u' hu hkeeps hstep
  obtain ⟨record, hrecord, hprefix⟩ := hu
  obtain ⟨record', hrecord', hprefix'⟩ := extends_step hkeeps hstep hrecord
  exact ⟨record', hrecord', hprefix.trans hprefix'⟩

/-- Every line that is under way is vouched for. -/
def AllVouched (key : String) (g : Gateway) : Prop :=
  ∀ line, (g.shared.Carries line ∨ ∃ t ∈ g.tasks, line ∈ t.lines) → g.shared.Vouches key line

theorem allVouched_step {key : String} {g g' : Gateway} {l : Move} (h : AllVouched key g) (hkeeps : Keeps key g l)
    (hstep : program.step g l = some g') : AllVouched key g' := by
  have hextends (record : SessionRecord) (hrecord : g.shared.sessions.lookup key = some record) :
      g'.shared.Extends key record.events := extends_step hkeeps hstep hrecord
  rcases step_cases hstep with ⟨t, -, hentry, rfl⟩ | ⟨i, input, t, s, t', spawned, rfl, ht, hnext, rfl⟩
  · intro line hline
    refine h line (hline.imp_right ?_)
    rintro ⟨u, hu, hmem⟩
    rcases List.mem_append.1 hu with hu | hu
    · exact ⟨u, hu, hmem⟩
    · rw [List.mem_singleton.1 hu] at hmem
      rcases entry_cases hentry with ⟨request, rfl⟩ | ⟨query, rfl⟩ <;> cases hmem
  · intro line hline
    have hmoved : g.shared.Carries line ∨ (∃ u ∈ g.tasks, line ∈ u.lines) ∨ s.Fresh line := by
      have hown (hline : s.Carries line ∨ line ∈ t'.lines ∨ ∃ u ∈ spawned, line ∈ u.lines) :
          g.shared.Carries line ∨ (∃ u ∈ g.tasks, line ∈ u.lines) ∨ s.Fresh line :=
        (hnext.lines hline).imp_right (Or.imp_left fun h => ⟨t, List.mem_of_getElem? ht, h⟩)
      rcases hline with hline | ⟨u, hu, hmem⟩
      · exact hown (.inl hline)
      · rcases Tasks.Program.mem_after hu with rfl | hu | ⟨j, -, hj⟩
        · exact hown (.inr (.inl hmem))
        · exact hown (.inr (.inr ⟨u, hu, hmem⟩))
        · exact .inr (.inl ⟨u, List.mem_of_getElem? hj, hmem⟩)
    rcases hmoved with hcarries | htask | hfresh
    · exact (h line (.inl hcarries)).extends hextends
    · exact (h line (.inr htask)).extends hextends
    · exact hfresh.vouches key

theorem allVouched_run {config : Config} {fixtures : Fixtures} {key : String} {labels : List Move} {g : Gateway}
    (hmeets : Meets program.step (Keeps key) (start config fixtures) labels)
    (hrun : exec program.step (start config fixtures) labels = some g) : AllVouched key g := by
  refine Run.exec_invariant program.step (P := AllVouched key)
    (fun g l g' h hkeeps hstep => allVouched_step h hkeeps hstep) ?_ hmeets hrun
  rintro line ((⟨channel, hmem⟩ | ⟨channel, lines, hlines, -⟩) | ⟨t, ht, -⟩)
  · cases hmem
  · cases hlines
  · cases ht

/-- A step records one event at most. -/
theorem length_step {g g' : Gateway} {l : Move} {n : Nat}
    (h : ∀ key record, g.shared.sessions.lookup key = some record → record.events.length ≤ n)
    (hstep : program.step g l = some g') :
    ∀ key record, g'.shared.sessions.lookup key = some record → record.events.length ≤ n + 1 := by
  intro key record hrecord
  rcases step_cases hstep with ⟨t, -, -, rfl⟩ | ⟨i, input, t, s, t', spawned, rfl, ht, hnext, rfl⟩
  · exact Nat.le_succ_of_le (h key record hrecord)
  · obtain ⟨k, hchange, hother⟩ := hnext.changesOne
    by_cases hk : key = k
    · subst hk
      rw [hrecord] at hchange
      generalize hold : g.shared.sessions.lookup key = old at hchange
      cases hchange with
      | same => exact Nat.le_succ_of_le (h key record hold)
      | amended before after hid horder hseq hevents =>
        rw [hevents]
        exact Nat.le_succ_of_le (h key before hold)
      | pushed before after eventType payload hid horder hseq hevents =>
        rw [hevents, List.length_append]
        exact Nat.succ_le_succ (h key before hold)
      | named after hid horder hcounter hseq hevents =>
        rw [hevents]
        exact Nat.zero_le _
      | inserted old after hid hseq hevents =>
        rw [hevents]
        exact Nat.zero_le _
    · rw [hother key hk] at hrecord
      exact Nat.le_succ_of_le (h key record hrecord)

theorem length_run {config : Config} {fixtures : Fixtures} {labels : List Move} {g : Gateway}
    (hrun : exec program.step (start config fixtures) labels = some g) :
    ∀ key record, g.shared.sessions.lookup key = some record → record.events.length ≤ labels.length := by
  refine Run.exec_history program.step (P := fun labels g => ∀ key record, g.shared.sessions.lookup key = some record →
    record.events.length ≤ labels.length) ?_ ?_ hrun
  · intro key record hrecord
    cases hrecord
  · intro before t l t' _ ht hstep
    rw [List.length_append, List.length_singleton]
    exact length_step ht hstep

/-- The `session.events.since` call the supervisor of the core awaits. -/
def awaitedSince : Supervisor → Option (String × Int)
  | .asking key record _ _ => some (key, record.lastSeenSeq)
  | .catchUpCall key lastSeen _ => some (key, lastSeen)
  | _ => none

/-- One log accounts for whatever a core hears about the session, in every state of the run: the frames that went out
and the replies to its `session.events.since` calls. -/
def Accounted (config : Config) (fixtures : Fixtures) (key : String) (labels : List Move) : Prop :=
  ∃ log : EventLog, ∀ before t, before <+: labels → exec program.step (start config fixtures) before = some t →
    ∀ (w : World) (snapshot : Snapshot),
      (∀ channel line ev, (channel, line) ∈ t.shared.wire → Rpc.decodeValue line = .event ev → ev.sessionId = key →
        w.FromGateway log id ⟨.live ev, snapshot⟩) ∧
      ∀ asked, awaitedSince w.sys.supervisor = some (key, asked) →
        w.FromGateway log id ⟨.sinceReply (some (EventsSince.fromValue (t.shared.eventsSince key asked))), snapshot⟩

/-- As long as a session is neither closed nor replaced, the fake gateway keeps the promises about it that the core
relies on, whatever requests, turns and connections run beside each other. -/
theorem promises_kept (config : Config) (fixtures : Fixtures) (key : String) (labels : List Move)
    (hkeeps : Meets program.step (Keeps key) (start config fixtures) labels)
    (hrun : (exec program.step (start config fixtures) labels).isSome) (hlength : (labels.length : Int) ≤ i64Max) :
    Accounted config fixtures key labels := by
  obtain ⟨g, hg⟩ := Option.isSome_iff_exists.1 hrun
  have hbound : ∀ record, g.shared.sessions.lookup key = some record → (record.events.length : Int) ≤ i64Max := by
    intro record hrecord
    have hle := length_run hg key record hrecord
    omega
  refine ⟨g.shared.log, ?_⟩
  rintro before t ⟨rest, rfl⟩ ht w snapshot
  have hnumbered := allNumbered_run ht
  have hrest : exec program.step t rest = some g := by
    rwa [Run.exec_append, ht, Option.bind_some] at hg
  have hextends : ∀ record, t.shared.sessions.lookup key = some record → g.shared.Extends key record.events :=
    fun record hrecord => extends_run (hkeeps.behind _ ht) hrest ⟨record, hrecord, List.prefix_rfl⟩
  constructor
  · intro channel line ev hwire hev hkey seq hseq
    rcases allVouched_run hkeeps.upTo ht line (.inl (.inl ⟨channel, hwire⟩)) with hnone | ⟨record, e, hrecord, he, hann⟩
    · rw [hnone ev hev hkey] at hseq
      cases hseq
    · obtain ⟨hsid, htype, hpayload, hnumber⟩ := hann ev hev
      obtain ⟨n, hn⟩ := List.mem_iff_getElem?.1 he
      have hen := (hnumbered key record hrecord).seq_of_getElem hn
      have hlog := (hextends record hrecord).log hn w.sys.freshEpoch
      have hle : ((n + 1 : Nat) : Int) ≤ i64Max := by
        obtain ⟨record', hrecord', hprefix⟩ := hextends record hrecord
        obtain ⟨hlt, -⟩ := List.getElem?_eq_some_iff.1 hn
        have hle := hprefix.length_le
        have hmax := hbound record' hrecord'
        omega
      refine ⟨n + 1, Nat.succ_le_succ (Nat.zero_le n), ?_, ?_⟩
      · rw [hseq, hnumber seq hseq, hen, wireSeq_eq hle]
      · rw [htype, hpayload]
        exact (hkey ▸ hlog).symm
  · intro asked hawaited
    have hanswers := answers_eventsSince hnumbered hextends hbound w.sys.freshEpoch asked
    unfold World.FromGateway
    cases hsupervisor : w.sys.supervisor with
    | asking k record reply remaining =>
      rw [hsupervisor] at hawaited
      cases hawaited
      exact ⟨rfl, hanswers⟩
    | catchUpCall k lastSeen remaining =>
      rw [hsupervisor] at hawaited
      cases hawaited
      exact ⟨rfl, hanswers⟩
    | _ => trivial

end

end

section

attribute [local instance] JsonReader.compact Lowercase.ascii

/-- A recording with one frame in its plain turn. -/
private def oneFrame : Fixtures :=
  { scenarios := fun _ => some [.object [("jsonrpc", .string "2.0"), ("method", .string "event"),
      ("params", .object [("type", .string "message.complete"), ("seq", .number (.int 7))])]]
    ready := .object [("replay_epoch", .string "e1")]
    sessionInfo := none }

private def submitLine : String :=
  "\x7b\"id\":1,\"method\":\"prompt.submit\",\"params\":\x7b\"session_id\":\"chat\",\"text\":\"hi\"\x7d\x7d"

private def go : Input := .go "0" []

/-- A ticket, a connection that submits a prompt, and the turn up to its frame on the wire. -/
private def oneTurn : List Move :=
  [.start (.http ⟨"POST", "/api/auth/ws-ticket", "hermes_session_at=a", ""⟩), .task 0 go, .task 0 go,
    .start (.upgrade (some "ticket=fake-ticket-1")), .task 1 go, .task 1 (.sent true), .task 1 (.text submitLine),
    .task 1 go, .task 1 go, .task 1 (.go "0" ["chat"]), .task 2 go, .task 2 go, .task 2 go, .task 1 (.sent true),
    .task 1 (.sent true)]

theorem promises_kept_turn : Accounted ⟨"user", "secret", 0, none⟩ oneFrame "chat" oneTurn :=
  promises_kept ⟨"user", "secret", 0, none⟩ oneFrame "chat" oneTurn (by decide +kernel) (by decide +kernel) (by decide)

end

end Hermo.FakeGateway
