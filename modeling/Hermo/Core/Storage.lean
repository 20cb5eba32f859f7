import Hermo.Core.Action
import Hermo.Library.Tasks
import Hermo.RegistryFile

/-!
# The registry and its file

The lock sections of the core over `sessions.json` and the flag `registry_dirty`.  `open_session`, `close_session` and
`clear_sessions` save under the lock they change the registry in; a routed event raises the flag after its lock
section, `flush_registry` lowers it before it saves, and `forget_gateway` removes the file before it empties the
registry.  The remaining lock sections neither save nor raise the flag.  Whether a write or a removal succeeds is an
input.
-/

namespace Hermo

open Run

/-- The numbers an action brings are `i64`s. -/
def Action.Typed : Action → Prop
  | .deliver ev => ∀ seq, ev.seq = some seq → IsI64 seq
  | .openSession _ _ cols => IsI64 cols
  | .touch _ seq _ => IsI64 seq
  | _ => True

instance (a : Action) : Decidable a.Typed := by
  cases a <;> unfold Action.Typed <;> infer_instance

/-- The lock sections of `resume_all`, of the supervisor and of `send`, `respond_approval` and `respond_clarify`: no
file is written behind them. -/
def Action.unsaved : Action → Bool
  | .deliver _ | .openSession _ _ _ | .closeSession _ | .clearSessions | .forgetGateway => false
  | _ => true

/-- The action can change the registry. -/
def Action.writesRegistry : Action → Bool
  | .repointLiveSid _ _ | .reemitCard _ _ | .appendUserRow _ _ _ | .respondApproval _ _ | .respondClarify _ _ => false
  | _ => true

namespace CoreState

section

variable [Serializer]

/-- What a lock section does to the registry. -/
inductive Writes (s : CoreState) : Action → SessionRegistry → Prop where
  | unrouted {ev : EventParams} (h : (s.routeEvent ev).2 = none) : Writes s (.deliver ev) s.registry
  | routed {ev : EventParams} {key : String} {changes : List SessionChange} {title : String}
      (h : (s.routeEvent ev).2 = some (key, changes, title)) :
      Writes s (.deliver ev) (deliverRegistry s.registry key ev changes title)
  | opened {reply : OpenReply} {profile : Option String} {cols : Int} :
      Writes s (.openSession reply profile cols)
        ((s.registry.upsert (openRecord reply profile cols (s.registry.get reply.key))).setActive (some reply.key))
  | closed {key : String} : Writes s (.closeSession key) (s.registry.close key)
  | cleared {a : Action} (h : a = .clearSessions ∨ a = .forgetGateway) : Writes s a {}
  | rebuilt {key : String} {messages : List Value} {replayEpoch : Option String} (h : key ∈ s.sessions) :
      Writes s (.rebuildSession key messages replayEpoch)
        (s.registry.modify key fun record =>
          { record with lastSeenSeq := 0, replayEpoch := replayEpoch.getD record.replayEpoch })
  | absent {key : String} {messages : List Value} {replayEpoch : Option String} (h : key ∉ s.sessions) :
      Writes s (.rebuildSession key messages replayEpoch) s.registry
  | touched {key : String} {seq : Int} {epoch : String} :
      Writes s (.touch key seq epoch) (s.registry.touch key seq epoch)
  | nothing {a : Action} (h : a.writesRegistry = false) : Writes s a s.registry

private theorem registry_editReducer (s : CoreState) (key : String) (edit : Reducer → Reducer × List SessionChange) :
    (s.editReducer key edit).1.registry = s.registry := by
  unfold editReducer
  split <;> rfl

private theorem registry_reemitCard (s : CoreState) (key : String) (card : Value) :
    (s.reemitCard key card).1.registry = s.registry := by
  unfold reemitCard
  dsimp only
  repeat' split
  all_goals rfl

theorem writes_act (s : CoreState) (a : Action) : s.Writes a (s.act a).1.registry := by
  cases a with
  | deliver ev =>
    change s.Writes _ (s.deliverEvent ev).1.registry
    cases hroute : s.routeEvent ev with
    | mk s' routed =>
      have hregistry : s'.registry = s.registry := by
        rw [show s' = (s.routeEvent ev).1 from (congrArg Prod.fst hroute).symm]
        unfold routeEvent
        repeat' split
        all_goals rfl
      unfold deliverEvent
      rw [hroute]
      cases routed with
      | none => exact hregistry ▸ .unrouted (congrArg Prod.snd hroute)
      | some r =>
        obtain ⟨key, changes, title⟩ := r
        change s.Writes _ (deliverRegistry s'.registry key ev changes title)
        rw [hregistry]
        exact .routed (congrArg Prod.snd hroute)
  | openSession reply profile cols => exact .opened
  | closeSession key => exact .closed
  | clearSessions => exact .cleared (.inl rfl)
  | forgetGateway => exact .cleared (.inr rfl)
  | rebuildSession key messages replayEpoch =>
    unfold act rebuildSession
    dsimp only
    cases hl : s.sessions.lookup key with
    | none => exact .absent (AList.lookup_eq_none.1 hl)
    | some live => exact .rebuilt (AList.lookup_isSome.1 (by rw [hl]; rfl))
  | repointLiveSid key newLiveSid =>
    have hregistry : (s.repointLiveSid key newLiveSid).registry = s.registry := by
      unfold repointLiveSid
      repeat' split
      all_goals rfl
    change s.Writes _ (s.repointLiveSid key newLiveSid).registry
    rw [hregistry]
    exact .nothing rfl
  | touch key seq epoch => exact .touched
  | reemitCard key card =>
    change s.Writes _ (s.reemitCard key card).1.registry
    rw [registry_reemitCard]
    exact .nothing rfl
  | appendUserRow key text historyEpoch =>
    have hregistry : (s.appendUserRow key text historyEpoch).1.registry = s.registry := by
      unfold appendUserRow
      split
      · rfl
      · split
        · exact registry_editReducer s key _
        · rfl
    change s.Writes _ (s.appendUserRow key text historyEpoch).1.registry
    rw [hregistry]
    exact .nothing rfl
  | respondApproval key requestId =>
    change s.Writes _ (s.editReducer key _).1.registry
    rw [registry_editReducer]
    exact .nothing rfl
  | respondClarify key requestId =>
    change s.Writes _ (s.editReducer key _).1.registry
    rw [registry_editReducer]
    exact .nothing rfl

/-- The registry stays one that can be written. -/
theorem typed_act {s : CoreState} (h : s.registry.Typed) {a : Action} (ha : a.Typed) :
    (s.act a).1.registry.Typed := by
  have hw := s.writes_act a
  generalize (s.act a).1.registry = registry at hw
  cases hw with
  | unrouted _ | absent _ | nothing _ => exact h
  | cleared _ => exact SessionRegistry.typed_empty
  | closed => exact SessionRegistry.typed_close h _
  | touched => exact SessionRegistry.typed_touch h _ ha _
  | rebuilt _ => exact SessionRegistry.typed_modify h fun r hr => ⟨(by decide : IsI64 0), hr.2⟩
  | @opened reply profile cols =>
    intro record hrecord
    rcases SessionRegistry.mem_upsert hrecord with hold | rfl
    · exact h record hold
    · refine ⟨(by decide : IsI64 0), ?_⟩
      unfold openRecord
      dsimp only
      split
      · decide
      · exact ha
  | @routed ev key changes title _ =>
    have hrename : ∀ registry : SessionRegistry, registry.Typed →
        (registry.modify key fun record => { record with title := title }).Typed := fun registry hregistry =>
      SessionRegistry.typed_modify hregistry fun r hr => hr
    unfold deliverRegistry
    cases hseq : ev.seq with
    | none =>
      dsimp only
      split
      · exact hrename _ h
      · exact h
    | some seq =>
      have htouched := SessionRegistry.typed_touch h key (ha seq hseq) ""
      dsimp only
      split
      · exact hrename _ htouched
      · exact htouched

/-- The registry stays without empty ids when none is opened. -/
theorem named_act {s : CoreState} (h : s.registry.Named) {a : Action} (ha : a.opens "" = false) :
    (s.act a).1.registry.Named := by
  have hw := s.writes_act a
  generalize (s.act a).1.registry = registry at hw
  cases hw with
  | unrouted _ | absent _ | nothing _ => exact h
  | cleared _ => exact SessionRegistry.named_empty
  | closed => exact SessionRegistry.named_close h _
  | touched => exact SessionRegistry.named_touch h _ _ _
  | rebuilt _ => exact SessionRegistry.named_modify h fun _ => rfl
  | @opened reply profile cols =>
    have hkey : reply.key ≠ "" := by simpa [Action.opens] using ha
    refine ⟨fun hactive => hkey (Option.some.inj hactive), ?_⟩
    intro record hrecord
    rcases SessionRegistry.mem_upsert hrecord with hold | rfl
    · exact h.sessions record hold
    · exact hkey
  | @routed ev key changes title _ =>
    have hrename : ∀ registry : SessionRegistry, registry.Named →
        (registry.modify key fun record => { record with title := title }).Named := fun registry hregistry =>
      SessionRegistry.named_modify hregistry fun _ => rfl
    unfold deliverRegistry
    cases ev.seq with
    | none =>
      dsimp only
      split
      · exact hrename _ h
      · exact h
    | some seq =>
      have htouched := SessionRegistry.named_touch h key seq ""
      dsimp only
      split
      · exact hrename _ htouched
      · exact htouched

end

end CoreState

namespace Storage

/-- The core, the flag and the content of the file. -/
structure Shared where
  core : CoreState
  registryDirty : Bool := false
  file : Option String

inductive Task where
  /-- `deliver_event`. -/
  | deliver (ev : EventParams)
  /-- Behind its lock section, the flag not yet raised. -/
  | marking
  /-- `flush_registry`. -/
  | flush
  /-- The flag is lowered, the registry not yet saved. -/
  | flushing
  /-- `forget_gateway`. -/
  | forget
  /-- The file is removed, the registry not yet emptied. -/
  | clearing
  | returned

/-- `run` is the next local step, `disk` an access of the file that succeeds or fails. -/
inductive Input where
  | run
  | disk (succeeds : Bool)

/-- What happens in one lock section. -/
inductive Event where
  | act (a : Action)
  | openSession (reply : OpenReply) (profile : Option String) (cols : Int) (written : Bool)
  | closeSession (key : String) (written : Bool)
  | clearSessions (written : Bool)

namespace Shared

section

variable [Serializer]

def act (s : Shared) (a : Action) : Shared := { s with core := (s.core.act a).1 }

/-- `save_registry`: the file is replaced as a whole or not at all. -/
def save (s : Shared) (written : Bool) : Shared :=
  { s with file := if written then some s.core.registry.toJson else s.file }

end

end Shared

/-- A call of `deliver_event`, `flush_registry` or `forget_gateway`. -/
def Task.isCall : Task → Bool
  | .deliver ev => decide (Action.Typed (.deliver ev))
  | .flush | .forget => true
  | _ => false

section

variable [Serializer]

def Task.next (s : Shared) : Task → Input → Option (Shared × Task × List Task)
  | .deliver ev, .run =>
    some (s.act (.deliver ev), if (s.core.routeEvent ev).2.isSome then .marking else .returned, [])
  | .marking, .run => some ({ s with registryDirty := true }, .returned, [])
  | .flush, .run => some ({ s with registryDirty := false }, if s.registryDirty then .flushing else .returned, [])
  -- a save that fails raises the flag again
  | .flushing, .disk succeeds =>
    some ({ s.save succeeds with registryDirty := if succeeds then s.registryDirty else true }, .returned, [])
  | .forget, .disk succeeds => some ({ s with file := if succeeds then none else s.file }, .clearing, [])
  | .clearing, .run => some (s.act .forgetGateway, .returned, [])
  | _, _ => none

def Event.next (s : Shared) : Event → Option Shared
  | .act a => if a.unsaved ∧ a.Typed then some (s.act a) else none
  | .openSession reply profile cols written =>
    if IsI64 cols then some ((s.act (.openSession reply profile cols)).save written) else none
  | .closeSession key written => some ((s.act (.closeSession key)).save written)
  | .clearSessions written => some ((s.act .clearSessions).save written)

def program : Tasks.Program Shared Task Input Event := ⟨Task.next, Event.next, fun _ => Task.isCall⟩

abbrev System := Tasks.System Shared Task

abbrev Label := Tasks.Label Task Input Event

/-- `HermesCore::new` on a directory with this file: a text that is rejected gives the empty registry. -/
def start [JsonReader] (file : Option String) : System :=
  ⟨{ core := .new ((SessionRegistry.load file).getD {}), file := file }, []⟩

/-! ### What a step does -/

/-- The steps of a task. -/
inductive Task.Step (s : Shared) : Task → Input → Shared → Task → Prop where
  | routed {ev : EventParams} (h : (s.core.routeEvent ev).2.isSome = true) :
      Step s (.deliver ev) .run (s.act (.deliver ev)) .marking
  | unrouted {ev : EventParams} (h : (s.core.routeEvent ev).2 = none) :
      Step s (.deliver ev) .run (s.act (.deliver ev)) .returned
  | marked : Step s .marking .run { s with registryDirty := true } .returned
  | lowered (h : s.registryDirty = true) : Step s .flush .run { s with registryDirty := false } .flushing
  | clean (h : s.registryDirty = false) : Step s .flush .run s .returned
  | flushed : Step s .flushing (.disk true) (s.save true) .returned
  | refused : Step s .flushing (.disk false) { s with registryDirty := true } .returned
  | removed : Step s .forget (.disk true) { s with file := none } .clearing
  | unremoved : Step s .forget (.disk false) s .clearing
  | cleared : Step s .clearing .run (s.act .forgetGateway) .returned

theorem task_moves {s s' : Shared} {t t' : Task} {input : Input} {spawned : List Task}
    (h : Task.next s t input = some (s', t', spawned)) : spawned = [] ∧ t.Step s input s' t' := by
  unfold Task.next at h
  split at h <;> cases h
  · cases hroute : (s.core.routeEvent _).2 with
    | none => exact ⟨rfl, .unrouted hroute⟩
    | some r => exact ⟨rfl, .routed (by rw [hroute]; rfl)⟩
  · exact ⟨rfl, .marked⟩
  · obtain ⟨core, dirty, file⟩ := s
    cases dirty with
    | false => exact ⟨rfl, .clean rfl⟩
    | true => exact ⟨rfl, .lowered rfl⟩
  · rename_i succeeds
    cases succeeds with
    | false => exact ⟨rfl, .refused⟩
    | true => exact ⟨rfl, .flushed⟩
  · rename_i succeeds
    cases succeeds with
    | false => exact ⟨rfl, .unremoved⟩
    | true => exact ⟨rfl, .removed⟩
  · exact ⟨rfl, .cleared⟩

/-- The registry can be written, and so can what the events at hand bring. -/
structure Sound (s : System) : Prop where
  registry : s.shared.core.registry.Typed
  events : ∀ t ∈ s.tasks, ∀ ev, t = .deliver ev → Action.Typed (.deliver ev)

omit [Serializer] in
theorem sound_start [JsonReader] (file : Option String) : Sound (start file) := by
  refine ⟨?_, by rintro t ⟨⟩⟩
  change ((SessionRegistry.load file).getD {}).Typed
  cases file with
  | none => exact SessionRegistry.typed_empty
  | some text =>
    unfold SessionRegistry.load SessionRegistry.fromJson
    dsimp only
    cases fromStr text with
    | none => exact SessionRegistry.typed_empty
    | some value => exact SessionRegistry.typed_ofValue value

private theorem event_typed {s s' : Shared} {e : Event} (h : e.next s = some s') (hs : s.core.registry.Typed) :
    s'.core.registry.Typed := by
  unfold Event.next at h
  split at h
  · split at h <;> cases h
    rename_i hguard
    exact CoreState.typed_act hs hguard.2
  · split at h <;> cases h
    rename_i hguard
    exact CoreState.typed_act hs (a := .openSession _ _ _) hguard
  · cases h
    exact CoreState.typed_act hs (a := .closeSession _) trivial
  · cases h
    exact CoreState.typed_act hs (a := .clearSessions) trivial

theorem sound_step {s s' : System} {l : Label} (h : Sound s) (hstep : program.step s l = some s') : Sound s' := by
  constructor
  · cases l with
    | start t =>
      obtain ⟨-, rfl⟩ := Tasks.Program.step_start hstep
      exact h.registry
    | task i input =>
      obtain ⟨t, shared, t', spawned, ht, hnext, rfl⟩ := Tasks.Program.step_task hstep
      obtain ⟨-, hmove⟩ := task_moves hnext
      cases hmove with
      | @routed ev _ | @unrouted ev _ =>
        exact CoreState.typed_act h.registry (h.events _ (List.mem_of_getElem? ht) ev rfl)
      | cleared => exact CoreState.typed_act h.registry (a := .forgetGateway) trivial
      | _ => exact h.registry
    | env e =>
      obtain ⟨shared, henv, rfl⟩ := Tasks.Program.step_env hstep
      exact event_typed henv h.registry
  · refine Tasks.Program.forall_step (P := fun _ t => ∀ ev, t = .deliver ev → Action.Typed (.deliver ev)) hstep
      h.events ?_ ?_ ?_
    · rintro t - hcall ev rfl
      exact of_decide_eq_true hcall
    · intro i input t shared t' spawned _ _ hnext
      obtain ⟨rfl, hmove⟩ := task_moves hnext
      refine ⟨?_, by rintro u ⟨⟩, fun _ hu => hu⟩
      cases hmove <;> rintro ev ⟨⟩
    · exact fun _ _ _ _ _ hu => hu

/-! ### A file that is rejected -/

/-- The step replaces or removes the file. -/
def writes : Label → Bool
  | .task _ (.disk succeeds) => succeeds
  | .env (.openSession _ _ _ written) | .env (.closeSession _ written) | .env (.clearSessions written) => written
  | _ => false

section

variable [JsonReader] [LawfulJson]

/-- What a step leaves of the file: a text that loads, or the file as it was. -/
theorem file_step {s s' : System} {l : Label} (h : Sound s) (hstep : program.step s l = some s') :
    if writes l then (SessionRegistry.load s'.shared.file).isSome else s'.shared.file = s.shared.file := by
  have hsound := (sound_step h hstep).registry
  cases l with
  | start t =>
    obtain ⟨-, rfl⟩ := Tasks.Program.step_start hstep
    rfl
  | task i input =>
    obtain ⟨t, shared, t', spawned, ht, hnext, rfl⟩ := Tasks.Program.step_task hstep
    obtain ⟨-, hmove⟩ := task_moves hnext
    cases hmove with
    | flushed => exact Option.isSome_of_eq_some (SessionRegistry.load_toJson hsound)
    | _ => rfl
  | env e =>
    obtain ⟨shared, henv, rfl⟩ := Tasks.Program.step_env hstep
    have hsaved : ∀ (t : Shared) (written : Bool), t.core.registry.Typed →
        if written then (SessionRegistry.load (t.save written).file).isSome else (t.save written).file = t.file := by
      intro t written ht
      cases written with
      | false => rfl
      | true => exact Option.isSome_of_eq_some (SessionRegistry.load_toJson ht)
    cases e with
    | act a =>
      obtain ⟨-, henv⟩ := Option.ite_none_right_eq_some.1 henv
      cases henv
      rfl
    | openSession reply profile cols written =>
      obtain ⟨-, henv⟩ := Option.ite_none_right_eq_some.1 henv
      cases henv
      exact hsaved _ written hsound
    | closeSession key written =>
      cases henv
      exact hsaved _ written hsound
    | clearSessions written =>
      cases henv
      exact hsaved _ written hsound

end

end

/-- The answer to a new chat. -/
def newChat : OpenReply := .created ⟨"live", "chat", ""⟩

end Storage

end Hermo
