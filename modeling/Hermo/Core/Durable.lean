import Hermo.Core.Storage

/-!
# The file follows the registry

Between two launches the open tabs live in `sessions.json` only.  A step is covered when the flag is up or a task is on
its way to raise it, to save or to empty the registry; a lock section that neither saves nor is covered must leave the
registry as it is.  `SavesOrMarks` says this of every step by its inputs, and `durable_run` is what follows: whenever
no task is on its way, the file holds the registry or the flag is up.
-/

namespace Hermo.Storage

open Run

/-- The task is between a change of the registry, or of the flag, and the save that belongs to it. -/
def Task.underway : Task → Bool
  | .marking | .flushing | .clearing => true
  | _ => false

/-- What a step leaves unsaved will be saved. -/
def Covered (s : System) : Prop := s.shared.registryDirty = true ∨ ∃ t ∈ s.tasks, t.underway = true

/-- The open finds the tab as it would write it. -/
def Reopens (registry : SessionRegistry) (reply : OpenReply) (profile : Option String) (cols : Int) : Prop :=
  ∃ record, registry.get reply.key = some record ∧ registry.activeKey = some reply.key ∧ record.lastSeenSeq = 0 ∧
    record.cols = (if cols ≤ 0 then 80 else cols) ∧
      ∃ owner, owner = (if reply.wireProfile = "" then profile.getD "" else reply.wireProfile) ∧
        (owner = "" ∨ owner = record.profileName)

section

variable [JsonReader]

/-- The step saves what it changes, or changes nothing that is not covered. -/
def SavesOrMarks (s : System) : Label → Prop
  | .env (.act (.touch key seq epoch)) =>
    Covered s ∨ ∀ record, s.shared.core.registry.get key = some record →
      seq ≤ record.lastSeenSeq ∧ (epoch = "" ∨ epoch = record.replayEpoch)
  | .env (.act (.rebuildSession key _ replayEpoch)) =>
    Covered s ∨ (key ∈ s.shared.core.sessions → ∀ record, s.shared.core.registry.get key = some record →
      record.lastSeenSeq = 0 ∧ ∀ epoch, replayEpoch = some epoch → epoch = record.replayEpoch)
  | .env (.openSession reply profile cols written) =>
    reply.key ≠ "" ∧ (written = true ∨ Covered s ∨ Reopens s.shared.core.registry reply profile cols)
  | .env (.closeSession key written) =>
    written = true ∨ Covered s ∨
      (s.shared.core.registry.get key = none ∧ s.shared.core.registry.activeKey ≠ some key)
  | .env (.clearSessions written) => written = true ∨ Covered s ∨ s.shared.core.registry = {}
  | .task i .run =>
    s.tasks[i]? = some .clearing →
      SessionRegistry.load s.shared.file = some {} ∨ s.shared.registryDirty = true ∨
        ∃ j t, j ≠ i ∧ s.tasks[j]? = some t ∧ t.underway = true
  | _ => True

/-- The file can be read back as the registry, or what is unsaved is covered. -/
structure Durable (s : System) : Prop where
  sound : Sound s
  named : s.shared.core.registry.Named
  saved : SessionRegistry.load s.shared.file = some s.shared.core.registry ∨ Covered s

end

theorem Covered.step {s : System} (h : Covered s) {i : Nat} {t : Task} (ht : s.tasks[i]? = some t)
    (hown : t.underway = false) {shared : Shared} (hdirty : shared.registryDirty = s.shared.registryDirty) (t' : Task)
    (spawned : List Task) : Covered ⟨shared, s.tasks.set i t' ++ spawned⟩ := by
  rcases h with hup | hunderway
  · exact .inl (hdirty.trans hup)
  · exact .inr (Tasks.Program.exists_after ht hunderway (by simp [hown]) t' spawned)

theorem covered_of_underway {s : System} {i : Nat} {t t' : Task} {shared : Shared} (ht : s.tasks[i]? = some t)
    (h : t'.underway = true) (spawned : List Task) : Covered ⟨shared, s.tasks.set i t' ++ spawned⟩ :=
  .inr ⟨t', Tasks.Program.stepped_mem ht spawned, h⟩

theorem durable_start [JsonReader] {file : Option String} (h : (SessionRegistry.load file).isSome) :
    Durable (start file) := by
  obtain ⟨registry, hload⟩ := Option.isSome_iff_exists.1 h
  have hregistry : (start file).shared.core.registry = registry := by
    change (SessionRegistry.load file).getD {} = registry
    rw [hload]
    rfl
  refine ⟨sound_start file, ?_, .inl (hload.trans (congrArg some hregistry.symm))⟩
  rw [hregistry]
  cases file with
  | none =>
    cases hload
    exact SessionRegistry.named_empty
  | some text =>
    obtain ⟨value, -, rfl⟩ := Option.map_eq_some_iff.1 hload
    exact SessionRegistry.named_ofValue value

/-- An open that finds its tab as it would write it. -/
theorem Reopens.registry_eq {registry : SessionRegistry} {reply : OpenReply} {profile : Option String} {cols : Int}
    (h : Reopens registry reply profile cols) :
    (registry.upsert (openRecord reply profile cols (registry.get reply.key))).setActive (some reply.key) =
      registry := by
  obtain ⟨record, hget, hactive, hseq, hcols, owner, howner, hprofile⟩ := h
  have hid : record.storedId = reply.key := by simpa using List.find?_some hget
  have hrecord : openRecord reply profile cols (some record) = record := by
    unfold openRecord
    dsimp only
    rw [← howner, Option.map_some, Option.map_some, Option.map_some, Option.getD_some, Option.getD_some,
      Option.getD_some, ← hid, ← hcols, ← hseq]
    rcases hprofile with rfl | rfl
    · rw [if_pos rfl]
    · rw [show (if record.profileName = "" then record.profileName else record.profileName) = record.profileName from
        ite_self _]
  rw [hget, hrecord, SessionRegistry.upsert_eq_self (by rw [hid, hget])]
  unfold SessionRegistry.setActive
  rw [← hactive]

section

variable [Serializer] [JsonReader]

/-- The lock sections that save nothing. -/
private theorem saved_act {s : System} (h : Durable s) {a : Action} (ha : SavesOrMarks s (.env (.act a)))
    (hguard : a.unsaved = true) :
    SessionRegistry.load s.shared.file = some (s.shared.core.act a).1.registry ∨ Covered s := by
  have hsame : (s.shared.core.act a).1.registry = s.shared.core.registry ∨ Covered s →
      SessionRegistry.load s.shared.file = some (s.shared.core.act a).1.registry ∨ Covered s := by
    rintro (heq | hcovered)
    · rw [heq]
      exact h.saved
    · exact .inr hcovered
  have hw := s.shared.core.writes_act a
  apply hsame
  generalize (s.shared.core.act a).1.registry = registry at hw
  cases hw with
  | absent _ | nothing _ => exact .inl rfl
  | touched => exact ha.symm.imp_left SessionRegistry.touch_eq_self
  | @rebuilt key messages replayEpoch hopen =>
    refine ha.symm.imp_left fun hrecord => SessionRegistry.modify_eq_self ?_
    intro record hget
    obtain ⟨hseq, hepoch⟩ := hrecord hopen record hget
    cases replayEpoch with
    | none => exact hseq ▸ rfl
    | some epoch => rw [hepoch epoch rfl, Option.getD_some, ← hseq]
  | unrouted _ | routed _ | opened | closed => cases hguard
  | cleared hcleared => rcases hcleared with rfl | rfl <;> cases hguard

variable [LawfulJson]

/-- The lock sections that save. -/
private theorem saved_save {s : System} (h : Durable s) {a : Action} {written : Bool}
    (htyped : (s.shared.core.act a).1.registry.Typed) (hnamed : (s.shared.core.act a).1.registry.Named)
    (ha : written = true ∨ Covered s ∨ (s.shared.core.act a).1.registry = s.shared.core.registry) :
    SessionRegistry.load ((s.shared.act a).save written).file = some (s.shared.core.act a).1.registry ∨
      Covered s := by
  cases written with
  | true => exact .inl (SessionRegistry.load_toJson_of_named htyped hnamed)
  | false =>
    rcases ha with hwritten | hcovered | heq
    · cases hwritten
    · exact .inr hcovered
    · rw [heq]
      exact h.saved

/-- One step keeps the file and the registry together. -/
theorem durable_step {s s' : System} {l : Label} (h : Durable s) (ha : SavesOrMarks s l)
    (hstep : program.step s l = some s') : Durable s' := by
  have hsound := sound_step h.sound hstep
  cases l with
  | start t =>
    obtain ⟨-, rfl⟩ := Tasks.Program.step_start hstep
    refine ⟨hsound, h.named, h.saved.imp_right fun hcovered => hcovered.imp_right ?_⟩
    rintro ⟨u, hu, hunderway⟩
    exact ⟨u, List.mem_append_left _ hu, hunderway⟩
  | task i input =>
    obtain ⟨t, shared, t', spawned, ht, hnext, rfl⟩ := Tasks.Program.step_task hstep
    obtain ⟨rfl, hmove⟩ := task_moves hnext
    cases hmove with
    | @routed ev _ =>
      exact ⟨hsound, CoreState.named_act h.named (a := .deliver ev) rfl, .inr (covered_of_underway ht rfl [])⟩
    | @unrouted ev hroute =>
      have heq : (s.shared.core.act (.deliver ev)).1.registry = s.shared.core.registry := by
        have hw := s.shared.core.writes_act (.deliver ev)
        generalize (s.shared.core.act (.deliver ev)).1.registry = registry at hw
        cases hw with
        | unrouted _ | nothing _ => rfl
        | routed hhit =>
          rw [hroute] at hhit
          cases hhit
        | cleared hcleared => rcases hcleared with heq | heq <;> cases heq
      refine ⟨hsound, CoreState.named_act h.named (a := .deliver ev) rfl, ?_⟩
      rcases h.saved with hsaved | hcovered
      · exact .inl (hsaved.trans (congrArg some heq.symm))
      · exact .inr (hcovered.step ht rfl rfl _ [])
    | marked => exact ⟨hsound, h.named, .inr (.inl rfl)⟩
    | lowered _ => exact ⟨hsound, h.named, .inr (covered_of_underway ht rfl [])⟩
    | clean _ => exact ⟨hsound, h.named, h.saved.imp_right fun hcovered => hcovered.step ht rfl rfl _ []⟩
    | flushed => exact ⟨hsound, h.named, .inl (SessionRegistry.load_toJson_of_named hsound.registry h.named)⟩
    | refused => exact ⟨hsound, h.named, .inr (.inl rfl)⟩
    | removed | unremoved => exact ⟨hsound, h.named, .inr (covered_of_underway ht rfl [])⟩
    | cleared =>
      refine ⟨hsound, SessionRegistry.named_empty, ?_⟩
      rcases ha ht with hload | hdirty | ⟨j, u, hij, hu, hunderway⟩
      · exact .inl hload
      · exact .inr (.inl hdirty)
      · exact .inr (.inr ⟨u, Tasks.Program.other_mem hij hu _ [], hunderway⟩)
  | env e =>
    obtain ⟨shared, henv, rfl⟩ := Tasks.Program.step_env hstep
    cases e with
    | act a =>
      obtain ⟨hguard, henv⟩ := Option.ite_none_right_eq_some.1 henv
      cases henv
      have hopens : a.opens "" = false := by
        cases a <;> first | rfl | cases hguard.1
      exact ⟨hsound, CoreState.named_act h.named hopens, saved_act h ha hguard.1⟩
    | openSession reply profile cols written =>
      obtain ⟨-, henv⟩ := Option.ite_none_right_eq_some.1 henv
      cases henv
      obtain ⟨hkey, hsaves⟩ := ha
      have hnamed := CoreState.named_act h.named (a := .openSession reply profile cols) (by simpa [Action.opens])
      refine ⟨hsound, hnamed, saved_save h hsound.registry hnamed ?_⟩
      exact hsaves.imp_right fun hsame => hsame.imp_right Reopens.registry_eq
    | closeSession key written =>
      cases henv
      have hnamed := CoreState.named_act h.named (a := .closeSession key) rfl
      refine ⟨hsound, hnamed, saved_save h hsound.registry hnamed ?_⟩
      exact ha.imp_right fun hsame => hsame.imp_right fun hgone => SessionRegistry.close_eq_self hgone.1 hgone.2
    | clearSessions written =>
      cases henv
      have hnamed := CoreState.named_act h.named (a := .clearSessions) rfl
      refine ⟨hsound, hnamed, saved_save h hsound.registry hnamed ?_⟩
      exact ha.imp_right fun hsame => hsame.imp_right Eq.symm

end

/-- The first tokens of an answer. -/
def firstEvent : EventParams := ⟨"message.delta", "live", some 1, .object [("text", .string "hi")]⟩

/-- A chat is opened, an event arrives, and the registry is flushed. -/
def flushedRun : List Label :=
  [.env (.openSession newChat none 80 true), .start (.deliver firstEvent), .task 0 .run, .task 0 .run, .start .flush,
    .task 1 .run, .task 1 (.disk true)]

end Hermo.Storage
