import Hermo.Core.HistoryEpoch
import Hermo.Core.Supervisor
import Hermo.Library.Run
import Hermo.Transcript.UserRows

/-!
# A submit next to a reconnect

`Exchange` is the system with one submit, a `send` or the submit of a slash message, and the prompts the gateway
accepted for its session.  The submit captures the history epoch, the gateway accepts the prompt, and the lock
section at the end appends the row unless the session was rebuilt in between; the history of a rebuild is a snapshot
the gateway took at some earlier time.  `message_kept` says under which condition on the snapshots the message has a
row in the end.
-/

namespace Hermo

/-- A submit; `rowText` is the text of its row, for a slash message the text to display. -/
structure Submit where
  key : String
  message : String
  rowText : String

/-- How far a submit is.  `place` is the number of prompts the gateway had accepted before this one. -/
inductive Submit.Phase where
  | idle
  /-- Awaiting `prompt.submit`, with the captured history epoch. -/
  | submitting (historyEpoch : UInt64)
  /-- The gateway replied, the lock section is still to come. -/
  | replied (historyEpoch : UInt64) (status : Option SubmitStatus) (place : Nat)
  | finished (status : Option SubmitStatus) (place : Nat)

/-- The reply says that the gateway accepted the prompt. -/
def acceptedStatus (status : Option SubmitStatus) : Bool := (status.map SubmitStatus.accepted).getD false

namespace Submit.Phase

/-- The place of the prompt, once the gateway accepted it. -/
def place : Submit.Phase → Option Nat
  | .replied _ status place | .finished status place => if acceptedStatus status then some place else none
  | _ => none

/-- The captured epoch, while the lock section is still to come. -/
def captured : Submit.Phase → Option UInt64
  | .submitting historyEpoch | .replied historyEpoch _ _ => some historyEpoch
  | _ => none

end Submit.Phase

structure Exchange where
  sys : Sys
  /-- The prompts the gateway accepted for the session. -/
  prompts : List String := []
  phase : Submit.Phase := .idle
  /-- How many of them the history of the last `session.resume` reply of the supervisor has. -/
  resumed : Nat := 0

inductive Exchange.Event where
  /-- A step of the system; the gateway had accepted `taken` prompts when it took the history that comes with it. -/
  | step (label : Label) (taken : Nat)
  /-- The submit captures the history epoch. -/
  | capture
  /-- The gateway handles `prompt.submit`; `none` is a failed call. -/
  | reply (status : Option SubmitStatus)
  /-- The lock section at the end of the submit. -/
  | finish
  /-- The gateway accepts another prompt. -/
  | prompt (text : String)

/-- The history the supervisor holds for a key. -/
def Supervisor.history (key : String) : Supervisor → Option (List Value)
  | .resumed key' _ reply _ | .asking key' _ reply _ | .answered key' _ reply _ _ =>
    if key' = key then some reply.messages else none
  | _ => none

/-- The history an action installs. -/
def Action.history : Action → List Value
  | .openSession reply _ _ => reply.messages
  | .rebuildSession _ messages _ => messages
  | _ => []

namespace Exchange

def start (registry : SessionRegistry) : Exchange := { sys := ⟨.new registry, .idle, ""⟩ }

/-- The history holds exactly the prompts that were accepted when it was taken. -/
def Holds (w : Exchange) (messages : List Value) (taken : Nat) : Prop :=
  taken ≤ w.prompts.length ∧ promptTexts messages = w.prompts.take taken

/-- What the gateway promises about the histories of the session. -/
def FromGateway (submit : Submit) (w : Exchange) : Event → Prop
  | .step (.resumeReply (some reply)) taken =>
    ∀ record rest, w.sys.supervisor = .resuming submit.key record rest → w.Holds reply.messages taken
  | .step (.task (.openSession reply _ _)) taken => reply.key = submit.key → w.Holds reply.messages taken
  | _ => True

/-- The prompts in the history that an action installs. -/
def installed (w : Exchange) (taken : Nat) : Action → Nat
  | .rebuildSession _ _ _ => w.resumed
  | _ => taken

/-- When the gateway accepts the prompt, the session still carries the captured epoch, and a history that is installed
after that was taken after the acceptance. -/
def Fresh (submit : Submit) (w : Exchange) : Event → Prop
  | .step label taken => ∀ a supervisor epoch place, w.sys.next label = some (some a, supervisor, epoch) →
      a.installs submit.key = true → w.phase.place = some place → place < w.installed taken a
  | .reply status => acceptedStatus status → ∀ live, (w.sys.core.tab submit.key).live = some live →
      w.phase.captured = some live.historyEpoch
  | _ => True

/-- What the last `session.resume` reply has, after a label. -/
def resumedBy (w : Exchange) (taken : Nat) : Label → Nat
  | .resumeReply (some _) => taken
  | _ => w.resumed

variable [Serializer]

def step (submit : Submit) (w : Exchange) : Event → Option Exchange
  | .step label taken =>
    (w.sys.step label).map fun sys => { w with sys := sys, resumed := w.resumedBy taken label }
  | .capture =>
    match w.phase, (w.sys.core.tab submit.key).live with
    | .idle, some live => some { w with phase := .submitting live.historyEpoch }
    | _, _ => none
  | .reply status =>
    match w.phase with
    | .submitting historyEpoch => some
        { w with
          prompts := if acceptedStatus status then w.prompts ++ [submit.message] else w.prompts
          phase := .replied historyEpoch status w.prompts.length }
    | _ => none
  | .finish =>
    match w.phase with
    | .replied historyEpoch status place => some
        { w with
          sys := { w.sys with core := (w.sys.core.finishSubmit submit.key submit.rowText historyEpoch status).1 }
          phase := .finished status place }
    | _ => none
  | .prompt text => some { w with prompts := w.prompts ++ [text] }

end Exchange

/-- The transcript has a user row for the message. -/
def Submit.Shown (submit : Submit) (live : LiveSession) : Prop :=
  submit.rowText ∈ live.reducer.state.users ∨ submit.message ∈ live.reducer.state.users

/-! ### The supervisor -/

/-- A local step brings no history in. -/
private theorem Supervisor.Advances.history {core : CoreState} {freshEpoch : String} {s s' : Supervisor}
    {a : Option Action} (h : s.Advances core freshEpoch a s') {key : String} {messages : List Value}
    (hm : s'.history key = some messages) : s.history key = some messages := by
  cases h with
  | repoint => exact hm
  | _ => cases hm

/-- A local step installs only the history the supervisor holds. -/
private theorem Supervisor.Advances.installs {core : CoreState} {freshEpoch : String} {s s' : Supervisor} {a : Action}
    (h : s.Advances core freshEpoch (some a) s') {key : String} (ha : a.installs key = true) :
    ∃ messages replayEpoch, a = .rebuildSession key messages replayEpoch ∧ s.history key = some messages := by
  cases h with
  -- the history it rebuilds from is the one of the reply it holds
  | rebuild hrebuilds =>
    obtain rfl := by simpa only [Action.installs, beq_iff_eq] using ha
    exact ⟨_, _, rfl, if_pos rfl⟩
  | _ => cases ha

namespace Sys

/-- The supervisor holds a history after the reply that brought it. -/
private theorem history_next {s : Sys} {label : Label} {a : Option Action} {supervisor : Supervisor}
    {epoch key : String} {messages : List Value} (h : s.next label = some (a, supervisor, epoch))
    (hm : supervisor.history key = some messages) :
    (s.supervisor.history key = some messages ∧ ∀ reply, label ≠ .resumeReply (some reply)) ∨
      ∃ reply record rest, label = .resumeReply (some reply) ∧ s.supervisor = .resuming key record rest ∧
        messages = reply.messages := by
  cases steps_of_next h with
  | resumed hsup =>
    unfold Supervisor.history at hm
    simp only [Option.ite_none_right_eq_some, Option.some.injEq] at hm
    obtain ⟨rfl, rfl⟩ := hm
    exact .inr ⟨_, _, _, rfl, hsup, rfl⟩
  | answered hsup =>
    rw [hsup]
    exact .inl ⟨hm, nofun⟩
  | advance hadvances => exact .inl ⟨hadvances.history hm, nofun⟩
  | task htask => exact .inl ⟨hm, nofun⟩
  | _ => cases hm

/-- A history is installed by the task that opens the session or by the supervisor that holds it. -/
private theorem installs_next {s : Sys} {label : Label} {a : Action} {supervisor : Supervisor} {epoch key : String}
    (h : s.next label = some (some a, supervisor, epoch)) (ha : a.installs key = true) :
    (∃ reply profile cols, label = .task a ∧ a = .openSession reply profile cols ∧ reply.key = key) ∨
      ∃ messages replayEpoch, a = .rebuildSession key messages replayEpoch ∧
        s.supervisor.history key = some messages := by
  cases steps_of_next h with
  | live hsup => cases ha
  | advance hadvances => exact .inr (hadvances.installs ha)
  | task htask =>
    cases a with
    | openSession reply profile cols =>
      exact .inl ⟨reply, profile, cols, rfl, rfl, by simpa [Action.installs] using ha⟩
    | rebuildSession => cases htask
    | _ => cases ha

end Sys

/-! ### The histories -/

namespace Exchange

/-- The invariant: the histories the supervisor holds are what the gateway promised, and once the prompt is accepted
the session either still carries the captured epoch or shows the message. -/
structure Kept (submit : Submit) (w : Exchange) : Prop where
  wellFormed : w.sys.core.WellFormed
  holds : ∀ messages, w.sys.supervisor.history submit.key = some messages → w.Holds messages w.resumed
  place : ∀ place, w.phase.place = some place → w.prompts[place]? = some submit.message
  shown : ∀ place live, w.phase.place = some place → (w.sys.core.tab submit.key).live = some live →
    w.phase.captured = some live.historyEpoch ∨ submit.Shown live

private theorem kept_start (submit : Submit) (registry : SessionRegistry) : (start registry).Kept submit :=
  ⟨CoreState.wellFormed_new registry, nofun, nofun, nofun⟩

private theorem Holds.append {w w' : Exchange} {messages : List Value} {taken : Nat} (h : w.Holds messages taken)
    {more : List String} (hp : w'.prompts = w.prompts ++ more) : w'.Holds messages taken := by
  obtain ⟨hle, heq⟩ := h
  refine ⟨?_, ?_⟩
  · rw [hp, List.length_append]
    omega
  · rw [hp, List.take_append_of_le_length hle]
    exact heq

/-- A prompt that was accepted before the history was taken is in it. -/
private theorem Holds.mem {w : Exchange} {messages : List Value} {taken place : Nat} {text : String}
    (h : w.Holds messages taken) (hp : w.prompts[place]? = some text) (hlt : place < taken) :
    text ∈ promptTexts messages := by
  rw [h.2]
  refine List.mem_of_getElem? (i := place) ?_
  rw [List.getElem?_take_of_lt hlt, hp]

end Exchange

/-! ### One lock section -/

section

variable [Serializer]

namespace CoreState

/-- An action that installs no history keeps the epoch and the user rows of a session that stays open. -/
private theorem live_of_act {s : CoreState} (hs : s.WellFormed) {key : String} {a : Action}
    (ha : a.installs key = false) {live' : LiveSession} (h : ((s.act a).1.tab key).live = some live') :
    ∃ live, (s.tab key).live = some live ∧ live'.historyEpoch = live.historyEpoch ∧
      ∀ text ∈ live.reducer.state.users, text ∈ live'.reducer.state.users := by
  rw [tab_act] at h
  by_cases hreplaces : a.replaces key = true
  · exfalso
    cases a <;> simp_all [onTab, Action.replaces, Action.installs] <;> cases h
  · cases hon : s.onTab key a with
    | none =>
      rw [hon] at h
      exact ⟨live', h, rfl, fun _ htext => htext⟩
    | some b =>
      obtain ⟨hkeeps, hrebuild⟩ := onTab_kept (by simpa using hreplaces) hon
      rw [hon] at h
      change ((s.tab key).act key b).1.live = some live' at h
      cases hl : (s.tab key).live with
      | none =>
        rw [(Tab.act_none hl key hkeeps).1] at h
        cases h
      | some live =>
        rw [Tab.live_act hl key hkeeps, Option.some_inj] at h
        subst h
        refine ⟨live, rfl, historyEpoch_kept hrebuild _, ?_⟩
        intro text htext
        dsimp only
        cases hop : (s.tab key).op live key b with
        | none => exact htext
        | some o =>
          change text ∈ (live.reducer.perform o).1.state.users
          rw [Reducer.perform_users (hs key live hl) (Tab.op_replaces hrebuild hop)]
          exact List.mem_append_left _ htext

/-- A history that is installed shows its prompts. -/
private theorem users_of_install {s : CoreState} {key : String} {a : Action} (ha : a.installs key = true)
    {live' : LiveSession} (h : ((s.act a).1.tab key).live = some live') {text : String}
    (htext : text ∈ promptTexts a.history) : text ∈ live'.reducer.state.users := by
  rw [tab_act] at h
  cases a <;> simp only [Action.installs, Bool.false_eq_true, beq_iff_eq] at ha
  case openSession reply profile cols =>
    simp only [onTab, ha, ↓reduceIte] at h
    change some _ = some live' at h
    rw [Option.some_inj] at h
    subst h
    change text ∈ (openReducer reply).1.state.users
    rw [openReducer_eq]
    exact Reducer.ingestResumeMessages_users _ _ htext
  case rebuildSession key' messages replayEpoch =>
    simp only [onTab, ha, ↓reduceIte] at h
    change ((s.tab key).act key _).1.live = some live' at h
    cases hl : (s.tab key).live with
    | none =>
      rw [(Tab.act_none hl key rfl).1] at h
      cases h
    | some live =>
      rw [Tab.live_act hl key rfl, Option.some_inj] at h
      subst h
      exact Reducer.ingestResumeMessages_users live.reducer key htext

end CoreState

namespace CoreState

private theorem finishSubmit_eq (s : CoreState) (key text : String) (historyEpoch : UInt64)
    (status : Option SubmitStatus) : s.finishSubmit key text historyEpoch status =
      if acceptedStatus status then s.act (.appendUserRow key text historyEpoch) else (s, []) := by
  cases status with
  | none => rfl
  | some status => cases status <;> rfl

/-- The row of the lock section at the end of a submit. -/
private theorem users_of_append {s : CoreState} (hs : s.WellFormed) {key text : String} {live live' : LiveSession}
    (hl : (s.tab key).live = some live)
    (h : ((s.act (.appendUserRow key text live.historyEpoch)).1.tab key).live = some live') :
    text ∈ live'.reducer.state.users := by
  rw [tab_act, onTab, if_pos rfl] at h
  change ((s.tab key).act key _).1.live = some live' at h
  rw [Tab.live_act hl key rfl, Option.some_inj] at h
  subst h
  have hop : (s.tab key).op live key (.appendUserRow text live.historyEpoch) = some (.appendUserRow key text) :=
    if_pos rfl
  dsimp only
  rw [hop]
  change text ∈ (live.reducer.perform (.appendUserRow key text)).1.state.users
  rw [Reducer.perform_users (hs key live hl) rfl]
  exact List.mem_append_right _ (List.mem_singleton_self text)

end CoreState

/-! ### A run -/

namespace Exchange

/-- A lock section of the system. -/
private theorem shown_act {submit : Submit} {w : Exchange} (h : w.Kept submit) {label : Label} {taken : Nat}
    (hg : w.FromGateway submit (.step label taken)) (hf : w.Fresh submit (.step label taken)) {a : Action}
    {supervisor : Supervisor} {epoch : String} (hnext : w.sys.next label = some (some a, supervisor, epoch))
    {place : Nat} {live' : LiveSession} (hplace : w.phase.place = some place)
    (hlive : ((w.sys.core.act a).1.tab submit.key).live = some live') :
    w.phase.captured = some live'.historyEpoch ∨ submit.Shown live' := by
  by_cases ha : a.installs submit.key = true
  · have hlt := hf a supervisor epoch place hnext ha hplace
    refine .inr (.inr (CoreState.users_of_install ha hlive ?_))
    rcases Sys.installs_next hnext ha with ⟨reply, profile, cols, rfl, rfl, hkey⟩ | ⟨messages, replayEpoch, rfl, hm⟩
    · exact (hg hkey).mem (h.place place hplace) hlt
    · exact (h.holds messages hm).mem (h.place place hplace) hlt
  · obtain ⟨live, hl, hepoch, husers⟩ := CoreState.live_of_act h.wellFormed (by simpa using ha) hlive
    rcases h.shown place live hplace hl with hcaptured | hshown
    · exact .inl (hepoch ▸ hcaptured)
    · exact .inr (hshown.imp (husers _) (husers _))

private theorem kept_step {submit : Submit} {w : Exchange} (h : w.Kept submit) {label : Label} {taken : Nat}
    (hg : w.FromGateway submit (.step label taken)) (hf : w.Fresh submit (.step label taken)) {a : Option Action}
    {supervisor : Supervisor} {epoch : String} (hnext : w.sys.next label = some (a, supervisor, epoch)) :
    Kept submit { w with sys := w.sys.after a supervisor epoch, resumed := w.resumedBy taken label } where
  wellFormed := by
    cases a with
    | none => exact h.wellFormed
    | some a => exact h.wellFormed.act a
  holds := by
    intro messages hm
    rcases Sys.history_next hnext hm with ⟨hm, hlabel⟩ | ⟨reply, record, rest, rfl, hsup, rfl⟩
    · have hresumed : w.resumedBy taken label = w.resumed := by
        unfold resumedBy
        split
        · exact absurd rfl (hlabel _)
        · rfl
      dsimp only
      rw [hresumed]
      exact h.holds messages hm
    · exact hg record rest hsup
  place := h.place
  shown := by
    intro place live' hplace hlive
    cases a with
    | none => exact h.shown place live' hplace hlive
    | some a => exact shown_act h hg hf hnext hplace hlive

/-- The lock section at the end of the submit. -/
private theorem kept_finish {submit : Submit} {w : Exchange} (h : w.Kept submit) {historyEpoch : UInt64}
    {status : Option SubmitStatus} {number : Nat} (hphase : w.phase = .replied historyEpoch status number) :
    Kept submit { w with
      sys := { w.sys with core := (w.sys.core.finishSubmit submit.key submit.rowText historyEpoch status).1 }
      phase := .finished status number } := by
  have hsame : (Submit.Phase.finished status number).place = w.phase.place := by
    rw [hphase]
    rfl
  by_cases haccepted : acceptedStatus status = true
  · rw [CoreState.finishSubmit_eq, if_pos haccepted]
    refine ⟨h.wellFormed.act _, h.holds, fun place hplace => h.place place (hsame ▸ hplace), ?_⟩
    intro place live' hplace hlive
    obtain ⟨live, hl, -, husers⟩ := CoreState.live_of_act h.wellFormed rfl hlive
    refine .inr ?_
    rcases h.shown place live (hsame ▸ hplace) hl with hcaptured | hshown
    · rw [hphase] at hcaptured
      cases hcaptured
      exact .inl (CoreState.users_of_append h.wellFormed hl hlive)
    · exact hshown.imp (husers _) (husers _)
  · have hnone : (Submit.Phase.finished status number).place = none := if_neg haccepted
    rw [CoreState.finishSubmit_eq, if_neg haccepted]
    refine ⟨h.wellFormed, h.holds, ?_, ?_⟩
    · intro place hplace
      cases hnone.symm.trans hplace
    · intro place live hplace
      cases hnone.symm.trans hplace

theorem Kept.step {submit : Submit} {w w' : Exchange} (h : w.Kept submit) {e : Event} (hg : w.FromGateway submit e)
    (hf : w.Fresh submit e) (hs : Exchange.step submit w e = some w') : w'.Kept submit := by
  unfold Exchange.step at hs
  cases e with
  | step label taken =>
    obtain ⟨sys, hsys, rfl⟩ := Option.map_eq_some_iff.1 hs
    obtain ⟨⟨a, supervisor, epoch⟩, hnext, rfl⟩ := Option.map_eq_some_iff.1 hsys
    exact kept_step h hg hf hnext
  | capture =>
    dsimp only at hs
    split at hs <;> cases hs
    exact ⟨h.wellFormed, h.holds, nofun, nofun⟩
  | reply status =>
    dsimp only at hs
    split at hs <;> cases hs
    rename_i historyEpoch hphase
    -- an accepted prompt is one more prompt the gateway has
    have hprompts : ∃ more, (if acceptedStatus status then w.prompts ++ [submit.message] else w.prompts) =
        w.prompts ++ more := by
      split
      · exact ⟨[submit.message], rfl⟩
      · exact ⟨[], (List.append_nil _).symm⟩
    obtain ⟨more, hmore⟩ := hprompts
    refine ⟨h.wellFormed, fun messages hm => (h.holds messages hm).append hmore, ?_, ?_⟩
    · intro place hplace
      simp only [Submit.Phase.place, Option.ite_none_right_eq_some, Option.some.injEq] at hplace
      obtain ⟨haccepted, rfl⟩ := hplace
      dsimp only
      rw [if_pos haccepted]
      simp
    · intro place live hplace hlive
      simp only [Submit.Phase.place, Option.ite_none_right_eq_some] at hplace
      have hcaptured := hf hplace.1 live hlive
      rw [hphase] at hcaptured
      exact .inl hcaptured
  | finish =>
    dsimp only at hs
    split at hs <;> cases hs
    rename_i hphase
    exact kept_finish h hphase
  | prompt text =>
    cases hs
    refine ⟨h.wellFormed, fun messages hm => (h.holds messages hm).append rfl, ?_, h.shown⟩
    intro place hplace
    have hlt := (List.getElem?_eq_some_iff.1 (h.place place hplace)).1
    dsimp only
    rw [List.getElem?_append_left hlt]
    exact h.place place hplace

/-- In every run of a submit next to reconnects and other tasks in which the histories are fresh, a session that is
open when the submit is through shows the message the gateway accepted. -/
theorem message_kept (submit : Submit) (registry : SessionRegistry) (events : List Event) (w : Exchange)
    (hrun : Run.exec (step submit) (start registry) events = some w)
    (hevents : Run.Meets (step submit) (fun w e => w.FromGateway submit e ∧ w.Fresh submit e) (start registry) events)
    {status : Option SubmitStatus} {number : Nat} (hphase : w.phase = .finished status number)
    (haccepted : acceptedStatus status = true) {live : LiveSession}
    (hlive : (w.sys.core.tab submit.key).live = some live) : submit.Shown live := by
  have hkept : w.Kept submit :=
    Run.exec_invariant _ (fun _ _ _ h hok hs => h.step hok.1 hok.2 hs) (kept_start submit registry) hevents hrun
  have hplace : w.phase.place = some number := by
    rw [hphase]
    exact if_pos haccepted
  rcases hkept.shown number live hplace hlive with hcaptured | hshown
  · rw [hphase] at hcaptured
    cases hcaptured
  · exact hshown

end Exchange

end

/-! ### Two submits that meet a rebuild -/

section

attribute [local instance] Serializer.compact

open Exchange

private def greeting : Submit := ⟨"chat", "hi", "hi"⟩

private def mint : Event := .step (.task (.openSession (.created ⟨"live", "chat", ""⟩) none 80)) 0

private def greetingHistory : List Value := [.object [("role", .string "user"), ("text", .string "hi")]]

/-- A reconnect up to the rebuild, the history of the chat being `messages` with `taken` prompts. -/
private def reconnect (messages : List Value) (taken : Nat) : List Event :=
  [.step (.connected "e2") 0, .step .advance 0, .step (.resumeReply (some ⟨"live", messages, ""⟩)) taken,
    .step .advance 0, .step (.sinceReply (some ⟨[], 0, true, "e2"⟩)) 0]

/-- The history is taken after the gateway accepted the prompt, and installed before the lock section. -/
private def freshRun : List Event :=
  [mint, .capture, .reply (some .streaming)] ++ reconnect greetingHistory 1 ++ [.step .advance 0, .finish]

private theorem fresh_step {w : Exchange} {label : Label} {taken : Nat} {a : Option Action} {supervisor : Supervisor}
    {epoch : String} (h : w.sys.next label = some (a, supervisor, epoch))
    (ha : ∀ b, a = some b → b.installs "chat" = true → ∀ place, w.phase.place = some place →
      place < w.installed taken b) : w.Fresh greeting (.step label taken) := by
  intro b supervisor' epoch' place hnext
  cases h.symm.trans hnext
  exact fun hinstalls => ha b rfl hinstalls place

theorem message_kept_fresh : ∃ w live, Run.exec (Exchange.step greeting) (start {}) freshRun = some w ∧
    (w.sys.core.tab "chat").live = some live ∧ greeting.Shown live := by
  refine ⟨_, _, rfl, rfl, ?_⟩
  refine message_kept greeting {} freshRun _ rfl ?_ rfl rfl rfl
  refine .cons _ rfl ⟨fun _ => ⟨Nat.zero_le _, rfl⟩, fresh_step rfl fun _ _ _ => nofun⟩ ?_
  refine .cons _ rfl ⟨trivial, trivial⟩ ?_
  refine .cons _ rfl ⟨trivial, ?_⟩ ?_
  · rintro - live ⟨⟩
    rfl
  refine .cons _ rfl ⟨trivial, fresh_step rfl nofun⟩ ?_
  refine .cons _ rfl ⟨trivial, fresh_step rfl nofun⟩ ?_
  refine .cons _ rfl ⟨fun _ _ _ => ⟨Nat.le_refl _, rfl⟩, fresh_step rfl nofun⟩ ?_
  refine .cons _ rfl ⟨trivial, fresh_step rfl ?_⟩ ?_
  · rintro b ⟨⟩ ⟨⟩
  refine .cons _ rfl ⟨trivial, fresh_step rfl nofun⟩ ?_
  refine .cons _ rfl ⟨trivial, fresh_step rfl ?_⟩ ?_
  · rintro b ⟨⟩ - place ⟨⟩
    exact Nat.zero_lt_one
  exact .cons _ rfl ⟨trivial, trivial⟩ trivial

/-- The history is taken before the submit, and installed before the lock section. -/
private def staleRun : List Event :=
  mint :: reconnect [] 0 ++ [.capture, .reply (some .streaming), .step .advance 0, .finish]

/-- The gateway accepted the prompt, the chat is open and both operations are through, but the message has no row. -/
theorem stale_history_loses_message : ∃ w live, Run.exec (Exchange.step greeting) (start {}) staleRun = some w ∧
    w.phase = .finished (some .streaming) 0 ∧ w.prompts = ["hi"] ∧ w.sys.supervisor = .resumeNext [] ∧
      (w.sys.core.tab "chat").live = some live ∧ live.reducer.state.rows = [] := by
  exact ⟨_, _, rfl, rfl, rfl, rfl, rfl, rfl⟩

end

end Hermo
