import Hermo.Core.Prompts
import Hermo.Library.Store

/-!
# The composer

`ChatFeature.swift`, and the composer of `ChatScreen.kt` with its part of `AppViewModel.kt`: the draft, the popup of
slash completions and the banner.  A new draft cancels the completion that is in flight.  A new banner cancels the
timer of the last one on iOS; on Android that timer goes on, and compares the generation it was started with.  How
Kotlin and Swift compare characters is a parameter.
-/

namespace Hermo

open Operations (SlashOutcome)
open Run (exec Meets)
open Store (Feature System)

/-! ### What both apps share -/

/-- How an app reads a draft: its `trim`, whether it has the prefix `/`, and whether it contains a space. -/
structure DraftReading where
  trim : String → String
  hasSlash : String → Bool
  hasSpace : String → Bool

namespace SlashPolicy

def shouldComplete (r : DraftReading) (draft : String) : Bool := r.hasSlash draft && !r.hasSpace draft

def isLocalCommand (r : DraftReading) (draft : String) : Bool :=
  ["/clear", "/sessions", "/quit"].contains (r.trim draft)

def isSlashSubmit (r : DraftReading) (draft : String) : Bool := r.hasSlash draft

end SlashPolicy

open SlashPolicy

structure SlashCompletionRow where
  text : String
  display : String
  kind : String
  description : String

structure SlashCompletionsDto where
  items : List SlashCompletionRow
  replaceFrom : Int

structure Composer where
  draft : String := ""
  slashCompletions : List SlashCompletionRow := []
  slashReplaceFrom : Int := 1
  slashBanner : String := ""

/-- The draft after an edit, and the text to complete. -/
def Composer.draftChanged (r : DraftReading) (s : Composer) (text : String) : Composer × Option String :=
  if shouldComplete r text then ({ s with draft := text }, some text)
  else ({ s with draft := text, slashCompletions := [] }, none)

def Composer.completionsLoaded (s : Composer) (dto : SlashCompletionsDto) : Composer :=
  { s with slashReplaceFrom := dto.replaceFrom, slashCompletions := dto.items }

def noOpenSessionToSend : String := "No open session to send into"

def quitBannerText : String := "Quitting is a desktop command — the phone stays ready."

/-- What a call of the composer comes back with. -/
inductive ComposerAnswer where
  | slept
  | completions (dto : SlashCompletionsDto)
  | outcome (outcome : SlashOutcome)
  | done
  /-- What `ErrorMessages` makes of an error, and the message of the core. -/
  | failed (text rustMessage : String)
  /-- A `tryEmit` into a full buffer. -/
  | dropped

/-- The popup goes with the draft: it shows only while the draft is a token to complete, and a completion in flight is
one of the draft. -/
structure Popup {ε : Type} (r : DraftReading) (completes : ε → Option String) (s : Composer) (effects : List ε) :
    Prop where
  shown : s.slashCompletions ≠ [] → shouldComplete r s.draft = true
  current : ∀ e ∈ effects, ∀ text, completes e = some text → text = s.draft ∧ shouldComplete r text = true

namespace Popup

variable {ε : Type} {r : DraftReading} {completes : ε → Option String} {s s' : Composer} {effects effects' : List ε}

theorem keep (h : Popup r completes s effects) (hdraft : s'.draft = s.draft)
    (hshown : s'.slashCompletions = s.slashCompletions ∨ s'.slashCompletions = [])
    (heffects : ∀ e ∈ effects', ∀ text, completes e = some text → ∃ e' ∈ effects, completes e' = some text) :
    Popup r completes s' effects' := by
  refine ⟨fun hne => ?_, fun e he text htext => ?_⟩
  · rcases hshown with hshown | hshown
    · rw [hdraft]
      exact h.shown (hshown ▸ hne)
    · exact absurd hshown hne
  · obtain ⟨e', he', htext'⟩ := heffects e he text htext
    rw [hdraft]
    exact h.current e' he' text htext'

theorem cleared (hshown : s'.slashCompletions = []) (heffects : ∀ e ∈ effects', completes e = none) :
    Popup r completes s' effects' := by
  refine ⟨fun hne => absurd hshown hne, fun e he text htext => ?_⟩
  cases (heffects e he).symm.trans htext

/-- An edit that cancels what is in flight. -/
theorem draftChanged (text : String) (kept : List ε) (start : String → ε) (hkept : ∀ e ∈ kept, completes e = none)
    (hstart : ∀ text, completes (start text) = some text) :
    Popup r completes (s.draftChanged r text).1 (kept ++ ((s.draftChanged r text).2.map start).toList) := by
  unfold Composer.draftChanged
  split
  · rename_i hcompletes
    refine ⟨fun _ => hcompletes, fun e he text' htext => ?_⟩
    rcases List.mem_append.1 he with he | he
    · cases (hkept e he).symm.trans htext
    · cases List.mem_singleton.1 he
      cases (hstart text).symm.trans htext
      exact ⟨rfl, hcompletes⟩
  · refine cleared rfl fun e he => ?_
    rcases List.mem_append.1 he with he | he
    · exact hkept e he
    · cases he

/-- A completion of the draft arrives. -/
theorem loaded (h : Popup r completes s effects) {e : ε} (he : e ∈ effects) {text : String}
    (htext : completes e = some text) (dto : SlashCompletionsDto)
    (heffects : ∀ e ∈ effects', e ∈ effects) : Popup r completes (s.completionsLoaded dto) effects' := by
  obtain ⟨rfl, hcompletes⟩ := h.current e he text htext
  exact ⟨fun _ => hcompletes, fun e he => h.current e (heffects e he)⟩

end Popup

/-! ### iOS -/

namespace ChatFeature

inductive Delegate where
  | reportError (message : String)
  | openSessionPicker

inductive Action where
  | draftChanged (text : String)
  | dismissCompletions
  | completionsLoaded (dto : SlashCompletionsDto)
  | send (key : Option String)
  | slashOutcomeReceived (outcome : SlashOutcome)
  | delegate (delegate : Delegate)
  | bannerCleared
  | interrupt (key : String)
  | respondApproval (key : Option String) (requestId choice : String)
  | respondClarify (key : Option String) (requestId answer questionId : String)

inductive Effect where
  | debouncing (text : String)
  | completing (text : String)
  | runningSlash (key command : String)
  | sending (key text : String)
  /-- The timer of a banner, with its text. -/
  | clearing (text : String)
  | interrupting (key : String)
  | respondingApproval (key requestId choice : String)
  | respondingClarify (key requestId answer : String) (questionId : Option String)
  /-- `.send(.delegate(..))`. -/
  | delegating (delegate : Delegate)

/-- The draft an effect completes: `CancelID.completion`. -/
def Effect.completes : Effect → Option String
  | .debouncing text | .completing text => some text
  | _ => none

/-- The banner an effect clears: `CancelID.banner`. -/
def Effect.clears : Effect → Option String
  | .clearing text => some text
  | _ => none

def noOpenSessionToAnswer : String := "No open session to answer in"

def showBanner (s : Composer) (text : String) : Composer × List Effect :=
  ({ s with slashBanner := text }, [.clearing text])

def handleLocalCommand (s : Composer) (command : String) : Composer × List Effect :=
  if command = "/clear" then (s, [])
  else if command = "/sessions" then (s, [.delegating .openSessionPicker])
  else if command = "/quit" then showBanner s quitBannerText
  else (s, [])

def handleSend (r : DraftReading) (s : Composer) (key : Option String) : Composer × List Effect :=
  let text := s.draft
  let command := r.trim text
  if command = "" then (s, [])
  else
    let s := { s with draft := "", slashCompletions := [] }
    if isLocalCommand r command then handleLocalCommand s command
    else
      match key with
      | none => (s, [.delegating (.reportError noOpenSessionToSend)])
      | some key => (s, [if isSlashSubmit r command then .runningSlash key command else .sending key text])

def reduce (r : DraftReading) (s : Composer) : Action → Composer × List Effect
  | .draftChanged text => ((s.draftChanged r text).1, ((s.draftChanged r text).2.map .debouncing).toList)
  | .dismissCompletions => ({ s with slashCompletions := [] }, [])
  | .completionsLoaded dto => (s.completionsLoaded dto, [])
  | .send key => handleSend r s key
  | .slashOutcomeReceived (.output text) => showBanner s text
  | .slashOutcomeReceived (.prefill text) => ({ s with draft := text }, [])
  | .slashOutcomeReceived _ => (s, [])
  | .delegate _ => (s, [])
  | .bannerCleared => ({ s with slashBanner := "" }, [])
  | .interrupt key => (s, [.interrupting key])
  | .respondApproval none _ _ | .respondClarify none _ _ _ => (s, [.delegating (.reportError noOpenSessionToAnswer)])
  | .respondApproval (some key) requestId choice => (s, [.respondingApproval key requestId choice])
  | .respondClarify (some key) requestId answer questionId =>
    (s, [.respondingClarify key requestId answer (if questionId = "" then none else some questionId)])

/-- The action shows a banner. -/
def shows (r : DraftReading) (s : Composer) : Action → Bool
  | .slashOutcomeReceived (.output _) => true
  | .send _ => r.trim s.draft != "" && isLocalCommand r (r.trim s.draft) && r.trim s.draft == "/quit"
  | _ => false

/-- The action cancels the completion. -/
def dismisses (r : DraftReading) (s : Composer) : Action → Bool
  | .draftChanged _ | .dismissCompletions => true
  | .send _ => r.trim s.draft != ""
  | _ => false

def cancels (r : DraftReading) (s : Composer) (a : Action) (e : Effect) : Bool :=
  (dismisses r s a && e.completes.isSome) || (shows r s a && e.clears.isSome)

def resume : Effect → ComposerAnswer → Option (Option Action × Option Effect)
  | .debouncing text, .slept => some (none, some (.completing text))
  | .completing _, .completions dto => some (some (.completionsLoaded dto), none)
  | .completing _, .failed _ _ => some (none, none)
  | .runningSlash _ _, .outcome outcome => some (some (.slashOutcomeReceived outcome), none)
  | .clearing _, .slept => some (some .bannerCleared, none)
  | .sending _ _, .done | .interrupting _, .done => some (none, none)
  | .respondingApproval _ _ _, .done | .respondingClarify _ _ _ _, .done => some (none, none)
  | .runningSlash _ _, .failed text _ | .sending _ _, .failed text _ | .interrupting _, .failed text _ =>
    some (some (.delegate (.reportError text)), none)
  | .respondingApproval _ _ _, .failed text rustMessage | .respondingClarify _ _ _ _, .failed text rustMessage =>
    some (some (.delegate (.reportError ((approvalRespondErrorCopy (some rustMessage)).getD text))), none)
  | .delegating delegate, .done => some (some (.delegate delegate), none)
  | _, _ => none

/-- The screen sends these. -/
def sent : Action → Bool
  | .draftChanged _ | .dismissCompletions | .send _ | .interrupt _ => true
  | .respondApproval _ _ _ | .respondClarify _ _ _ _ => true
  | _ => false

def feature (r : DraftReading) : Feature Composer Action Effect ComposerAnswer :=
  ⟨fun s a => some (reduce r s a), cancels r, resume, sent⟩

def start : System Composer Effect := ⟨{}, []⟩

end ChatFeature

/-! ### Android -/

namespace AppViewModel

structure State extends Composer where
  bannerGeneration : Nat := 0

inductive Action where
  | draftChanged (text : String)
  | dismissCompletions
  | send (text : String)
  /-- What the coroutines do behind a suspension. -/
  | completionsLoaded (dto : SlashCompletionsDto)
  | applySlashOutcome (outcome : SlashOutcome)
  | bannerElapsed (generation : Nat)

inductive Effect where
  /-- The `completionJob`. -/
  | debouncing (text : String)
  | completing (text : String)
  | runningSlash (command : String)
  | sending (text : String)
  /-- The timer of a banner, with the generation it compares and the text of its banner. -/
  | timing (generation : Nat) (text : String)
  /-- A `ComposerEvent.Prefill` on its way to the screen. -/
  | prefilling (text : String)

def Effect.completes : Effect → Option String
  | .debouncing text | .completing text => some text
  | _ => none

def showSlashBanner (s : State) (text : String) : State × List Effect :=
  ({ s with bannerGeneration := s.bannerGeneration + 1, slashBanner := text }, [.timing (s.bannerGeneration + 1) text])

def handleLocalCommand (s : State) (command : String) : State × List Effect :=
  if command = "/quit" then showSlashBanner s quitBannerText else (s, [])

def send (r : DraftReading) (s : State) (text : String) : State × List Effect :=
  let command := r.trim text
  if command = "" then (s, [])
  else if isLocalCommand r command then handleLocalCommand s command
  else (s, [if isSlashSubmit r command then .runningSlash command else .sending text])

def reduce (r : DraftReading) (s : State) : Action → State × List Effect
  | .draftChanged text =>
    ({ s with toComposer := (s.draftChanged r text).1 }, ((s.draftChanged r text).2.map .debouncing).toList)
  | .dismissCompletions => ({ s with slashCompletions := [] }, [])
  | .send text => send r s text
  | .completionsLoaded dto => ({ s with toComposer := s.completionsLoaded dto }, [])
  | .applySlashOutcome (.output text) => showSlashBanner s text
  | .applySlashOutcome (.prefill text) => (s, [.prefilling text])
  | .applySlashOutcome _ => (s, [])
  | .bannerElapsed generation => (if s.bannerGeneration = generation then { s with slashBanner := "" } else s, [])

/-- `completionJob?.cancel()`. -/
def cancels (_ : State) (a : Action) (e : Effect) : Bool :=
  match a with
  | .draftChanged _ | .dismissCompletions => e.completes.isSome
  | _ => false

def resume : Effect → ComposerAnswer → Option (Option Action × Option Effect)
  | .debouncing text, .slept => some (none, some (.completing text))
  | .completing _, .completions dto => some (some (.completionsLoaded dto), none)
  | .completing _, .failed _ _ | .runningSlash _, .failed _ _ | .sending _, .done | .sending _, .failed _ _
  | .prefilling _, .dropped => some (none, none)
  | .runningSlash _, .outcome outcome => some (some (.applySlashOutcome outcome), none)
  | .timing generation _, .slept => some (some (.bannerElapsed generation), none)
  | .prefilling text, .done => some (some (.draftChanged text), none)
  | _, _ => none

def sent : Action → Bool
  | .draftChanged _ | .dismissCompletions | .send _ => true
  | _ => false

def feature (r : DraftReading) : Feature State Action Effect ComposerAnswer :=
  ⟨fun s a => some (reduce r s a), cancels, resume, sent⟩

def start : System State Effect := ⟨{}, []⟩

end AppViewModel

namespace Popup

/-- Effects that complete nothing start no completion. -/
theorem of_send {ε : Type} {completes : ε → Option String} {effects started : List ε} (p : ε → Bool)
    (hstarted : ∀ e ∈ started, completes e = none) :
    ∀ e ∈ effects.filter p ++ started, ∀ text, completes e = some text → ∃ e' ∈ effects, completes e' = some text := by
  intro e he text htext
  rcases Feature.mem_send (s := ⟨(), effects⟩) he with he | he
  · exact ⟨e, he, htext⟩
  · cases (hstarted e he).symm.trans htext

/-- An effect was resumed, and goes on with a completion only where there was one. -/
theorem resumed {σ ε : Type} {r : DraftReading} {completes : ε → Option String} {w : System σ ε} {s : Composer}
    (h : Popup r completes s w.effects) {i : Nat} {rest : Option ε}
    (hrest : ∀ e, rest = some e → ∀ text, completes e = some text → ∃ e' ∈ w.effects, completes e' = some text) :
    Popup r completes s (Feature.after w i rest).effects := by
  refine h.keep rfl (.inl rfl) fun e he text htext => ?_
  rcases Feature.mem_after he with he | heq
  · exact ⟨e, he, htext⟩
  · exact hrest e heq text htext

end Popup

namespace ChatFeature

section

variable {r : DraftReading} {w w' : System Composer Effect} {s : Composer}

/-- What an effect makes of an answer. -/
theorem resume_cases {e : Effect} {answer : ComposerAnswer} {action : Option Action} {rest : Option Effect}
    (h : resume e answer = some (action, rest)) :
    (∃ text, e = .debouncing text ∧ action = none ∧ rest = some (.completing text)) ∨
      (rest = none ∧ ((∃ text dto, e = .completing text ∧ action = some (.completionsLoaded dto)) ∨
        (∃ outcome, answer = .outcome outcome ∧ action = some (.slashOutcomeReceived outcome)) ∨
        action = some .bannerCleared ∨ action = none ∨ ∃ d, action = some (.delegate d))) := by
  unfold resume at h
  split at h <;> cases h <;> simp

theorem send_eq {a : Action} (h : (feature r).send w a = some w') :
    w' = ⟨(reduce r w.state a).1, w.effects.filter (fun e => !cancels r w.state a e) ++ (reduce r w.state a).2⟩ :=
  (Option.some_inj.1 h).symm

theorem kept_of_dismisses {a : Action} (h : dismisses r s a = true) (effects : List Effect) :
    ∀ e ∈ effects.filter (fun e => !cancels r s a e), e.completes = none := by
  intro e he
  have hcancels := (List.mem_filter.1 he).2
  simp only [cancels, h, Bool.true_and, Bool.not_or, Bool.and_eq_true] at hcancels
  simpa using hcancels.1

/-- A banner starts a timer, and what else a submit starts completes nothing. -/
theorem handleSend_eq (r : DraftReading) (s : Composer) (key : Option String) :
    (r.trim s.draft = "" ∧ handleSend r s key = (s, [])) ∨
      (r.trim s.draft ≠ "" ∧ (handleSend r s key).1.slashCompletions = [] ∧
        (∀ e ∈ (handleSend r s key).2, e.completes = none) ∧
        ((shows r s (.send key) = true ∧ (handleSend r s key).1.slashBanner = quitBannerText ∧
          (handleSend r s key).2 = [.clearing quitBannerText]) ∨
          ((handleSend r s key).1.slashBanner = s.slashBanner ∧ ∀ e ∈ (handleSend r s key).2, e.clears = none))) := by
  by_cases hblank : r.trim s.draft = ""
  · exact .inl ⟨hblank, if_pos hblank⟩
  · refine .inr ⟨hblank, ?_⟩
    unfold handleSend
    dsimp only
    rw [if_neg hblank]
    by_cases hlocal : isLocalCommand r (r.trim s.draft) = true
    · rw [if_pos hlocal]
      unfold handleLocalCommand
      by_cases hclear : r.trim s.draft = "/clear"
      · simp [hclear]
      · rw [if_neg hclear]
        by_cases hsessions : r.trim s.draft = "/sessions"
        · simp [hsessions, Effect.completes, Effect.clears]
        · rw [if_neg hsessions]
          by_cases hquit : r.trim s.draft = "/quit"
          · rw [if_pos hquit]
            rw [hquit] at hlocal
            simp [showBanner, Effect.completes, shows, hquit, hlocal]
          · simp [hquit]
    · rw [if_neg hlocal]
      cases key with
      | none => simp [Effect.completes, Effect.clears]
      | some key =>
        dsimp only
        split <;> simp [Effect.completes, Effect.clears]

/-- The slash command that was run asks for a draft of its own. -/
def prefills : Store.Label Action ComposerAnswer → Bool
  | .resume _ (.outcome (.prefill _)) => true
  | _ => false

/-- No prefill comes while the popup shows or a completion is in flight. -/
def Quiet (w : System Composer Effect) (l : Store.Label Action ComposerAnswer) : Prop :=
  prefills l = true → w.state.slashCompletions = [] ∧ ∀ e ∈ w.effects, e.completes = none

instance (w : System Composer Effect) (l : Store.Label Action ComposerAnswer) : Decidable (Quiet w l) :=
  inferInstanceAs (Decidable (_ → _))

theorem popup_send {a : Action} (h : Popup r Effect.completes w.state w.effects)
    (hloaded : ∀ dto, a ≠ .completionsLoaded dto)
    (hquiet : ∀ text, a = .slashOutcomeReceived (.prefill text) →
      w.state.slashCompletions = [] ∧ ∀ e ∈ w.effects, e.completes = none)
    (hsend : (feature r).send w a = some w') : Popup r Effect.completes w'.state w'.effects := by
  rw [send_eq hsend]
  dsimp only
  -- the actions that leave the draft and the popup as they are
  have hsame (hdraft : (reduce r w.state a).1.draft = w.state.draft)
      (hshown : (reduce r w.state a).1.slashCompletions = w.state.slashCompletions)
      (hstarted : ∀ e ∈ (reduce r w.state a).2, e.completes = none) :
      Popup r Effect.completes (reduce r w.state a).1
        (w.effects.filter (fun e => !cancels r w.state a e) ++ (reduce r w.state a).2) :=
    h.keep hdraft (.inl hshown) (Popup.of_send _ hstarted)
  have hdismissed (hdismisses : dismisses r w.state a = true) (hshown : (reduce r w.state a).1.slashCompletions = [])
      (hstarted : ∀ e ∈ (reduce r w.state a).2, e.completes = none) :
      Popup r Effect.completes (reduce r w.state a).1
        (w.effects.filter (fun e => !cancels r w.state a e) ++ (reduce r w.state a).2) := by
    refine Popup.cleared hshown fun e he => ?_
    rcases List.mem_append.1 he with he | he
    · exact kept_of_dismisses hdismisses w.effects e he
    · exact hstarted e he
  cases a with
  | draftChanged text =>
    exact Popup.draftChanged text _ Effect.debouncing (kept_of_dismisses rfl w.effects) fun _ => rfl
  | dismissCompletions => exact hdismissed rfl rfl nofun
  | completionsLoaded dto => exact absurd rfl (hloaded dto)
  | send key =>
    rcases handleSend_eq r w.state key with ⟨-, heq⟩ | ⟨hblank, hshown, hstarted, -⟩
    · exact hsame (congrArg (·.1.draft) heq) (congrArg (·.1.slashCompletions) heq) (by simp [reduce, heq])
    · exact hdismissed (by simpa [dismisses] using hblank) hshown hstarted
  | slashOutcomeReceived outcome =>
    cases outcome with
    | output text => exact hsame rfl rfl (List.forall_mem_singleton.2 rfl)
    | prefill text =>
      obtain ⟨hshown, heffects⟩ := hquiet text rfl
      refine Popup.cleared hshown fun e he => ?_
      rcases List.mem_append.1 he with he | he
      · exact heffects e (List.mem_filter.1 he).1
      · cases he
    | submitted => exact hsame rfl rfl nofun
    | empty => exact hsame rfl rfl nofun
  | delegate d => exact hsame rfl rfl nofun
  | bannerCleared => exact hsame rfl rfl nofun
  | interrupt key => exact hsame rfl rfl (List.forall_mem_singleton.2 rfl)
  | respondApproval key requestId choice => cases key <;> exact hsame rfl rfl (List.forall_mem_singleton.2 rfl)
  | respondClarify key requestId answer questionId =>
    cases key <;> exact hsame rfl rfl (List.forall_mem_singleton.2 rfl)

theorem popup_step {l : Store.Label Action ComposerAnswer} (h : Popup r Effect.completes w.state w.effects)
    (hquiet : Quiet w l) (hstep : (feature r).step w l = some w') : Popup r Effect.completes w'.state w'.effects := by
  cases l with
  | send a =>
    obtain ⟨hsent, hsend⟩ := Feature.step_send hstep
    refine popup_send h ?_ ?_ hsend
    · rintro dto rfl
      cases hsent
    · rintro text rfl
      cases hsent
  | resume i answer =>
    obtain ⟨e, action, rest, he, hresume, hafter⟩ := Feature.step_resume hstep
    have hmem : e ∈ w.effects := List.mem_of_getElem? he
    rcases resume_cases hresume with ⟨text, rfl, rfl, rfl⟩ | ⟨rfl, hcases⟩
    · -- the debounce is over, and the request goes out
      obtain ⟨-, rfl⟩ | ⟨a, ha, -⟩ := hafter
      · refine h.resumed fun e' heq text' htext => ?_
        cases heq
        exact ⟨_, hmem, htext⟩
      · cases ha
    · have hsub : ∀ e' ∈ (Feature.after w i none).effects, e' ∈ w.effects :=
        fun e' he' => (Feature.mem_after he').resolve_right (by simp)
      have hrest : Popup r Effect.completes (Feature.after w i none).state (Feature.after w i none).effects :=
        h.resumed fun e' heq => by cases heq
      obtain ⟨-, rfl⟩ | ⟨a, ha, hsend⟩ := hafter
      · exact hrest
      · rcases hcases with ⟨text, dto, rfl, rfl⟩ | ⟨outcome, rfl, rfl⟩ | rfl | rfl | ⟨d, rfl⟩ <;> cases ha
        · rw [send_eq hsend]
          refine h.loaded hmem rfl dto fun e' he' => ?_
          rcases List.mem_append.1 he' with he' | he'
          · exact hsub e' (List.mem_filter.1 he').1
          · cases he'
        · refine popup_send hrest (fun dto heq => by cases heq) ?_ hsend
          intro text heq
          cases heq
          obtain ⟨hshown, heffects⟩ := hquiet rfl
          exact ⟨hshown, fun e' he' => heffects e' (hsub e' he')⟩
        · exact popup_send hrest (fun dto heq => by cases heq) (fun text heq => by cases heq) hsend
        · exact popup_send hrest (fun dto heq => by cases heq) (fun text heq => by cases heq) hsend

/-- The timers in flight clear no other banner than their own. -/
def Timers (w : System Composer Effect) : Prop :=
  ∀ e ∈ w.effects, ∀ text, e.clears = some text → w.state.slashBanner = text ∨ w.state.slashBanner = ""

theorem timers_send {a : Action} (h : Timers w) (hsend : (feature r).send w a = some w') : Timers w' := by
  rw [send_eq hsend]
  have hkept (hbanner : (reduce r w.state a).1.slashBanner = w.state.slashBanner ∨
      (reduce r w.state a).1.slashBanner = "") (hstarted : ∀ e ∈ (reduce r w.state a).2, e.clears = none) :
      Timers ⟨(reduce r w.state a).1,
        w.effects.filter (fun e => !cancels r w.state a e) ++ (reduce r w.state a).2⟩ := by
    intro e he text htext
    rcases List.mem_append.1 he with he | he
    · rcases hbanner with hbanner | hbanner
      · dsimp only
        rw [hbanner]
        exact h e (List.mem_filter.1 he).1 text htext
      · exact .inr hbanner
    · cases (hstarted e he).symm.trans htext
  -- a new banner cancels the timers of the others
  have hnew {text : String} (hshows : shows r w.state a = true) (hbanner : (reduce r w.state a).1.slashBanner = text)
      (hstarted : (reduce r w.state a).2 = [.clearing text]) :
      Timers ⟨(reduce r w.state a).1,
        w.effects.filter (fun e => !cancels r w.state a e) ++ (reduce r w.state a).2⟩ := by
    intro e he text' htext
    rcases List.mem_append.1 he with he | he
    · have hcancels := (List.mem_filter.1 he).2
      simp [cancels, hshows, htext] at hcancels
    · rw [hstarted] at he
      cases List.mem_singleton.1 he
      cases htext
      exact .inl hbanner
  cases a with
  | draftChanged text =>
    refine hkept (.inl ?_) ?_ <;> unfold reduce <;> dsimp only <;> unfold Composer.draftChanged
    · split <;> rfl
    · split
      · exact List.forall_mem_singleton.2 rfl
      · exact nofun
  | dismissCompletions => exact hkept (.inl rfl) nofun
  | completionsLoaded dto => exact hkept (.inl rfl) nofun
  | send key =>
    rcases handleSend_eq r w.state key with ⟨-, heq⟩ | ⟨-, -, -, ⟨hshows, hbanner, hstarted⟩ | ⟨hbanner, hstarted⟩⟩
    · exact hkept (.inl (congrArg (·.1.slashBanner) heq)) (by simp [reduce, heq])
    · exact hnew hshows hbanner hstarted
    · exact hkept (.inl hbanner) hstarted
  | slashOutcomeReceived outcome =>
    cases outcome with
    | output text => exact hnew rfl rfl rfl
    | prefill text => exact hkept (.inl rfl) nofun
    | submitted => exact hkept (.inl rfl) nofun
    | empty => exact hkept (.inl rfl) nofun
  | delegate d => exact hkept (.inl rfl) nofun
  | bannerCleared => exact hkept (.inr rfl) nofun
  | interrupt key => exact hkept (.inl rfl) (List.forall_mem_singleton.2 rfl)
  | respondApproval key requestId choice => cases key <;> exact hkept (.inl rfl) (List.forall_mem_singleton.2 rfl)
  | respondClarify key requestId answer questionId =>
    cases key <;> exact hkept (.inl rfl) (List.forall_mem_singleton.2 rfl)

theorem timers_step {l : Store.Label Action ComposerAnswer} (h : Timers w) (hstep : (feature r).step w l = some w') :
    Timers w' := by
  cases l with
  | send a => exact timers_send h (Feature.step_send hstep).2
  | resume i answer =>
    obtain ⟨e, action, rest, -, hresume, hafter⟩ := Feature.step_resume hstep
    have hrest : Timers (Feature.after w i rest) := by
      intro e' he' text htext
      rcases Feature.mem_after he' with he' | heq
      · exact h e' he' text htext
      · rcases resume_cases hresume with ⟨text', -, -, rfl⟩ | ⟨rfl, -⟩ <;> cases heq
        cases htext
    obtain ⟨-, rfl⟩ | ⟨a, -, hsend⟩ := hafter
    · exact hrest
    · exact timers_send hrest hsend

end

end ChatFeature

namespace AppViewModel

section

variable {r : DraftReading} {w w' : System State Effect}

theorem resume_cases {e : Effect} {answer : ComposerAnswer} {action : Option Action} {rest : Option Effect}
    (h : resume e answer = some (action, rest)) :
    (∃ text, e = .debouncing text ∧ action = none ∧ rest = some (.completing text)) ∨
      (rest = none ∧ ((∃ text dto, e = .completing text ∧ action = some (.completionsLoaded dto)) ∨
        (∃ outcome, action = some (.applySlashOutcome outcome)) ∨
        (∃ generation text, e = .timing generation text ∧ action = some (.bannerElapsed generation)) ∨
        action = none ∨ ∃ text, action = some (.draftChanged text))) := by
  unfold resume at h
  split at h <;> cases h <;> simp

theorem send_eq {a : Action} (h : (feature r).send w a = some w') :
    w' = ⟨(reduce r w.state a).1, w.effects.filter (fun e => !cancels w.state a e) ++ (reduce r w.state a).2⟩ :=
  (Option.some_inj.1 h).symm

/-- A submit leaves the draft and the popup to the screen. -/
theorem send_cases (r : DraftReading) (s : State) (text : String) :
    send r s text = showSlashBanner s quitBannerText ∨
      ((send r s text).1 = s ∧ ∀ e ∈ (send r s text).2,
        e.completes = none ∧ ∀ generation text, e ≠ .timing generation text) := by
  unfold send
  dsimp only
  split
  · exact .inr ⟨rfl, nofun⟩
  · split
    · unfold handleLocalCommand
      split
      · exact .inl rfl
      · exact .inr ⟨rfl, nofun⟩
    · refine .inr ⟨rfl, List.forall_mem_singleton.2 ?_⟩
      split <;> exact ⟨rfl, nofun⟩

theorem popup_send {a : Action} (h : Popup r Effect.completes w.state.toComposer w.effects)
    (hloaded : ∀ dto, a ≠ .completionsLoaded dto) (hsend : (feature r).send w a = some w') :
    Popup r Effect.completes w'.state.toComposer w'.effects := by
  rw [send_eq hsend]
  dsimp only
  have hsame (hdraft : (reduce r w.state a).1.draft = w.state.draft)
      (hshown : (reduce r w.state a).1.slashCompletions = w.state.slashCompletions)
      (hstarted : ∀ e ∈ (reduce r w.state a).2, e.completes = none) :
      Popup r Effect.completes (reduce r w.state a).1.toComposer
        (w.effects.filter (fun e => !cancels w.state a e) ++ (reduce r w.state a).2) :=
    h.keep hdraft (.inl hshown) (Popup.of_send _ hstarted)
  cases a with
  | draftChanged text =>
    refine Popup.draftChanged text _ Effect.debouncing (fun e he => ?_) fun _ => rfl
    simpa [cancels] using (List.mem_filter.1 he).2
  | dismissCompletions =>
    refine Popup.cleared rfl fun e he => ?_
    rcases List.mem_append.1 he with he | he
    · simpa [cancels] using (List.mem_filter.1 he).2
    · cases he
  | send text =>
    rcases send_cases r w.state text with heq | ⟨hstate, hstarted⟩
    · refine hsame (congrArg (·.1.draft) heq) (congrArg (·.1.slashCompletions) heq) ?_
      simp [reduce, heq, showSlashBanner, Effect.completes]
    · exact hsame (congrArg (·.draft) hstate) (congrArg (·.slashCompletions) hstate) fun e he => (hstarted e he).1
  | completionsLoaded dto => exact absurd rfl (hloaded dto)
  | applySlashOutcome outcome =>
    cases outcome with
    | output text => exact hsame rfl rfl (List.forall_mem_singleton.2 rfl)
    | prefill text => exact hsame rfl rfl (List.forall_mem_singleton.2 rfl)
    | submitted => exact hsame rfl rfl nofun
    | empty => exact hsame rfl rfl nofun
  | bannerElapsed generation =>
    refine hsame ?_ ?_ nofun <;> unfold reduce <;> dsimp only <;> split <;> rfl

theorem popup_step {l : Store.Label Action ComposerAnswer}
    (h : Popup r Effect.completes w.state.toComposer w.effects) (hstep : (feature r).step w l = some w') :
    Popup r Effect.completes w'.state.toComposer w'.effects := by
  cases l with
  | send a =>
    obtain ⟨hsent, hsend⟩ := Feature.step_send hstep
    refine popup_send h ?_ hsend
    rintro dto rfl
    cases hsent
  | resume i answer =>
    obtain ⟨e, action, rest, he, hresume, hafter⟩ := Feature.step_resume hstep
    have hmem : e ∈ w.effects := List.mem_of_getElem? he
    rcases resume_cases hresume with ⟨text, rfl, rfl, rfl⟩ | ⟨rfl, hcases⟩
    · obtain ⟨-, rfl⟩ | ⟨a, ha, -⟩ := hafter
      · refine h.resumed fun e' heq text' htext => ?_
        cases heq
        exact ⟨_, hmem, htext⟩
      · cases ha
    · have hsub : ∀ e' ∈ (Feature.after w i none).effects, e' ∈ w.effects :=
        fun e' he' => (Feature.mem_after he').resolve_right (by simp)
      have hrest : Popup r Effect.completes (Feature.after w i none).state.toComposer
          (Feature.after w i none).effects :=
        h.resumed fun e' heq => by cases heq
      obtain ⟨-, rfl⟩ | ⟨a, ha, hsend⟩ := hafter
      · exact hrest
      · rcases hcases with ⟨text, dto, rfl, rfl⟩ | ⟨outcome, rfl⟩ | ⟨generation, text, -, rfl⟩ | rfl | ⟨text, rfl⟩ <;>
          cases ha
        · rw [send_eq hsend]
          refine h.loaded hmem rfl dto fun e' he' => ?_
          rcases List.mem_append.1 he' with he' | he'
          · exact hsub e' (List.mem_filter.1 he').1
          · cases he'
        · exact popup_send hrest (fun dto heq => by cases heq) hsend
        · exact popup_send hrest (fun dto heq => by cases heq) hsend
        · exact popup_send hrest (fun dto heq => by cases heq) hsend

/-- The timer of the last generation clears no other banner than its own. -/
def Timers (w : System State Effect) : Prop :=
  ∀ generation text, .timing generation text ∈ w.effects → generation ≤ w.state.bannerGeneration ∧
    (generation = w.state.bannerGeneration → w.state.slashBanner = text ∨ w.state.slashBanner = "")

theorem timers_send {a : Action} (h : Timers w) (hsend : (feature r).send w a = some w') : Timers w' := by
  rw [send_eq hsend]
  have hkept (hgeneration : (reduce r w.state a).1.bannerGeneration = w.state.bannerGeneration)
      (hbanner : (reduce r w.state a).1.slashBanner = w.state.slashBanner ∨ (reduce r w.state a).1.slashBanner = "")
      (hstarted : ∀ generation text, .timing generation text ∉ (reduce r w.state a).2) :
      Timers ⟨(reduce r w.state a).1,
        w.effects.filter (fun e => !cancels w.state a e) ++ (reduce r w.state a).2⟩ := by
    intro generation text hmem
    rcases List.mem_append.1 hmem with hmem | hmem
    · obtain ⟨hle, hown⟩ := h generation text (List.mem_filter.1 hmem).1
      dsimp only
      rw [hgeneration]
      refine ⟨hle, fun heq => ?_⟩
      rcases hbanner with hbanner | hbanner
      · rw [hbanner]
        exact hown heq
      · exact .inr hbanner
    · exact absurd hmem (hstarted generation text)
  have hnew {text : String} (heq : reduce r w.state a = showSlashBanner w.state text) :
      Timers ⟨(reduce r w.state a).1,
        w.effects.filter (fun e => !cancels w.state a e) ++ (reduce r w.state a).2⟩ := by
    intro generation text' hmem
    rw [heq] at hmem ⊢
    rcases List.mem_append.1 hmem with hmem | hmem
    · -- the timers of earlier banners are of earlier generations
      have hle := (h generation text' (List.mem_filter.1 hmem).1).1
      refine ⟨Nat.le_succ_of_le hle, fun hsame => ?_⟩
      exact absurd (hsame ▸ hle) (Nat.not_succ_le_self _)
    · cases List.mem_singleton.1 hmem
      exact ⟨Nat.le_refl _, fun _ => .inl rfl⟩
  cases a with
  | draftChanged text =>
    refine hkept rfl (.inl ?_) ?_ <;> unfold reduce <;> dsimp only <;> unfold Composer.draftChanged
    · split <;> rfl
    · split <;> simp
  | dismissCompletions => exact hkept rfl (.inl rfl) nofun
  | send text =>
    rcases send_cases r w.state text with heq | ⟨hstate, hstarted⟩
    · exact hnew heq
    · exact hkept (congrArg (·.bannerGeneration) hstate) (.inl (congrArg (·.slashBanner) hstate))
        fun generation text hmem => (hstarted _ hmem).2 generation text rfl
  | completionsLoaded dto => exact hkept rfl (.inl rfl) nofun
  | applySlashOutcome outcome =>
    cases outcome with
    | output text => exact hnew rfl
    | prefill text => exact hkept rfl (.inl rfl) (by simp [reduce])
    | submitted => exact hkept rfl (.inl rfl) nofun
    | empty => exact hkept rfl (.inl rfl) nofun
  | bannerElapsed generation =>
    refine hkept ?_ ?_ nofun <;> unfold reduce <;> dsimp only <;> split
    · rfl
    · rfl
    · exact .inr rfl
    · exact .inl rfl

theorem timers_step {l : Store.Label Action ComposerAnswer} (h : Timers w) (hstep : (feature r).step w l = some w') :
    Timers w' := by
  cases l with
  | send a => exact timers_send h (Feature.step_send hstep).2
  | resume i answer =>
    obtain ⟨e, action, rest, -, hresume, hafter⟩ := Feature.step_resume hstep
    have hrest : Timers (Feature.after w i rest) := by
      intro generation text hmem
      rcases Feature.mem_after hmem with hmem | heq
      · exact h generation text hmem
      · rcases resume_cases hresume with ⟨text', -, -, rfl⟩ | ⟨rfl, -⟩ <;> cases heq
    obtain ⟨-, rfl⟩ | ⟨a, -, hsend⟩ := hafter
    · exact hrest
    · exact timers_send hrest hsend

end

end AppViewModel

/-! ### Both apps -/

section

/-- Drafts without white space around them, read character by character. -/
private def plainReading : DraftReading :=
  { trim := id
    hasSlash := fun draft => draft.toList.head? == some '/'
    hasSpace := fun draft => draft.toList.contains ' ' }

private def helpRow : SlashCompletionRow := ⟨"/help", "/help", "command", ""⟩

/-- A completion that arrives, one that the next edit cancels, and two banners. -/
private def typing : List (Store.Label AppViewModel.Action ComposerAnswer) :=
  [.send (.draftChanged "/h"), .resume 0 .slept, .resume 0 (.completions ⟨[helpRow], 1⟩), .send (.draftChanged "/he"),
    .send (.draftChanged "/quit "), .send (.send "/quit"), .send (.send "/quit"), .resume 0 .slept]

private def typingOnIos : List (Store.Label ChatFeature.Action ComposerAnswer) :=
  [.send (.draftChanged "/h"), .resume 0 .slept, .resume 0 (.completions ⟨[helpRow], 1⟩), .send (.draftChanged "/quit"),
    .send (.send none), .send (.draftChanged "/quit"), .send (.send none), .resume 0 .slept]

/-- A prefill that comes while a completion is in flight. -/
private def prefilled : List (Store.Label ChatFeature.Action ComposerAnswer) :=
  [.send (.draftChanged "/fix"), .send (.send (some "chat")), .send (.draftChanged "/h"),
    .resume 0 (.outcome (.prefill "hello")), .resume 0 .slept, .resume 0 (.completions ⟨[helpRow], 1⟩)]

/-- On iOS it leaves a popup for another draft. -/
theorem prefill_leaves_popup :
    ∃ labels w, exec (ChatFeature.feature plainReading).step ChatFeature.start labels = some w ∧
      ¬ Popup plainReading ChatFeature.Effect.completes w.state w.effects := by
  have hrun : (exec (ChatFeature.feature plainReading).step ChatFeature.start prefilled).isSome := by decide +kernel
  have hstale : ∀ w ∈ exec (ChatFeature.feature plainReading).step ChatFeature.start prefilled,
      w.state.slashCompletions ≠ [] ∧ shouldComplete plainReading w.state.draft = false := by
    decide +kernel
  obtain ⟨w, hw⟩ := Option.isSome_iff_exists.1 hrun
  obtain ⟨hshown, hcompletes⟩ := hstale w hw
  refine ⟨prefilled, w, hw, fun h => ?_⟩
  cases hcompletes.symm.trans (h.shown hshown)

end

end Hermo
