import Hermo.App.FeatureTitlebar
import Hermo.App.RepositoryTitlebar

/-!
# The model over the visible session

A header that lands after the app is ready has to reach the screen, and it does for every open tab; a tab that is
tapped waits for its header under the model of the tab before.  `titlebar_model` says which steps leave the titlebar
right; the runs below it reach the model of another session by a header and by a tap.
-/

namespace Hermo

open Run

/-- In all states of a run, on either platform: the model of a ready app is the last one known for the session on the
screen, exactly when all steps of the run are steady. -/
theorem titlebar_model [HeaderReader] :
    (∀ labels w, exec Repository.program.step Repository.start labels = some w →
      ((∀ before t, before <+: labels → exec Repository.titleStep Repository.titleStart before = some t →
        t.1.shared.Titled t.2) ↔ Meets Repository.titleStep Repository.Steady Repository.titleStart labels)) ∧
    ∀ labels w, exec AppFeature.feature.step AppFeature.start labels = some w →
      ((∀ before t, before <+: labels → exec AppFeature.titleStep AppFeature.titleStart before = some t →
        t.1.state.Titled t.2) ↔ Meets AppFeature.titleStep AppFeature.Steady AppFeature.titleStart labels) :=
  ⟨fun _ _ hrun => Repository.titled_run hrun, fun _ _ hrun => AppFeature.titled_run hrun⟩

section

private def opusHeader : String := "\x7b\"model\":\"opus\"\x7d"

private def sonnetHeader : String := "\x7b\"model\":\"sonnet\"\x7d"

/-- The reader of these two headers. -/
@[reducible] private def opusOrSonnet : HeaderReader :=
  ⟨fun json => if json = opusHeader then "opus" else if json = sonnetHeader then "sonnet" else ""⟩

attribute [local instance] opusOrSonnet

private def draft : SessionSummary := ⟨"draft", "Draft", false, opusHeader, ""⟩

private def review : SessionSummary := ⟨"review", "Review", false, sonnetHeader, ""⟩

private def officeGateway : EndpointDto := ⟨"Office", "ada", "http://gateway:9123"⟩

/-- A launch opens a chat and learns its model. -/
private def drafted : List (Tasks.Label Repository.Task Repository.Input Empty) :=
  [.start (.called .tryResume), .task 1 .run, .task 1 (.answer (.savedEndpoint (some officeGateway))),
    .task 1 (.answer .done), .task 1 (.answer (.sessions [])), .task 1 (.answer (.lastActive none)),
    .task 1 (.answer (.opened "draft")), .task 1 (.answer (.sessions [draft]))]

private def draftedSwift : List (Store.Label AppFeature.Action CoreAnswer) :=
  [.send .tryResume, .resume 0 (.savedEndpoint (some officeGateway)), .resume 0 .done, .resume 0 (.sessions []),
    .resume 0 (.lastActive none), .resume 0 (.opened "draft"), .resume 0 (.sessions [draft])]

/-- The first chat has its own model over it. -/
theorem titlebar_model_drafted :
    (∃ w, exec Repository.titleStep Repository.titleStart drafted = some w ∧ w.1.shared.phase = .ready "opus" ∧
      w.1.shared.Titled w.2) ∧
    ∃ w, exec AppFeature.titleStep AppFeature.titleStart draftedSwift = some w ∧ w.1.state.phase = .ready "opus" ∧
      w.1.state.Titled w.2 := by
  have hsteady : Meets Repository.titleStep Repository.Steady Repository.titleStart drafted := by
    refine .cons _ rfl trivial <| .cons _ rfl ?_ <| .cons _ rfl ?_ <| .cons _ rfl ?_ <| .cons _ rfl ?_ <|
      .cons _ rfl ?_ <| .cons _ rfl ?_ <| .cons _ rfl ?_ trivial
    all_goals
      intro t ht
      cases ht
    · trivial
    · trivial
    · trivial
    · trivial
    · trivial
    · exact fun _ hne => absurd rfl hne
    · exact .inl rfl
  have hsteadySwift : Meets AppFeature.titleStep AppFeature.Steady AppFeature.titleStart draftedSwift := by
    refine .cons _ rfl trivial <| .cons _ rfl ?_ <| .cons _ rfl ?_ <| .cons _ rfl ?_ <| .cons _ rfl ?_ <|
      .cons _ rfl ?_ <| .cons _ rfl ?_ trivial
    all_goals
      intro e a rest he hresume
      cases he
      cases hresume
    · trivial
    · trivial
    · exact fun hne => absurd rfl hne
    · trivial
  exact ⟨⟨_, rfl, rfl, (titlebar_model.1 drafted _ rfl).2 hsteady drafted _ (List.prefix_refl _) rfl⟩, _, rfl, rfl,
    (titlebar_model.2 draftedSwift _ rfl).2 hsteadySwift draftedSwift _ (List.prefix_refl _) rfl⟩

/-- A second chat is opened, and its model learned. -/
private def reviewed : List (Tasks.Label Repository.Task Repository.Input Empty) :=
  drafted ++ [.start (.called .openNewSession), .task 2 .run, .task 2 (.answer (.opened "review")),
    .task 2 (.answer (.sessions [draft, review]))]

private def reviewedSwift : List (Store.Label AppFeature.Action CoreAnswer) :=
  draftedSwift ++ [.send .openNewSession, .resume 0 (.opened "review"), .resume 0 (.sessions [draft, review])]

private def draftChange : TranscriptChangeDto := ⟨"draft", .headerUpdated, 0, "", "Draft"⟩

/-- The header of the first chat changes, in the background. -/
private def overwritten : List (Tasks.Label Repository.Task Repository.Input Empty) :=
  reviewed ++ [.task 0 (.event (.transcript draftChange)), .task 3 (.answer (.sessions [draft, review]))]

private def overwrittenSwift : List (Store.Label AppFeature.Action CoreAnswer) :=
  reviewedSwift ++ [.send (.core (.transcript draftChange)), .resume 0 (.sessions [draft, review])]

/-- The first chat is tapped. -/
private def tapped : List (Tasks.Label Repository.Task Repository.Input Empty) :=
  reviewed ++ [.start (.called (.switchTab "draft")), .task 3 .run]

private def tappedSwift : List (Store.Label AppFeature.Action CoreAnswer) := reviewedSwift ++ [.send (.switchTab "draft")]

/-- A state that has the model of another session in the titlebar. -/
private theorem stale {σ : Type} {app : σ → AppState} {reached : Option (σ × (String → String))}
    {model key last : String} (hne : model ≠ "") (hlast : last ≠ model)
    (h : reached.any fun w => (app w.1).phase = .ready model ∧ (app w.1).currentKey = some key ∧ w.2 key = last) :
    ∃ w, reached = some w ∧ (app w.1).phase = .ready model ∧ (app w.1).currentKey = some key ∧ w.2 key = last ∧
      ¬ (app w.1).Titled w.2 := by
  obtain ⟨w, hw, hfacts⟩ := (Option.any_eq_true _ _).1 h
  obtain ⟨hphase, hcurrent, hknown⟩ := of_decide_eq_true hfacts
  refine ⟨w, hw, hphase, hcurrent, hknown, ?_⟩
  intro htitled
  obtain ⟨shown, hshown, hmodel⟩ := htitled model hphase hne
  rw [hcurrent, Option.some_inj] at hshown
  rw [← hshown, hknown] at hmodel
  exact hlast hmodel

/-- Both apps show the model of the first chat over the second after a header of the first, and the model of the second
over the first after a tap. -/
theorem titlebar_stale :
    (∃ w, exec Repository.titleStep Repository.titleStart overwritten = some w ∧ w.1.shared.phase = .ready "opus" ∧
      w.1.shared.currentKey = some "review" ∧ w.2 "review" = "sonnet" ∧ ¬ w.1.shared.Titled w.2) ∧
    (∃ w, exec Repository.titleStep Repository.titleStart tapped = some w ∧ w.1.shared.phase = .ready "sonnet" ∧
      w.1.shared.currentKey = some "draft" ∧ w.2 "draft" = "opus" ∧ ¬ w.1.shared.Titled w.2) ∧
    (∃ w, exec AppFeature.titleStep AppFeature.titleStart overwrittenSwift = some w ∧
      w.1.state.phase = .ready "opus" ∧ w.1.state.currentKey = some "review" ∧ w.2 "review" = "sonnet" ∧
      ¬ w.1.state.Titled w.2) ∧
    ∃ w, exec AppFeature.titleStep AppFeature.titleStart tappedSwift = some w ∧ w.1.state.phase = .ready "sonnet" ∧
      w.1.state.currentKey = some "draft" ∧ w.2 "draft" = "opus" ∧ ¬ w.1.state.Titled w.2 := by
  refine ⟨stale (by decide) (by decide) ?_, stale (by decide) (by decide) ?_, stale (by decide) (by decide) ?_,
    stale (by decide) (by decide) ?_⟩
  all_goals decide +kernel

end

end Hermo
