import Hermo.App.FeatureConsistency
import Hermo.App.RepositoryConsistency

/-!
# The invariant of the app state

`consistent_of_safe` puts the two run lemmas together; the runs below it are the shortest that leave the consistent
states.
-/

namespace Hermo

open Run

/-- In every state of every run whose steps are safe, on either platform: a ready app has an endpoint and a session on
the screen, that session is the current tab of the strip and one of its tabs, the tabs are distinct, and every entry
of the session map is a tab or pending. -/
theorem app_consistent [HeaderReader] :
    (∀ labels w, Meets Repository.program.step Repository.Safe Repository.start labels →
      exec Repository.program.step Repository.start labels = some w → w.shared.Consistent) ∧
    ∀ labels w, Meets AppFeature.feature.step AppFeature.Safe AppFeature.start labels →
      exec AppFeature.feature.step AppFeature.start labels = some w → w.state.Consistent :=
  ⟨fun _ _ hok hrun => Repository.consistent_of_safe hok hrun,
    fun _ _ hok hrun => AppFeature.consistent_of_safe hok hrun⟩

section

attribute [local instance] HeaderReader.blank

private def atHome : EndpointDto := ⟨"Home", "ada", "http://gateway:9123"⟩

/-- A launch with an empty registry opens a new session. -/
private def launched : List (Tasks.Label Repository.Task Repository.Input Empty) :=
  [.start (.called .tryResume), .task 1 .run, .task 1 (.answer (.savedEndpoint (some atHome))), .task 1 (.answer .done),
    .task 1 (.answer (.sessions [])), .task 1 (.answer (.lastActive none)), .task 1 (.answer (.opened "chat")),
    .task 1 (.answer (.sessions []))]

private def launchedSwift : List (Store.Label AppFeature.Action CoreAnswer) :=
  [.send .tryResume, .resume 0 (.savedEndpoint (some atHome)), .resume 0 .done, .resume 0 (.sessions []),
    .resume 0 (.lastActive none), .resume 0 (.opened "chat"), .resume 0 (.sessions [])]

/-- Both apps are ready after the launch. -/
theorem app_consistent_launched :
    (∃ w, exec Repository.program.step Repository.start launched = some w ∧ w.shared.phase.isReady ∧
      w.shared.Consistent) ∧
    ∃ w, exec AppFeature.feature.step AppFeature.start launchedSwift = some w ∧ w.state.phase.isReady ∧
      w.state.Consistent := by
  have hok : Meets Repository.program.step Repository.Safe Repository.start launched := by
    refine .cons _ rfl trivial <| .cons _ rfl trivial <| .cons _ rfl ?_ <| .cons _ rfl ?_ <| .cons _ rfl ?_ <|
      .cons _ rfl ?_ <| .cons _ rfl ?_ <| .cons _ rfl ?_ trivial
    all_goals
      intro t ht
      cases ht
    · trivial
    · trivial
    · trivial
    · trivial
    · trivial
    · exact ⟨by decide, fun _ => ⟨by decide, by decide⟩⟩
  have hokSwift : Meets AppFeature.feature.step AppFeature.Safe AppFeature.start launchedSwift := by
    refine .cons _ rfl trivial <| .cons _ rfl ?_ <| .cons _ rfl ?_ <| .cons _ rfl ?_ <| .cons _ rfl ?_ <|
      .cons _ rfl ?_ <| .cons _ rfl ?_ trivial
    all_goals
      intro e a rest he hresume
      cases he
      cases hresume
    · trivial
    · trivial
    · trivial
    · exact ⟨by decide, by decide⟩
  exact ⟨⟨_, rfl, by decide, app_consistent.1 launched _ hok rfl⟩, _, rfl, by decide,
    app_consistent.2 launchedSwift _ hokSwift rfl⟩

/-- The only tab is closed. -/
private def closedLast : List (Tasks.Label Repository.Task Repository.Input Empty) :=
  launched ++ [.start (.called (.closeTab "chat")), .task 2 .run, .task 2 (.answer .done)]

/-- The gateway is forgotten while the header of the new session is fetched. -/
private def forgottenSwift : List (Store.Label AppFeature.Action CoreAnswer) :=
  launchedSwift.take 6 ++ [.send .forgetGateway, .resume 1 .done, .resume 0 (.sessions [])]

/-- The Android app keeps the key of a session that is closed; the iOS app is ready without an endpoint and without a
session. -/
theorem inconsistent_reached :
    (∃ w, exec Repository.program.step Repository.start closedLast = some w ∧ w.shared.tabs = {} ∧
      w.shared.currentKey = some "chat" ∧ ¬ w.shared.Consistent) ∧
    ∃ w, exec AppFeature.feature.step AppFeature.start forgottenSwift = some w ∧ w.state.phase = .ready "" ∧
      w.state.endpointText = "" ∧ w.state.currentKey = none ∧ ¬ w.state.Consistent := by
  refine ⟨⟨_, rfl, by decide, by decide, ?_⟩, _, rfl, by decide, by decide, by decide, ?_⟩
  · intro h
    exact absurd h.current (by decide)
  · intro h
    exact absurd (h.ready (by decide)).2 (by decide)

end

end Hermo
