import Hermo.App.FeatureClaims
import Hermo.App.RepositoryClaims

/-!
# Second opens

The core rebuilds a session that is opened again, so the apps switch to a chat that is a tab.  They look at the tabs
when the tap is made and no longer: `opened_once` says which taps and restores open a chat once, and the runs below it
open one twice.
-/

namespace Hermo

open Run

/-- In every state of every run whose taps and restores go for free chats, on either platform: no chat that is being
opened is a tab, and none is being opened twice. -/
theorem opened_once [HeaderReader] :
    (∀ labels w, Meets Repository.flights.step Repository.GoesForFree Repository.launch labels →
      exec Repository.flights.step Repository.launch labels = some w →
        w.shared.Single (Repository.openings w)) ∧
    ∀ labels d, Meets AppFeature.Device.step AppFeature.Device.GoesForFree AppFeature.Device.launch labels →
      exec AppFeature.Device.step AppFeature.Device.launch labels = some d → d.app.state.Single d.openings :=
  ⟨fun _ _ hfree hrun => Repository.single_run hfree hrun,
    fun _ _ hfree hrun => AppFeature.Device.single_run hfree hrun⟩

section

attribute [local instance] HeaderReader.blank

private def tapNotes : Repository.FlightLabel := .start ⟨.called (.openExistingSession "notes"), none⟩

private def tapNotesSwift : AppFeature.DeviceLabel := .app (.send (.openExistingSession "notes", none))

private def tappedOnce : List Repository.FlightLabel :=
  [tapNotes, .task 1 (.run, none), .task 1 (.answer (.opened "notes"), none)]

private def tappedOnceSwift : List AppFeature.DeviceLabel := [tapNotesSwift, .app (.resume 0 (.opened "notes"))]

/-- One tap in the picker. -/
theorem opened_once_tapped :
    (∃ w, exec Repository.flights.step Repository.launch tappedOnce = some w ∧ w.shared.tabs.keys = ["notes"] ∧
      w.shared.Single (Repository.openings w)) ∧
    ∃ d, exec AppFeature.Device.step AppFeature.Device.launch tappedOnceSwift = some d ∧
      d.app.state.tabs.keys = ["notes"] ∧ d.app.state.Single d.openings := by
  have hfree : Meets Repository.flights.step Repository.GoesForFree Repository.launch tappedOnce := by
    refine .cons _ rfl trivial (.cons _ rfl ?_ (.cons _ rfl ?_ trivial))
    all_goals
      intro f hf
      cases hf
      decide
  have hfreeSwift : Meets AppFeature.Device.step AppFeature.Device.GoesForFree AppFeature.Device.launch
      tappedOnceSwift := by
    refine .cons _ rfl ?_ (.cons _ rfl ?_ trivial)
    · exact ⟨by decide, by decide⟩
    · exact ⟨by decide, by decide⟩
  exact ⟨⟨_, rfl, rfl, opened_once.1 tappedOnce _ hfree rfl⟩, _, rfl, rfl, opened_once.2 tappedOnceSwift _ hfreeSwift rfl⟩

/-- Two taps in the picker, before the first is answered. -/
private def tappedTwice : List Repository.FlightLabel :=
  [tapNotes, tapNotes, .task 1 (.run, none), .task 2 (.run, none)]

private def tappedTwiceSwift : List AppFeature.DeviceLabel := [tapNotesSwift, tapNotesSwift]

private def noteGateway : EndpointDto := ⟨"Home", "ada", "http://gateway:9123"⟩

private def registered : List SessionSummary := [⟨"notes", "", false, "", ""⟩]

/-- A launch restores the chat of the registry, the connection is lost, and the app retries. -/
private def retried : List Repository.FlightLabel :=
  [.start ⟨.called .tryResume, none⟩, .task 1 (.run, none), .task 1 (.answer (.savedEndpoint (some noteGateway)), none),
    .task 1 (.answer .done, none), .task 1 (.answer (.sessions registered), none),
    .task 1 (.answer (.lastActive none), none), .task 1 (.answer (.opened "notes"), none),
    .task 1 (.answer (.sessions registered), none), .task 0 (.event (.connection (.closed "network")), none),
    .start ⟨.called .tryResume, none⟩, .task 2 (.run, none),
    .task 2 (.answer (.savedEndpoint (some noteGateway)), none), .task 2 (.answer .done, none),
    .task 2 (.answer (.sessions registered), none), .task 2 (.answer (.lastActive none), none)]

private def retriedSwift : List AppFeature.DeviceLabel :=
  [.app (.send (.tryResume, none)), .app (.resume 0 (.savedEndpoint (some noteGateway))), .app (.resume 0 .done),
    .app (.resume 0 (.sessions registered)), .app (.resume 0 (.lastActive none)), .app (.resume 0 (.opened "notes")),
    .app (.send (.core (.connection (.closed "network")), none)), .app (.send (.networkAvailable, none)),
    .app (.resume 0 (.savedEndpoint (some noteGateway))), .app (.resume 0 .done),
    .app (.resume 0 (.sessions registered)), .app (.resume 0 (.lastActive none))]

/-- Both apps open a chat twice after a double tap, and open a chat that is a tab after a retry. -/
theorem opened_twice :
    (∃ w, exec Repository.flights.step Repository.launch tappedTwice = some w ∧
      Repository.openings w = ["notes", "notes"] ∧ ¬ w.shared.Single (Repository.openings w)) ∧
    (∃ w, exec Repository.flights.step Repository.launch retried = some w ∧ w.shared.tabs.keys = ["notes"] ∧
      Repository.openings w = ["notes"] ∧ ¬ w.shared.Single (Repository.openings w)) ∧
    (∃ d, exec AppFeature.Device.step AppFeature.Device.launch tappedTwiceSwift = some d ∧
      d.openings = ["notes", "notes"] ∧ ¬ d.app.state.Single d.openings) ∧
    ∃ d, exec AppFeature.Device.step AppFeature.Device.launch retriedSwift = some d ∧
      d.app.state.tabs.keys = ["notes"] ∧ d.openings = ["notes"] ∧ ¬ d.app.state.Single d.openings := by
  refine ⟨⟨_, rfl, rfl, ?_⟩, ⟨_, rfl, rfl, rfl, ?_⟩, ⟨_, rfl, rfl, ?_⟩, _, rfl, rfl, rfl, ?_⟩
  · exact fun h => absurd h.distinct (by decide)
  · exact fun h => h.closed "notes" (.head _) (.head _)
  · exact fun h => absurd h.distinct (by decide)
  · exact fun h => h.closed "notes" (.head _) (.head _)

end

end Hermo
