import Hermo.App.FeatureOpens
import Hermo.App.RepositoryOpens

/-!
# The count of the opens in flight

Both apps count their opens and park what comes early for them.  `opens_exact` puts the two run lemmas together; the
runs below it show where the count is lost.
-/

namespace Hermo

open Run

/-- In every state of every undisturbed run, on either platform, `inFlightOpens` is the number of opens in progress;
with none nothing is pending or parked, an early change is parked exactly while there is one, and an unknown key is
not accepted otherwise. -/
theorem opens_exact [HeaderReader] :
    (∀ labels w, Meets Repository.program.step Repository.Undisturbed Repository.start labels →
      exec Repository.program.step Repository.start labels = some w →
        w.shared.Exact .android (w.tasks.countP Repository.Task.opens)) ∧
    ∀ labels w, Meets AppFeature.feature.step AppFeature.Undisturbed AppFeature.start labels →
      exec AppFeature.feature.step AppFeature.start labels = some w →
        w.state.Exact .ios (w.effects.countP AppFeature.Effect.opens) :=
  ⟨fun _ _ hok hrun => Repository.exact_run hok hrun, fun _ _ hok hrun => AppFeature.exact_run hok hrun⟩

section

attribute [local instance] HeaderReader.blank

private def oneOpen : List (Tasks.Label Repository.Task Repository.Input Empty) :=
  [.start (.called .openNewSession), .task 1 .run, .task 1 (.answer (.opened "chat"))]

private def oneOpenSwift : List (Store.Label AppFeature.Action CoreAnswer) :=
  [.send .openNewSession, .resume 0 (.opened "chat")]

/-- A new chat is opened on either platform, and nothing is in flight afterwards. -/
theorem opens_exact_newChat :
    (∃ w, exec Repository.program.step Repository.start oneOpen = some w ∧ w.shared.Exact .android 0) ∧
      ∃ w, exec AppFeature.feature.step AppFeature.start oneOpenSwift = some w ∧ w.state.Exact .ios 0 := by
  have hok : Meets Repository.program.step Repository.Undisturbed Repository.start oneOpen :=
    .cons _ rfl trivial <| .cons _ rfl trivial <| .cons _ rfl (by intro c hc; cases hc) trivial
  have hokSwift : Meets AppFeature.feature.step AppFeature.Undisturbed AppFeature.start oneOpenSwift :=
    .cons _ rfl trivial <| .cons _ rfl trivial trivial
  exact ⟨⟨_, rfl, opens_exact.1 oneOpen _ hok rfl⟩, _, rfl, opens_exact.2 oneOpenSwift _ hokSwift rfl⟩

private def forgotten : List (Tasks.Label Repository.Task Repository.Input Empty) :=
  [.start (.called .openNewSession), .task 1 .run, .start (.called .forgetGateway), .task 2 .run,
    .task 2 (.answer .done), .task 1 (.answer (.opened "chat"))]

private def home : EndpointDto := ⟨"Home", "ada", "http://gateway:9123"⟩

private def resumedTwice : List (Store.Label AppFeature.Action CoreAnswer) :=
  [.send .tryResume, .resume 0 (.savedEndpoint (some home)), .resume 0 .done,
    .resume 0 (.sessions [⟨"chat", "", false, "", ""⟩]), .resume 0 (.lastActive none), .send .tryResume]

private def restarted : List (Store.Label AppFeature.Action CoreAnswer) :=
  [.send .resetSessionsAndRestart, .resume 0 .done]

/-- The Android app forgets its gateway while a new chat is being opened: the count is negative when the open is
answered.  The iOS app tries to resume twice: the restore it cancels stays counted and its key pending.  A reset of
the iOS app opens a session it does not count. -/
theorem count_lost :
    (∃ w, exec Repository.program.step Repository.start forgotten = some w ∧ w.shared.inFlightOpens = -1 ∧
      w.tasks.countP Repository.Task.opens = 0) ∧
    (∃ w, exec AppFeature.feature.step AppFeature.start resumedTwice = some w ∧ w.state.inFlightOpens = 1 ∧
      w.effects.countP AppFeature.Effect.opens = 0 ∧ w.state.pendingKeys = {"chat"}) ∧
    ∃ w, exec AppFeature.feature.step AppFeature.start restarted = some w ∧ w.state.inFlightOpens = 0 ∧
      w.effects.countP AppFeature.Effect.opens = 1 :=
  ⟨⟨_, rfl, by decide, by decide⟩, ⟨_, rfl, by decide, by decide, by decide⟩, _, rfl, by decide, by decide⟩

end

end Hermo
