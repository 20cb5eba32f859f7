import Hermo.App.FeatureOpens
import Hermo.App.Repository
import Hermo.Core.BotChat

/-!
# A tap on a bot

`openBotChat` of the app switches to a session that carries the label of the profile, and asks the core only where it
finds none.  The core goes by the title of the session.  `bot_tap` says when the two agree.
-/

namespace Hermo

open Run Rpc

/-- Where a tap that succeeded ends: the session on the screen, and whether the core was asked for it. -/
structure Landing where
  current : Option String
  asked : Bool

/-- The tap ends in the chat the gateway holds for the profile: the first listed row with exactly the title and a
durable id, or else the session that was created. -/
def Landing.Canonical (rows : List (String × String)) (session : CreatedSession) (l : Landing) : Prop :=
  match rows.find? isBotChat with
  | some row => l.current = some row.2
  | none => l.asked = true ∧ l.current = some session.storedSessionId

/-- A call of `open_bot_chat` returns the key, with these answers of the gateway. -/
def BotChat.Returns [Serializer] (profile : String) (rows : List (String × String)) (session : CreatedSession)
    (key : String) : Prop :=
  ∃ cols inputs, (∀ i ∈ inputs, Agrees rows session i.2) ∧
    exec callStep (.call (.openBotChat profile cols)) inputs = some (.returned (.ok (.key key)))

/-- The session a tap stays with is the canonical one: a key that is no tab leaves the screen as it is. -/
def AppState.FindsCanonical (p : Platform) (s : AppState) (profile : String) (rows : List (String × String)) : Prop :=
  ∀ openKey, openTabForProfile p s.sessions s.tabs.keys profile = some openKey →
    ∃ row, rows.find? isBotChat = some row ∧
      (if openKey ∈ s.tabs.keys then some openKey else s.currentKey) = some row.2

section

variable [HeaderReader]

/-- The tap in `s`, and the answer of the core in `t`; `none` where it does not succeed. -/
def Repository.tapBot (s t : AppState) (profile key : String) : Option Landing :=
  match run s (.openBotChat profile) with
  | (_, .opening label) => if (register t key).2 then some ⟨(opened t key label).1.currentKey, true⟩ else none
  | (s', _) => some ⟨s'.currentKey, false⟩

def AppFeature.tapBot (s t : AppState) (profile key : String) : Option Landing :=
  match reduce s (.openBotChat profile) with
  | some (_, [.opening verb]) =>
    (reduce t (verb.opened key)).map fun (s', _) => ⟨s'.currentKey, true⟩
  | some (s', _) => some ⟨s'.currentKey, false⟩
  | none => none

def Platform.tapBot : Platform → AppState → AppState → String → String → Option Landing
  | .android => Repository.tapBot
  | .ios => AppFeature.tapBot

/-! ### The two ways of a tap -/

namespace Repository

theorem refreshThen_currentKey (s : AppState) (key : String) : (refreshThen s key .opened).1.currentKey = s.currentKey := by
  unfold refreshThen
  split
  · rfl
  · obtain ⟨model, sessions, hafter⟩ := s.afterOpen_eq .android key none
    unfold finish
    dsimp only
    rw [hafter]

theorem switchTab_spec (s : AppState) (key : String) :
    (switchTab s key).1.currentKey = (if key ∈ s.tabs.keys then some key else s.currentKey) ∧
      ∀ label, (switchTab s key).2 ≠ .opening label := by
  unfold switchTab
  cases htap : tabTap s.tabs s.currentKey key with
  | none => exact ⟨(TabSet.tabTap_none htap).symm, nofun⟩
  | some next =>
    obtain ⟨hmem, rfl⟩ := TabSet.tabTap_eq htap
    rw [if_pos hmem]
    dsimp only
    refine ⟨refreshThen_currentKey _ key, ?_⟩
    intro label
    unfold refreshThen
    split <;> nofun

theorem tapBot_switches {s : AppState} {profile openKey : String}
    (h : openTabForProfile .android s.sessions s.tabs.keys profile = some openKey) (t : AppState) (key : String) :
    tapBot s t profile key = some ⟨if openKey ∈ s.tabs.keys then some openKey else s.currentKey, false⟩ := by
  obtain ⟨hcurrent, hlabel⟩ := switchTab_spec s openKey
  have hrun : run s (.openBotChat profile) = switchTab s openKey := by
    unfold run
    dsimp only
    rw [h]
  unfold tapBot
  rw [hrun]
  generalize switchTab s openKey = switched at hcurrent hlabel
  obtain ⟨after, task⟩ := switched
  cases task with
  | opening label => exact absurd rfl (hlabel label)
  | _ => exact congrArg (fun current => some (Landing.mk current false)) hcurrent

theorem tapBot_asks {s t : AppState} {profile key : String} {l : Landing}
    (h : openTabForProfile .android s.sessions s.tabs.keys profile = none) (htap : tapBot s t profile key = some l) :
    l = ⟨some key, true⟩ := by
  have hrun : run s (.openBotChat profile) = (s.beginOpen, .opening profile) := by
    unfold run
    dsimp only
    rw [h]
  unfold tapBot at htap
  rw [hrun] at htap
  dsimp only at htap
  split at htap <;> cases htap
  rename_i hregistered
  unfold opened
  generalize register t key = r at hregistered
  obtain ⟨registered, flag⟩ := r
  cases hregistered
  dsimp only
  rw [refreshThen_currentKey]

end Repository

namespace AppFeature

theorem tapBot_switches {s : AppState} {profile openKey : String}
    (h : openTabForProfile .ios s.sessions s.tabs.keys profile = some openKey) (t : AppState) (key : String) :
    tapBot s t profile key = some ⟨if openKey ∈ s.tabs.keys then some openKey else s.currentKey, false⟩ := by
  have hreduce : reduce s (.openBotChat profile) = some (performSwitchTab s openKey) := by
    unfold reduce
    dsimp only
    rw [h]
  unfold tapBot
  rw [hreduce]
  unfold performSwitchTab
  cases htap : tabTap s.tabs s.currentKey openKey with
  | none => rw [TabSet.tabTap_none htap]
  | some next =>
    obtain ⟨hmem, rfl⟩ := TabSet.tabTap_eq htap
    rw [if_pos hmem]

theorem tapBot_asks {s t : AppState} {profile key : String} {l : Landing}
    (h : openTabForProfile .ios s.sessions s.tabs.keys profile = none) (htap : tapBot s t profile key = some l) :
    l = ⟨some key, true⟩ := by
  have hreduce : reduce s (.openBotChat profile) = some (s.beginOpen, [.opening (.bot profile)]) := by
    unfold reduce
    dsimp only
    rw [h]
    rfl
  unfold tapBot at htap
  rw [hreduce] at htap
  obtain ⟨⟨after, effects⟩, hopened, rfl⟩ := Option.map_eq_some_iff.1 htap
  obtain ⟨registered, -, heq⟩ := Option.map_eq_some_iff.1 hopened
  cases heq
  rfl

end AppFeature

/-- A tap ends in the canonical chat exactly where it finds no session by its label, or finds that chat. -/
theorem bot_tap [Serializer] (p : Platform) (s t : AppState) (profile key : String) (rows : List (String × String))
    (session : CreatedSession) (l : Landing) (hcore : l.asked = true → BotChat.Returns profile rows session key)
    (htap : p.tapBot s t profile key = some l) : l.Canonical rows session ↔ s.FindsCanonical p profile rows := by
  cases hopen : openTabForProfile p s.sessions s.tabs.keys profile with
  | none =>
    have hl : l = ⟨some key, true⟩ := by
      cases p with
      | android => exact Repository.tapBot_asks hopen htap
      | ios => exact AppFeature.tapBot_asks hopen htap
    subst hl
    obtain ⟨cols, inputs, hagrees, hrun⟩ := hcore rfl
    have hkey := BotChat.returned_key hagrees hrun
    have hfinds : s.FindsCanonical p profile rows := by
      intro openKey hsome
      rw [hopen] at hsome
      cases hsome
    refine iff_of_true ?_ hfinds
    unfold Landing.Canonical
    cases hfind : rows.find? isBotChat with
    | none =>
      rw [hfind] at hkey
      exact ⟨rfl, congrArg some hkey⟩
    | some row =>
      rw [hfind] at hkey
      exact congrArg some hkey
  | some openKey =>
    have hl : l = ⟨if openKey ∈ s.tabs.keys then some openKey else s.currentKey, false⟩ := by
      cases p with
      | android => exact Option.some_inj.1 (htap.symm.trans (Repository.tapBot_switches hopen t key))
      | ios => exact Option.some_inj.1 (htap.symm.trans (AppFeature.tapBot_switches hopen t key))
    subst hl
    unfold AppState.FindsCanonical Landing.Canonical
    rw [hopen]
    cases hfind : rows.find? isBotChat with
    | none =>
      refine iff_of_false (fun h => Bool.false_ne_true h.1) ?_
      intro h
      obtain ⟨row, hrow, -⟩ := h openKey rfl
      cases hrow
    | some row =>
      constructor
      · intro h key hkey
        cases hkey
        exact ⟨row, rfl, h⟩
      · intro h
        obtain ⟨row', hrow, hkey⟩ := h openKey rfl
        cases hrow
        exact hkey

end

section

attribute [local instance] HeaderReader.blank Serializer.compact

private def connectedCore : Operations.Shared := { client := true, store := { core := {}, file := none } }

/-- The first tap on the bot of an app with no sessions, and a gateway that holds its chat. -/
theorem bot_tap_first :
    (∃ l, Platform.android.tapBot {} {} "ops" "b1" = some l ∧ l.Canonical [("Bot Chat", "b1")] ⟨"live", "new", "ops"⟩) ∧
    ∃ l, Platform.ios.tapBot {} {} "ops" "b1" = some l ∧ l.Canonical [("Bot Chat", "b1")] ⟨"live", "new", "ops"⟩ := by
  have hcore : BotChat.Returns "ops" [("Bot Chat", "b1")] ⟨"live", "new", "ops"⟩ "b1" := by
    refine ⟨80, [(connectedCore, .disk true), (connectedCore, .listed (.ok [("Bot Chat", "b1")])),
      (connectedCore, .run), (connectedCore, .resumed (.ok ⟨"live", [], "ops"⟩) true)], ?_, rfl⟩
    simp [BotChat.Agrees]
  have hopens : ∀ p : Platform, p.tapBot {} {} "ops" "b1" = some ⟨some "b1", true⟩ := by
    intro p
    cases p <;> rfl
  refine ⟨⟨_, hopens .android, (bot_tap .android {} {} "ops" "b1" _ _ _ (fun _ => hcore) (hopens .android)).2 ?_⟩,
    _, hopens .ios, (bot_tap .ios {} {} "ops" "b1" _ _ _ (fun _ => hcore) (hopens .ios)).2 ?_⟩
  · intro openKey hopen
    cases hopen
  · intro openKey hopen
    cases hopen

private def botHome : EndpointDto := ⟨"Home", "ada", "http://gateway:9123"⟩

/-- An ordinary chat of the profile, as the registry keeps it. -/
private def notes : SessionSummary := ⟨"notes", "Notes", false, "", "ops"⟩

/-- A launch restores the ordinary chat, and a new chat is opened. -/
private def withNotes : List (Tasks.Label Repository.Task Repository.Input Empty) :=
  [.start (.called .tryResume), .task 1 .run, .task 1 (.answer (.savedEndpoint (some botHome))), .task 1 (.answer .done),
    .task 1 (.answer (.sessions [notes])), .task 1 (.answer (.lastActive none)), .task 1 (.answer (.opened "notes")),
    .task 1 (.answer (.sessions [notes])), .start (.called .openNewSession), .task 2 .run,
    .task 2 (.answer (.opened "chat")), .task 2 (.answer (.sessions []))]

private def withNotesSwift : List (Store.Label AppFeature.Action CoreAnswer) :=
  [.send .tryResume, .resume 0 (.savedEndpoint (some botHome)), .resume 0 .done, .resume 0 (.sessions [notes]),
    .resume 0 (.lastActive none), .resume 0 (.opened "notes"), .send .openNewSession, .resume 0 (.opened "chat"),
    .resume 0 (.sessions [])]

/-- The tap on the bot then switches to the ordinary chat, while the gateway holds the Bot Chat of the profile. -/
theorem ordinary_chat_selected :
    (∃ w, exec Repository.program.step Repository.start withNotes = some w ∧
      ∃ l, Platform.android.tapBot w.shared w.shared "ops" "b1" = some l ∧ l.current = some "notes" ∧
        ¬ l.Canonical [("Bot Chat", "b1")] ⟨"live", "new", "ops"⟩) ∧
    ∃ w, exec AppFeature.feature.step AppFeature.start withNotesSwift = some w ∧
      ∃ l, Platform.ios.tapBot w.state w.state "ops" "b1" = some l ∧ l.current = some "notes" ∧
        ¬ l.Canonical [("Bot Chat", "b1")] ⟨"live", "new", "ops"⟩ := by
  have hother : ¬ Landing.Canonical [("Bot Chat", "b1")] ⟨"live", "new", "ops"⟩ ⟨some "notes", false⟩ := by
    intro h
    have hcurrent : some "notes" = some "b1" := h
    exact absurd hcurrent (by decide)
  exact ⟨⟨_, rfl, _, rfl, rfl, hother⟩, _, rfl, _, rfl, rfl, hother⟩

end

end Hermo
