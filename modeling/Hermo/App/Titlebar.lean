import Hermo.App.Registration
import Hermo.Library.Run

/-!
# The model in the titlebar

A ready phase carries one model and no key.  `Titled` says that it is the last model known for the session on the
screen; `remember` keeps these models beside the state, since a session that is closed takes its model with it.  A
step that is `Quiet` brings no model, so what it does to the titlebar is a matter of the session it shows; the steps
that bring one are the header refreshes and the completions of an open.
-/

namespace Hermo

open OrderedMap

/-- The model that the titlebar shows, empty when the app is not ready. -/
def AppPhase.model : AppPhase → String
  | .ready model => model
  | _ => ""

theorem AppPhase.model_of_not_ready {phase : AppPhase} (h : ¬ phase.isReady) : phase.model = "" := by
  cases phase with
  | ready model => exact absurd rfl h
  | _ => rfl

/-- Only a header brings a model. -/
theorem PhaseMachine.model_reduce (event : ConnEvent) (h : ∀ model, event ≠ .header model) (phase : AppPhase)
    (savedEndpoint : String) (hasLiveSession : Bool) :
    (reduce phase event savedEndpoint hasLiveSession).model = phase.model ∨
      (reduce phase event savedEndpoint hasLiveSession).model = "" := by
  unfold reduce
  cases event with
  | connecting => exact .inr rfl
  | «open» =>
    dsimp only
    split
    · exact .inl rfl
    · exact .inr rfl
  | closed reason =>
    dsimp only
    split
    · exact .inr rfl
    · split <;> exact .inr rfl
  | needsPassword =>
    dsimp only
    split <;> exact .inr rfl
  | authFailed =>
    dsimp only
    split <;> exact .inr rfl
  | header model => exact absurd rfl (h model)

/-! ### The models of the session map -/

/-- The model of a session, empty when it is unknown. -/
def modelIn (sessions : Sessions) (key : String) : String :=
  ((sessions.lookup key).map SessionUiState.model).getD ""

theorem modelIn_put (sessions : Sessions) (key k : String) (session : SessionUiState) :
    modelIn (put key session sessions) k = if k = key then session.model else modelIn sessions k := by
  unfold modelIn
  rw [lookup_put]
  split <;> rfl

/-- The models are the ones of before, where there still is one. -/
def Dims (before after : Sessions) : Prop := ∀ key, modelIn after key = modelIn before key ∨ modelIn after key = ""

theorem Dims.refl (sessions : Sessions) : Dims sessions sessions := fun _ => .inl rfl

theorem Dims.trans {first second third : Sessions} (h : Dims first second) (h' : Dims second third) :
    Dims first third := by
  intro key
  rcases h' key with hsame | hnone
  · rw [hsame]
    exact h key
  · exact .inr hnone

theorem dims_empty (sessions : Sessions) : Dims sessions ∅ := fun _ => .inr rfl

theorem dims_erase (sessions : Sessions) (key : String) : Dims sessions (sessions.erase key) := by
  intro k
  unfold modelIn
  by_cases hk : k = key
  · rw [hk, AList.lookup_erase]
    exact .inr rfl
  · rw [AList.lookup_erase_ne hk]
    exact .inl rfl

/-- An entry written with the model it had. -/
theorem dims_put {sessions : Sessions} {key : String} {session : SessionUiState}
    (h : session.model = modelIn sessions key) : Dims sessions (put key session sessions) := by
  intro k
  rw [modelIn_put]
  by_cases hk : k = key
  · rw [if_pos hk, hk, h]
    exact .inl rfl
  · rw [if_neg hk]
    exact .inl rfl

private theorem model_getD (sessions : Sessions) (key : String) :
    ((sessions.lookup key).getD { key := key }).model = modelIn sessions key := by
  unfold modelIn
  cases sessions.lookup key <;> rfl

private theorem model_of_lookup {sessions : Sessions} {key : String} {session : SessionUiState}
    (h : sessions.lookup key = some session) : session.model = modelIn sessions key := by
  unfold modelIn
  rw [h]
  rfl

theorem dims_applySessionChange {p : Platform} {sessions sessions' : Sessions} {key kind rowJson title : String}
    {index : Int} {known : Finset String}
    (h : applySessionChange p sessions key kind index rowJson known title = some sessions') :
    Dims sessions sessions' := by
  unfold applySessionChange at h
  split at h
  · cases h
    exact .refl sessions
  · dsimp only at h
    split at h
    · cases h
      refine dims_put ?_
      split <;> exact model_getD sessions key
    · obtain ⟨rows, -, rfl⟩ := Option.map_eq_some_iff.1 h
      exact dims_put (model_getD sessions key)

theorem dims_ensureSession (sessions : Sessions) (key : String) : Dims sessions (ensureSession sessions key) := by
  unfold ensureSession
  by_cases h : key ∈ sessions
  · rw [if_pos h]
    exact .refl sessions
  · rw [if_neg h]
    refine dims_put ?_
    unfold modelIn
    rw [AList.lookup_eq_none.2 h]
    rfl

theorem dims_withProfile (sessions : Sessions) (key profile : String) :
    Dims sessions (withProfile sessions key profile) := by
  unfold withProfile
  split
  · exact .refl sessions
  · cases hcurrent : sessions.lookup key with
    | none => exact .refl sessions
    | some current =>
      dsimp only
      split
      · exact .refl sessions
      · have hmodel := model_of_lookup hcurrent
        exact dims_put hmodel

theorem dims_applySummaries (sessions : Sessions) (summaries : List SessionSummary) :
    Dims sessions (applySummaries sessions summaries) := by
  unfold applySummaries
  induction summaries generalizing sessions with
  | nil => exact .refl sessions
  | cons summary summaries ih =>
    rw [List.foldl_cons]
    refine Dims.trans ?_ (ih _)
    cases hexisting : sessions.lookup summary.key with
    | none => exact .refl sessions
    | some existing =>
      have hmodel := model_of_lookup hexisting
      exact dims_put hmodel

namespace AppState

private theorem dims_drainLoop {p : Platform} {key : String} {known : Finset String} {sessions sessions' : Sessions}
    {otherKeys queue remaining : List TranscriptChangeDto}
    (h : drainLoop p key known sessions otherKeys queue = .ok (sessions', remaining)) : Dims sessions sessions' := by
  induction queue generalizing sessions otherKeys with
  | nil =>
    cases h
    exact .refl _
  | cons parked queue ih =>
    unfold drainLoop at h
    split at h
    · exact ih h
    · split at h
      · cases h
      · rename_i mid happ
        exact (dims_applySessionChange happ).trans (ih h)

theorem dims_drainParked {p : Platform} {s s' : AppState} {key : String} (h : s.drainParked p key = .ok s') :
    Dims s.sessions s'.sessions := by
  unfold drainParked at h
  split at h
  · cases h
  · rename_i hloop
    cases h
    exact dims_drainLoop hloop

theorem dims_registerKey {p : Platform} {s s' : AppState} {key : String} (h : s.registerKey p key = .ok s') :
    Dims s.sessions s'.sessions := by
  unfold registerKey at h
  cases hdrain : drainParked p { s with pendingKeys := insert key s.pendingKeys } key with
  | error left =>
    rw [hdrain] at h
    cases h
  | ok drained =>
    rw [hdrain] at h
    cases h
    have hdrained := dims_drainParked hdrain
    exact hdrained.trans (dims_ensureSession drained.sessions key)

/-! ### The last models known -/

/-- The models after the state, where the state has none the ones of before. -/
def remember (known : String → String) (s : AppState) : String → String :=
  fun key => if s.headerModel key = "" then known key else s.headerModel key

/-- The models of the state are known. -/
def Knows (s : AppState) (known : String → String) : Prop := ∀ key, s.headerModel key ≠ "" → known key = s.headerModel key

theorem knows_empty (known : String → String) : Knows {} known := fun _ h => absurd rfl h

theorem knows_remember (known : String → String) (s : AppState) : s.Knows (remember known s) :=
  fun _ h => if_neg h

/-- The model may stand over the session: it is empty, or the last one known for it. -/
def Belongs (known : String → String) (model : String) (shown : Option String) : Prop :=
  model ≠ "" → ∃ key, shown = some key ∧ known key = model

/-- The model of a ready app is the last one known for the session on the screen. -/
def Titled (s : AppState) (known : String → String) : Prop :=
  ∀ model, s.phase = .ready model → model ≠ "" → ∃ key, s.currentKey = some key ∧ known key = model

theorem titled_iff {s : AppState} {known : String → String} :
    s.Titled known ↔ Belongs known s.phase.model s.currentKey := by
  unfold Titled Belongs
  cases s.phase with
  | ready model =>
    constructor
    · exact fun h => h model rfl
    · rintro h _ ⟨⟩
      exact h
  | _ =>
    constructor
    · exact fun _ hne => absurd rfl hne
    · exact fun _ _ hphase => nomatch hphase

/-- A tap on a tab finds a model that may stand over it. -/
def MayTap (s : AppState) (known : String → String) (key : String) : Prop :=
  key ∈ s.tabs.keys → Belongs known s.phase.model (some key)

/-- A tap that does nothing is on the session on the screen, or on none. -/
theorem mayTap_of_none {s : AppState} {known : String → String} (htitled : s.Titled known) {key : String}
    (h : tabTap s.tabs s.currentKey key = none) : s.MayTap known key := by
  intro hmem
  have hshown := TabSet.tabTap_none h
  rw [if_pos hmem] at hshown
  rw [hshown]
  exact titled_iff.1 htitled

/-- The titlebar after a step, with the models that are known then. -/
def Retitled (known : String → String) (s' : AppState) : Prop := s'.Titled (remember known s')

/-! ### Quiet steps -/

/-- No model is brought: neither to a session nor to the titlebar. -/
structure Quiet (s s' : AppState) : Prop where
  models : Dims s.sessions s'.sessions
  phase : s'.phase.model = s.phase.model ∨ s'.phase.model = ""

theorem Quiet.refl (s : AppState) : Quiet s s := ⟨.refl _, .inl rfl⟩

theorem Quiet.trans {first second third : AppState} (h : Quiet first second) (h' : Quiet second third) :
    Quiet first third := by
  refine ⟨h.models.trans h'.models, ?_⟩
  rcases h'.phase with hsame | hnone
  · rw [hsame]
    exact h.phase
  · exact .inr hnone

/-- A quiet step that writes the session map. -/
theorem Quiet.of_dims {s s' : AppState} (hmodels : Dims s.sessions s'.sessions) (hphase : s'.phase = s.phase) :
    Quiet s s' := ⟨hmodels, .inl (congrArg AppPhase.model hphase)⟩

/-- A quiet step that writes the phase. -/
theorem Quiet.of_phase {s s' : AppState} (hsessions : s'.sessions = s.sessions)
    (hphase : s'.phase.model = s.phase.model ∨ s'.phase.model = "") : Quiet s s' := ⟨hsessions ▸ .refl _, hphase⟩

variable {s s' : AppState} {known : String → String}

theorem Quiet.remember (h : Quiet s s') (hknows : s.Knows known) : remember known s' = known := by
  funext key
  unfold AppState.remember
  split
  · rfl
  · rename_i hsome
    have hsame : s'.headerModel key = s.headerModel key := (h.models key).resolve_right hsome
    rw [hsame] at hsome ⊢
    exact (hknows key hsome).symm

theorem Quiet.knows (h : Quiet s s') (hknows : s.Knows known) : s'.Knows known :=
  h.remember hknows ▸ knows_remember known s'

/-- The model stays in the titlebar, whatever session it stands over then. -/
theorem Quiet.retitled_iff (h : Quiet s s') (hknows : s.Knows known) (hphase : s'.phase = s.phase) :
    Retitled known s' ↔ Belongs known s.phase.model s'.currentKey := by
  unfold Retitled
  rw [h.remember hknows, titled_iff, hphase]

/-- The session on the screen stays. -/
theorem Quiet.retitled (h : Quiet s s') (hknows : s.Knows known) (htitled : s.Titled known)
    (hcurrent : s'.currentKey = s.currentKey) : Retitled known s' := by
  unfold Retitled
  rw [h.remember hknows, titled_iff, hcurrent]
  rcases h.phase with hsame | hnone
  · rw [hsame]
    exact titled_iff.1 htitled
  · exact fun hne => absurd hnone hne

/-- An app that is not ready shows no model. -/
theorem retitled_of_not_ready (h : ¬ s'.phase.isReady) : Retitled known s' :=
  titled_iff.2 fun hne => absurd (AppPhase.model_of_not_ready h) hne

theorem quiet_beginOpen (s : AppState) : Quiet s s.beginOpen := .of_dims (.refl _) rfl

theorem quiet_finishInFlightOpen (p : Platform) (s : AppState) : Quiet s (s.finishInFlightOpen p) :=
  .of_dims (.refl _) rfl

theorem quiet_reduce (s : AppState) (event : PhaseMachine.ConnEvent) (h : ∀ model, event ≠ .header model)
    (savedEndpoint : String) (hasLiveSession : Bool) :
    Quiet s { s with phase := PhaseMachine.reduce s.phase event savedEndpoint hasLiveSession } :=
  .of_phase rfl (PhaseMachine.model_reduce event h s.phase savedEndpoint hasLiveSession)

theorem quiet_closed (s : AppState) (reason : String) : Quiet s (s.closed reason) :=
  quiet_reduce s (.closed reason) (fun _ h => nomatch h) s.endpointText false

theorem quiet_onConnectionStatus (s : AppState) (status : Lifecycle.ConnectionStatus) :
    Quiet s (s.onConnectionStatus status) := by
  cases status with
  | connecting => exact quiet_reduce s .connecting (fun _ h => nomatch h) s.endpointText false
  | «open» => exact quiet_reduce s .open (fun _ h => nomatch h) s.endpointText false
  | closed reason => exact quiet_closed s reason
  | needsPassword => exact quiet_reduce s .needsPassword (fun _ h => nomatch h) s.endpointText s.currentKey.isSome

theorem quiet_onTranscriptChange {p : Platform} {change : TranscriptChangeDto}
    (h : s.onTranscriptChange p change = some s') : Quiet s s' ∧ s'.currentKey = s.currentKey := by
  unfold onTranscriptChange at h
  by_cases hopen : s.isOpenOrRestoring change.key
  · rw [if_neg (not_not.2 hopen)] at h
    obtain ⟨sessions, happ, rfl⟩ := Option.map_eq_some_iff.1 h
    exact ⟨.of_dims (dims_applySessionChange happ) rfl, rfl⟩
  · rw [if_pos hopen, Option.some_inj] at h
    subst h
    by_cases hpos : s.inFlightOpens > 0
    · obtain ⟨parked, hpark⟩ := s.park_eq change
      rw [if_pos hpos, hpark]
      exact ⟨.of_dims (.refl _) rfl, rfl⟩
    · rw [if_neg hpos]
      exact ⟨.refl s, rfl⟩

/-! ### Steps that bring a model -/

/-- A model that comes for `key` may be shown: the session is on the screen, or the one there has the same. -/
def Fits (s : AppState) (known : String → String) (key model : String) : Prop :=
  s.currentKey = some key ∨ Belongs known model s.currentKey

/-- The titlebar takes over the model of one session, the only one that may have changed. -/
theorem retitled_iff_fits {key : String} (hknows : s.Knows known) (hcurrent : s'.currentKey = s.currentKey)
    (hother : ∀ k, k ≠ key → s'.headerModel k = s.headerModel k) (hphase : s'.phase = .ready (s'.headerModel key)) :
    Retitled known s' ↔ s.Fits known key (s'.headerModel key) := by
  have hsame : ∀ k, k ≠ key → remember known s' k = known k := by
    intro k hk
    unfold remember
    split
    · rfl
    · rename_i hsome
      rw [hother k hk] at hsome ⊢
      exact (hknows k hsome).symm
  unfold Retitled Fits
  rw [titled_iff, hphase, hcurrent]
  change Belongs _ (s'.headerModel key) _ ↔ _
  constructor
  · intro h
    by_cases hkey : s.currentKey = some key
    · exact .inl hkey
    · refine .inr fun hne => ?_
      obtain ⟨shown, hshown, hmodel⟩ := h hne
      have hk : shown ≠ key := by
        rintro rfl
        exact hkey hshown
      exact ⟨shown, hshown, (hsame shown hk).symm.trans hmodel⟩
  · intro h hne
    have hown : remember known s' key = s'.headerModel key := if_neg hne
    rcases h with hkey | hbelongs
    · exact ⟨key, hkey, hown⟩
    · obtain ⟨shown, hshown, hmodel⟩ := hbelongs hne
      refine ⟨shown, hshown, ?_⟩
      by_cases hk : shown = key
      · rw [hk, hown]
      · rw [hsame shown hk, hmodel]

/-- The titlebar takes over the model of the session on the screen. -/
theorem retitled_of_own (h : s'.phase = .ready ((s'.currentKey.map s'.headerModel).getD "")) : Retitled known s' := by
  refine titled_iff.2 ?_
  rw [h]
  intro hne
  cases hcurrent : s'.currentKey with
  | none =>
    rw [hcurrent] at hne
    exact absurd rfl hne
  | some key =>
    rw [hcurrent] at hne
    exact ⟨key, rfl, if_neg hne⟩

variable [HeaderReader]

theorem headerModel_writeSummary (s : AppState) (key : String) (summary : SessionSummary) (k : String) :
    (s.writeSummary key summary).headerModel k =
      if k = key then HeaderReader.headerModelOf summary.headerJson else s.headerModel k :=
  modelIn_put s.sessions key k _

/-- The model that the completion of an open shows. -/
def brought (s : AppState) (key : String) : Option SessionSummary → String
  | none => s.headerModel key
  | some summary => HeaderReader.headerModelOf summary.headerJson

/-- A header that is written and shown. -/
theorem retitled_showHeader (hknows : s.Knows known) (htitled : s.Titled known) (key : String)
    (summary : SessionSummary) :
    Retitled known ((s.writeSummary key summary).showHeader summary) ↔
      (s.phase.isReady → s.Fits known key (HeaderReader.headerModelOf summary.headerJson)) := by
  have hwritten := headerModel_writeSummary s key summary
  have hown : (s.writeSummary key summary).headerModel key = HeaderReader.headerModelOf summary.headerJson := by
    rw [hwritten, if_pos rfl]
  have hother : ∀ k, k ≠ key → (s.writeSummary key summary).headerModel k = s.headerModel k := by
    intro k hk
    rw [hwritten, if_neg hk]
  by_cases hshown : s.phase.isReady ∧ HeaderReader.headerModelOf summary.headerJson ≠ ""
  · have hphase : ((s.writeSummary key summary).showHeader summary).phase =
        .ready ((s.writeSummary key summary).headerModel key) := by
      rw [hown]
      exact if_pos hshown
    rw [← hown]
    refine Iff.trans (retitled_iff_fits hknows rfl hother hphase) ?_
    exact ⟨fun h _ => h, fun h => h hshown.1⟩
  · have hphase : ((s.writeSummary key summary).showHeader summary).phase = s.phase := if_neg hshown
    by_cases hready : s.phase.isReady
    · -- an empty model is written, and leaves the titlebar alone
      have hnone : HeaderReader.headerModelOf summary.headerJson = "" := not_not.1 fun hne => hshown ⟨hready, hne⟩
      have hdims : Dims s.sessions (s.writeSummary key summary).sessions := by
        intro k
        by_cases hk : k = key
        · rw [hk]
          exact .inr (hown.trans hnone)
        · exact .inl (hother k hk)
      have hquiet : Quiet s ((s.writeSummary key summary).showHeader summary) := .of_dims hdims hphase
      exact iff_of_true (hquiet.retitled hknows htitled rfl) fun _ => .inr fun hne => absurd hnone hne
    · refine iff_of_true (retitled_of_not_ready ?_) fun h => absurd h hready
      rwa [hphase]

/-- The end of `afterOpen` on Android. -/
theorem retitled_afterOpen (hknows : s.Knows known) (key : String) (summary : Option SessionSummary) :
    Retitled known (s.afterOpen .android key summary) ↔ s.Fits known key (s.brought key summary) := by
  cases summary with
  | none => exact retitled_iff_fits hknows rfl (fun _ _ => rfl) rfl
  | some summary =>
    have hwritten := headerModel_writeSummary s key summary
    have hown : (s.afterOpen .android key (some summary)).headerModel key = s.brought key (some summary) := by
      refine (hwritten key).trans ?_
      rw [if_pos rfl]
      rfl
    rw [← hown]
    refine retitled_iff_fits hknows rfl ?_ rfl
    intro k hk
    refine (hwritten k).trans ?_
    rw [if_neg hk]

/-! ### Runs -/

section

variable {σ α : Type} (step : σ → α → Option σ) (app : σ → AppState)

/-- A step of an app, with the last models known beside it. -/
def titleStep : σ × (String → String) → α → Option (σ × (String → String)) :=
  Run.noting step fun known s => remember known (app s)

omit [HeaderReader] in
/-- Where a step keeps the titlebar exactly under a condition, a run keeps it exactly when all its steps meet it. -/
theorem titled_run {Steady : σ × (String → String) → α → Prop}
    (hstep : ∀ s known l s', (app s).Knows known → (app s).Titled known → step s l = some s' →
      (Retitled known (app s') ↔ Steady (s, known) l)) {start s : σ} (hstart : app start = {}) {labels : List α}
    (hrun : Run.exec step start labels = some s) :
    (∀ before w, before <+: labels → Run.exec (titleStep step app) (start, fun _ => "") before = some w →
      (app w.1).Titled w.2) ↔ Run.Meets (titleStep step app) Steady (start, fun _ => "") labels := by
  obtain ⟨record, hnoted⟩ := Run.exec_noting step hrun (fun known s => remember known (app s)) fun _ => ""
  have hgiven : Run.Meets (titleStep step app) (fun _ _ => True) (start, fun _ => "") labels :=
    Run.meets_of_forall _ (by simp) _
  refine Run.always_iff (titleStep step app) (I := fun w => (app w.1).Knows w.2) ?_ ?_ ?_ ?_ hgiven hnoted
  · intro w l w' _ hnext
    rw [(Run.noting_eq step hnext).2]
    exact knows_remember w.2 (app w'.1)
  · intro w l w' hknows htitled _ hnext
    obtain ⟨hinner, hrecord⟩ := Run.noting_eq step hnext
    rw [hrecord]
    exact hstep w.1 w.2 l w'.1 hknows htitled hinner
  · rw [hstart]
    exact knows_empty _
  · rw [hstart]
    exact fun _ hphase => nomatch hphase

end

end AppState

end Hermo
