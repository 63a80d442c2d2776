import PrivacyGuard.Display.Contract

/-! # The two threads of the display

The tick thread calls `privacy_mode_changed` while the UI thread changes settings,
handles frontend events and runs queued apply tasks. An atomic step is a section under
the mutex, one atomic load or store, or a scene operation of the UI thread; a call is
the script of steps that it still has to take.
-/

namespace PrivacyGuard

inductive FrontendEvent
  | sceneCollectionChanging
  | sceneListChanged
  deriving DecidableEq, Repr

inductive Action
  | checkAlive
  /-- The section that compares a generation with the current one. -/
  | checkGeneration (generation : ℕ)
  /-- The section of `settings_snapshot`. -/
  | loadSettings (mode : Mode)
  | switchToScene (mode : Mode) (scene : Bytes)
  | rememberScene (previousScene : Bytes)
  | setActiveTargetScene (scene : Bytes)
  | restorePreviousScene
  | clearImage
  | selectDefault (mode : Mode)
  | selectCustom (mode : Mode) (path : Bytes)
  | setWatermarkRequired (value : Bool)
  | setOverlayRequired (value : Bool)
  /-- The section of `update_settings`, which also reads the latest mode. -/
  | storeSettings (settings : DisplaySettings)
  /-- The section of `queue_apply`. -/
  | publish (mode : Mode)
  | enqueue (request : ApplyRequest)
  /-- The section in which a frontend event reads the latest mode. -/
  | loadLatestMode (event : FrontendEvent)
  | checkTargetScene
  | forgetScenes
  deriving DecidableEq, Repr

def coverActions (mode : Mode) : List Action :=
  if isProtectedMode mode then
    [.setWatermarkRequired false, .setOverlayRequired true, .clearImage]
  else []

def privacyModeActions (mode : Mode) : List Action :=
  .checkAlive :: (coverActions mode ++ [.publish mode])

def applyActions (request : ApplyRequest) : List Action :=
  .checkAlive :: .checkGeneration request.generation ::
    if isProtectedMode request.mode then [.loadSettings request.mode]
    else [.setWatermarkRequired false, .setOverlayRequired false, .restorePreviousScene]

def builtInActions (mode : Mode) : List Action :=
  [.restorePreviousScene, .selectDefault mode, .setWatermarkRequired false,
    .setOverlayRequired true]

def displayActions (settings : DisplaySettings) (mode : Mode) : List Action :=
  match resolveDisplayAction settings mode with
  | .builtInImage => builtInActions mode
  | .customImage => [.restorePreviousScene, .selectCustom mode (settings.event mode).imagePath]
  | _ => [.switchToScene mode (settings.event mode).scene]

def frontendEventActions : FrontendEvent → List Action
  | .sceneCollectionChanging => [.loadLatestMode .sceneCollectionChanging]
  | .sceneListChanged => [.checkTargetScene, .loadLatestMode .sceneListChanged]

def invalidateActions (mode : Mode) : FrontendEvent → List Action
  | .sceneCollectionChanging =>
    [.setWatermarkRequired false, .setOverlayRequired (isProtectedMode mode), .clearImage,
      .forgetScenes]
  | .sceneListChanged =>
    [.setWatermarkRequired false, .setOverlayRequired true, .selectDefault mode,
      .restorePreviousScene]

/-- One step of a call: the controller after it and the steps that are left. A check that
fails ends the call. -/
def Action.exec (c : Controller) (answers : Answers) (rest : List Action) :
    Action → Controller × List Action
  | .checkAlive => (c, if c.alive then rest else [])
  | .checkGeneration generation => (c, if generation = c.generation then rest else [])
  | .loadSettings mode => (c, displayActions c.settings mode ++ rest)
  | .switchToScene mode scene =>
    let previousScene := if c.customSceneActive then [] else answers.currentScene
    match c.switchToScene scene answers.target with
    | (d, false) => (d, builtInActions mode ++ rest)
    | (d, true) =>
      (d, [.rememberScene previousScene, .clearImage, .setActiveTargetScene scene,
        .setWatermarkRequired c.watermarkAvailable, .setOverlayRequired false] ++ rest)
  | .rememberScene previousScene =>
    (if !c.customSceneActive then { c with previousScene, customSceneActive := true } else c, rest)
  | .setActiveTargetScene scene => ({ c with activeTargetScene := scene }, rest)
  | .restorePreviousScene => (c.restorePreviousScene answers.previous, rest)
  | .clearImage => ({ c with image := .cleared }, rest)
  | .selectDefault mode => (c.selectDefault mode answers.bundled, rest)
  | .selectCustom mode path =>
    if answers.custom then
      ({ c with image := .custom path },
        [.setWatermarkRequired c.watermarkAvailable, .setOverlayRequired true] ++ rest)
    else
      (c, [.selectDefault mode, .setWatermarkRequired false, .setOverlayRequired true] ++ rest)
  | .setWatermarkRequired value => ({ c with watermarkRequired := value }, rest)
  | .setOverlayRequired value => ({ c with overlayRequired := value }, rest)
  | .storeSettings settings =>
    ({ c with settings }, coverActions c.latestMode ++ [.publish c.latestMode] ++ rest)
  | .publish mode =>
    let generation := increment c.generation
    ({ c with latestMode := mode, generation }, .enqueue { mode, generation } :: rest)
  | .enqueue request => ({ c with queue := c.queue ++ [request] }, rest)
  | .loadLatestMode event => (c, invalidateActions c.latestMode event ++ rest)
  | .checkTargetScene =>
    (c, if !c.activeTargetScene.isEmpty && !answers.targetExists then rest else [])
  | .forgetScenes =>
    ({ c with customSceneActive := false, previousScene := [], activeTargetScene := [] }, rest)

/-! ### Scripts without interference -/

/-- The other thread rests while the script runs to its end. -/
inductive Completes : Controller → List Action → Controller → Prop
  | done (c : Controller) : Completes c [] c
  | step {c c' : Controller} {action : Action} {rest : List Action} (answers : Answers) :
      Completes (action.exec c answers rest).1 (action.exec c answers rest).2 c' →
        Completes c (action :: rest) c'

instance : Inhabited Answers := ⟨{}⟩

namespace Completes

variable {c c' : Controller} {mode : Mode} {request : ApplyRequest}

theorem nil_iff : Completes c [] c' ↔ c' = c := by
  constructor
  · rintro ⟨⟩
    rfl
  · rintro rfl
    exact .done c'

theorem cons_iff {action : Action} {rest : List Action} : Completes c (action :: rest) c' ↔
    ∃ answers, Completes (action.exec c answers rest).1 (action.exec c answers rest).2 c' := by
  constructor
  · rintro (_ | ⟨answers, h⟩)
    exact ⟨answers, h⟩
  · rintro ⟨answers, h⟩
    exact .step answers h

theorem privacyModeChanged (h : Completes c (privacyModeActions mode) c') :
    c' = c.privacyModeChanged mode := by
  unfold privacyModeActions coverActions at h
  unfold Controller.privacyModeChanged
  cases halive : c.alive with
  | false => simpa [cons_iff, nil_iff, Action.exec, halive] using h
  | true =>
    cases hp : isProtectedMode mode <;>
      simpa [cons_iff, nil_iff, Action.exec, Controller.cover, Controller.queueApply, halive, hp]
        using h

theorem updateSettings {settings : DisplaySettings} (h : Completes c [.storeSettings settings] c') :
    c' = c.updateSettings settings := by
  unfold Controller.updateSettings
  cases hp : isProtectedMode c.latestMode <;>
    simpa [cons_iff, nil_iff, Action.exec, coverActions, Controller.cover, Controller.queueApply,
      hp] using h

theorem sceneCollectionChanging
    (h : Completes c (frontendEventActions .sceneCollectionChanging) c') :
    c' = c.sceneCollectionChanging := by
  simpa [frontendEventActions, invalidateActions, cons_iff, nil_iff, Action.exec,
    Controller.sceneCollectionChanging] using h

theorem sceneListChanged (h : Completes c (frontendEventActions .sceneListChanged) c') :
    ∃ answers, c' = c.sceneListChanged answers := by
  obtain ⟨checked, h⟩ := cons_iff.mp h
  simp only [Action.exec] at h
  unfold Controller.sceneListChanged
  split at h
  case isTrue hgone =>
    simp only [cons_iff, nil_iff, Action.exec, invalidateActions, List.cons_append,
      List.nil_append, exists_const] at h
    obtain ⟨selected, restored, rfl⟩ := h
    refine ⟨{ restored with targetExists := checked.targetExists, bundled := selected.bundled }, ?_⟩
    rw [if_pos hgone]
  case isFalse hstays =>
    obtain rfl := nil_iff.mp h
    exact ⟨checked, by rw [if_neg hstays]⟩

theorem showBuiltIn (h : Completes c (builtInActions mode) c') :
    ∃ answers, c' = c.showBuiltIn mode answers := by
  simp only [builtInActions, cons_iff, nil_iff, Action.exec, exists_const] at h
  obtain ⟨restored, selected, rfl⟩ := h
  exact ⟨{ restored with bundled := selected.bundled }, rfl⟩

theorem showCustomImage {path : Bytes}
    (h : Completes c [.restorePreviousScene, .selectCustom mode path] c') :
    ∃ answers, c' = c.showCustomImage mode path answers := by
  obtain ⟨restored, h⟩ := cons_iff.mp h
  obtain ⟨loaded, h⟩ := cons_iff.mp h
  simp only [Action.exec] at h
  unfold Controller.showCustomImage
  split at h
  case isTrue hcustom =>
    simp only [cons_iff, nil_iff, Action.exec, List.cons_append, List.nil_append, exists_const] at h
    subst h
    exact ⟨{ restored with custom := true }, by simp only [if_true]⟩
  case isFalse hcustom =>
    simp only [cons_iff, nil_iff, Action.exec, List.cons_append, List.nil_append, exists_const] at h
    obtain ⟨selected, rfl⟩ := h
    exact ⟨{ restored with custom := false, bundled := selected.bundled }, by simp⟩

theorem showCustomScene {scene : Bytes} (h : Completes c [.switchToScene mode scene] c') :
    ∃ answers, c' = c.showCustomScene mode scene answers := by
  obtain ⟨switched, h⟩ := cons_iff.mp h
  simp only [Action.exec, Controller.switchToScene] at h
  unfold Controller.showCustomScene Controller.switchToScene
  cases htarget : switched.target with
  | false =>
    simp only [htarget, Bool.false_eq_true, if_false, List.append_nil] at h
    obtain ⟨answers, rfl⟩ := showBuiltIn h
    exact ⟨{ answers with target := false }, rfl⟩
  | true =>
    refine ⟨switched, ?_⟩
    cases hactive : c.customSceneActive <;>
      simpa [htarget, hactive, cons_iff, nil_iff, Action.exec] using h

theorem applyOnUiThread (h : Completes c (applyActions request) c') :
    ∃ answers, c' = c.applyOnUiThread request answers := by
  unfold applyActions at h
  unfold Controller.applyOnUiThread
  obtain ⟨_, h⟩ := cons_iff.mp h
  simp only [Action.exec] at h
  split at h
  case isFalse hdead =>
    obtain rfl := nil_iff.mp h
    exact ⟨{}, by simp [hdead]⟩
  case isTrue halive =>
    obtain ⟨_, h⟩ := cons_iff.mp h
    simp only [Action.exec] at h
    split at h
    case isFalse hstale =>
      obtain rfl := nil_iff.mp h
      exact ⟨{}, by simp [hstale]⟩
    case isTrue hcurrent =>
      simp only [halive, hcurrent, Bool.not_true, Bool.false_eq_true, if_false, ne_eq, not_true]
      cases hp : isProtectedMode request.mode with
      | false =>
        simp only [hp, Bool.false_eq_true, if_false, cons_iff, nil_iff, Action.exec,
          exists_const] at h
        simpa [halive] using h
      | true =>
        simp only [hp, if_true, Bool.not_true, Bool.false_eq_true, if_false] at h ⊢
        obtain ⟨_, h⟩ := cons_iff.mp h
        simp only [Action.exec, displayActions, List.append_nil] at h
        cases haction : resolveDisplayAction c.settings request.mode <;> simp only [haction] at h ⊢
        case builtInImage => exact showBuiltIn h
        case customImage => exact showCustomImage h
        all_goals exact showCustomScene h

end Completes

/-! ### Steps that announce a mode and steps that do not -/

/-- The steps with which a protected mode covers the output. -/
def Action.Covers : Action → Prop
  | .checkAlive | .setWatermarkRequired false | .setOverlayRequired true | .clearImage => True
  | _ => False

/-- Steps that touch neither the settings nor the requests. -/
def Action.Quiet : Action → Prop
  | .storeSettings _ | .publish _ | .enqueue _ => False
  | _ => True

inductive Announces (mode : Mode) : List Action → Prop
  | done : Announces mode []
  | enqueue {request : ApplyRequest} : request.mode = mode → Announces mode [.enqueue request]
  | publish : Announces mode [.publish mode]
  | cover {action : Action} {rest : List Action} :
      action.Covers → Announces mode rest → Announces mode (action :: rest)

theorem announces_coverActions (mode : Mode) :
    Announces mode (coverActions mode ++ [.publish mode]) := by
  unfold coverActions
  split
  · exact .cover trivial (.cover trivial (.cover trivial .publish))
  · exact .publish

theorem announces_privacyModeActions (mode : Mode) : Announces mode (privacyModeActions mode) :=
  .cover trivial (announces_coverActions mode)

/-- What a step may depend on is the same in `d`, which is covered where `c` is. -/
structure Controller.Darker (c d : Controller) : Prop where
  same : c.settings = d.settings ∧ c.latestMode = d.latestMode ∧ c.generation = d.generation ∧
    c.alive = d.alive ∧ c.watermarkAvailable = d.watermarkAvailable
  scenes : c.customSceneActive = d.customSceneActive ∧ c.previousScene = d.previousScene ∧
    c.activeTargetScene = d.activeTargetScene
  overlay : c.overlayRequired = true → d.overlayRequired = true

namespace Action

open Controller (SameDecision Darker)

variable {c d : Controller} {action : Action} {answers : Answers} {rest : List Action}

theorem Covers.exec (h : action.Covers) (halive : c.alive = true) (answers : Answers)
    (rest : List Action) :
    (action.exec c answers rest).2 = rest ∧ SameDecision c (action.exec c answers rest).1 ∧
      Darker c (action.exec c answers rest).1 := by
  unfold Covers at h
  split at h
  case h_1 =>
    exact ⟨by simp [Action.exec, halive], ⟨rfl, rfl, rfl, rfl, rfl⟩, ⟨rfl, rfl, rfl, rfl, rfl⟩,
      ⟨rfl, rfl, rfl⟩, id⟩
  case h_5 => exact h.elim
  all_goals
    exact ⟨rfl, ⟨rfl, rfl, rfl, rfl, rfl⟩, ⟨rfl, rfl, rfl, rfl, rfl⟩, ⟨rfl, rfl, rfl⟩,
      by simp [Action.exec]⟩

theorem quiet_displayActions (settings : DisplaySettings) (mode : Mode) :
    ∀ other ∈ displayActions settings mode, other.Quiet := by
  unfold displayActions
  split <;> simp [builtInActions, Quiet]

theorem quiet_invalidateActions (mode : Mode) (event : FrontendEvent) :
    ∀ other ∈ invalidateActions mode event, other.Quiet := by
  cases event <;> simp [invalidateActions, Quiet]

theorem quiet_applyActions (request : ApplyRequest) :
    ∀ other ∈ applyActions request, other.Quiet := by
  unfold applyActions
  split <;> simp [Quiet]

theorem quiet_frontendEventActions (event : FrontendEvent) :
    ∀ other ∈ frontendEventActions event, other.Quiet := by
  cases event <;> simp [frontendEventActions, Quiet]

theorem Quiet.exec (h : action.Quiet) (hrest : ∀ other ∈ rest, other.Quiet) (c : Controller)
    (answers : Answers) :
    SameDecision c (action.exec c answers rest).1 ∧
      ∀ other ∈ (action.exec c answers rest).2, other.Quiet := by
  have hkept (script : List Action) (hscript : ∀ other ∈ script, other.Quiet) :
      ∀ other ∈ script ++ rest, other.Quiet := List.forall_mem_append.mpr ⟨hscript, hrest⟩
  cases action with
  | checkAlive | checkGeneration | checkTargetScene =>
    refine ⟨⟨rfl, rfl, rfl, rfl, rfl⟩, ?_⟩
    simp only [Action.exec]
    split
    · exact hrest
    · simp
  | loadSettings mode => exact ⟨⟨rfl, rfl, rfl, rfl, rfl⟩, hkept _ (quiet_displayActions _ _)⟩
  | loadLatestMode event => exact ⟨⟨rfl, rfl, rfl, rfl, rfl⟩, hkept _ (quiet_invalidateActions _ _)⟩
  | switchToScene mode scene =>
    simp only [Action.exec, Controller.switchToScene]
    cases answers.target
    · exact ⟨⟨rfl, rfl, rfl, rfl, rfl⟩, hkept _ (by simp [builtInActions, Quiet])⟩
    · exact ⟨⟨rfl, rfl, rfl, rfl, rfl⟩, by simpa [Quiet] using hrest⟩
  | rememberScene previousScene =>
    refine ⟨?_, hrest⟩
    simp only [Action.exec]
    split <;> exact ⟨rfl, rfl, rfl, rfl, rfl⟩
  | restorePreviousScene =>
    obtain ⟨switches, hr⟩ := c.restorePreviousScene_eq answers.previous
    simp only [Action.exec, hr]
    exact ⟨⟨rfl, rfl, rfl, rfl, rfl⟩, hrest⟩
  | selectCustom mode path =>
    simp only [Action.exec]
    split <;> exact ⟨⟨rfl, rfl, rfl, rfl, rfl⟩, by simpa [Quiet] using hrest⟩
  | storeSettings | publish | enqueue => exact h.elim
  | _ => exact ⟨⟨rfl, rfl, rfl, rfl, rfl⟩, hrest⟩

theorem exec_darker (h : Darker c d) :
    (action.exec c answers rest).2 = (action.exec d answers rest).2 ∧
      Darker (action.exec c answers rest).1 (action.exec d answers rest).1 := by
  have ⟨⟨hs, hl, hg, ha, hw⟩, ⟨hactive, hprevious, htarget⟩, ho⟩ := h
  cases action with
  | restorePreviousScene =>
    obtain ⟨switches, hr⟩ := c.restorePreviousScene_eq answers.previous
    obtain ⟨switches', hr'⟩ := d.restorePreviousScene_eq answers.previous
    simp only [Action.exec, hr, hr']
    exact ⟨trivial, ⟨⟨hs, hl, hg, ha, hw⟩, ⟨rfl, rfl, rfl⟩, ho⟩⟩
  | switchToScene mode scene =>
    cases hanswer : answers.target with
    | false => exact ⟨by simp [Action.exec, Controller.switchToScene, hanswer],
        by simpa [Action.exec, Controller.switchToScene, hanswer] using h⟩
    | true =>
      refine ⟨by simp [Action.exec, Controller.switchToScene, hanswer, hactive, hw], ?_⟩
      simp only [Action.exec, Controller.switchToScene, hanswer, if_true]
      exact ⟨⟨hs, hl, hg, ha, hw⟩, ⟨hactive, hprevious, htarget⟩, ho⟩
  | rememberScene previousScene =>
    simp only [Action.exec, hactive]
    refine ⟨trivial, ?_⟩
    split
    · exact ⟨⟨hs, hl, hg, ha, hw⟩, ⟨rfl, rfl, htarget⟩, ho⟩
    · exact h
  | selectCustom mode path =>
    simp only [Action.exec]
    split
    · exact ⟨by simp only [hw], ⟨⟨hs, hl, hg, ha, hw⟩, ⟨hactive, hprevious, htarget⟩, ho⟩⟩
    · exact ⟨rfl, h⟩
  | setOverlayRequired value =>
    exact ⟨rfl, ⟨⟨hs, hl, hg, ha, hw⟩, ⟨hactive, hprevious, htarget⟩, id⟩⟩
  | setActiveTargetScene scene => exact ⟨rfl, ⟨⟨hs, hl, hg, ha, hw⟩, ⟨hactive, hprevious, rfl⟩, ho⟩⟩
  | forgetScenes => exact ⟨rfl, ⟨⟨hs, hl, hg, ha, hw⟩, ⟨rfl, rfl, rfl⟩, ho⟩⟩
  | storeSettings settings =>
    exact ⟨by simp only [Action.exec, hl],
      ⟨⟨rfl, hl, hg, ha, hw⟩, ⟨hactive, hprevious, htarget⟩, ho⟩⟩
  | publish mode =>
    simp only [Action.exec, hg]
    exact ⟨trivial, ⟨⟨hs, rfl, rfl, ha, hw⟩, ⟨hactive, hprevious, htarget⟩, ho⟩⟩
  | checkAlive | checkGeneration | checkTargetScene | loadSettings | loadLatestMode =>
    exact ⟨by simp only [Action.exec, hs, hl, hg, ha, htarget], h⟩
  | _ => exact ⟨rfl, ⟨⟨hs, hl, hg, ha, hw⟩, ⟨hactive, hprevious, htarget⟩, ho⟩⟩

end Action

/-- A darker start leads to a darker end. -/
theorem Completes.of_darker {c d d' : Controller} {script : List Action}
    (h : Completes d script d') (hcd : c.Darker d) :
    ∃ c', Completes c script c' ∧ c'.Darker d' := by
  induction h generalizing c with
  | done d => exact ⟨c, .done c, hcd⟩
  | step answers h ih =>
    obtain ⟨hscript, hdarker⟩ := Action.exec_darker hcd
    obtain ⟨c', hc', hdarker'⟩ := ih hdarker
    exact ⟨c', .step answers (hscript ▸ hc'), hdarker'⟩

/-! ### Interleavings -/

def Action.queued : Action → Option ApplyRequest
  | .enqueue request => some request
  | _ => none

def Action.reached (answers : Answers) : Action → Option Bytes
  | .switchToScene _ scene => if answers.target then some scene else none
  | _ => none

/-- The controller, the steps that the calls in progress have left, and what happened before. -/
structure Threads where
  controller : Controller
  tick : List Action := []
  ui : List Action := []
  /-- The argument of the last call of `privacy_mode_changed`. -/
  decision : Option Mode := none
  /-- The request that this call has queued. -/
  request : Option ApplyRequest := none
  /-- The request of the last call of the UI thread, if that call is an apply task. -/
  applying : Option ApplyRequest := none
  /-- The scenes that apply tasks have switched to, newest first. -/
  switched : List (ApplyRequest × Bytes) := []
  deriving DecidableEq, Repr

theorem Action.Covers.queued {action : Action} (h : action.Covers) : action.queued = none := by
  cases action with
  | enqueue => exact h.elim
  | _ => rfl

namespace Threads

inductive Label
  | privacyModeChanged (mode : Mode)
  /-- The next step of the tick thread. -/
  | tick
  | updateSettings (settings : DisplaySettings)
  | frontendEvent (event : FrontendEvent)
  /-- A queued apply task starts. -/
  | apply (i : ℕ)
  /-- The next step of the UI thread. -/
  | ui (answers : Answers)
  deriving DecidableEq, Repr

def Label.requests : Label → ℕ
  | .privacyModeChanged _ => 1
  | .updateSettings _ => 1
  | _ => 0

def start (controller : Controller) : Threads := { controller }

def decided (t : Threads) : Mode := t.decision.getD .awaitingConnection

/-- A call of the UI thread starts after the one before has returned. -/
def begin (t : Threads) (script : List Action) (applying : Option ApplyRequest) : Option Threads :=
  if t.ui = [] then some { t with ui := script, applying } else none

def step (t : Threads) : Label → Option Threads
  | .privacyModeChanged mode =>
    if t.tick = [] then
      some { t with tick := privacyModeActions mode, decision := some mode, request := none }
    else none
  | .tick =>
    match t.tick with
    | [] => none
    | action :: rest =>
      some
        { t with
          controller := (action.exec t.controller {} rest).1
          tick := (action.exec t.controller {} rest).2
          request := action.queued.or t.request }
  | .updateSettings settings => t.begin [.storeSettings settings] none
  | .frontendEvent event => t.begin (frontendEventActions event) none
  | .apply i =>
    match t.controller.queue[i]? with
    | none => none
    | some request =>
      begin { t with controller := t.controller.dequeue i } (applyActions request) (some request)
  | .ui answers =>
    match t.ui with
    | [] => none
    | action :: rest =>
      some
        { t with
          controller := (action.exec t.controller answers rest).1
          ui := (action.exec t.controller answers rest).2
          switched :=
            (Option.map₂ Prod.mk t.applying (action.reached answers)).toList ++ t.switched }

variable {t t' : Threads}

theorem begin_eq_some {script : List Action} {applying : Option ApplyRequest} :
    t.begin script applying = some t' ↔ t.ui = [] ∧ { t with ui := script, applying } = t' := by
  simp [begin]

theorem step_privacyModeChanged {mode : Mode} (hs : t.step (.privacyModeChanged mode) = some t') :
    t.tick = [] ∧
      { t with tick := privacyModeActions mode, decision := some mode, request := none } = t' := by
  simpa [step] using hs

theorem step_tick (hs : t.step .tick = some t') : ∃ action rest, t.tick = action :: rest ∧
    { t with
      controller := (action.exec t.controller {} rest).1
      tick := (action.exec t.controller {} rest).2
      request := action.queued.or t.request } = t' := by
  simp only [step] at hs
  split at hs
  case h_1 => cases hs
  case h_2 action rest htick => exact ⟨action, rest, htick, Option.some.inj hs⟩

theorem step_apply {i : ℕ} (hs : t.step (.apply i) = some t') :
    ∃ request, t.controller.queue[i]? = some request ∧ t.ui = [] ∧
      { t with
        controller := t.controller.dequeue i
        ui := applyActions request
        applying := some request } = t' := by
  simp only [step] at hs
  split at hs
  case h_1 => cases hs
  case h_2 request hi => exact ⟨request, hi, begin_eq_some.mp hs⟩

theorem step_ui {answers : Answers} (hs : t.step (.ui answers) = some t') :
    ∃ action rest, t.ui = action :: rest ∧
      { t with
        controller := (action.exec t.controller answers rest).1
        ui := (action.exec t.controller answers rest).2
        switched :=
          (Option.map₂ Prod.mk t.applying (action.reached answers)).toList ++ t.switched } =
        t' := by
  simp only [step] at hs
  split at hs
  case h_1 => cases hs
  case h_2 action rest hui => exact ⟨action, rest, hui, Option.some.inj hs⟩

end Threads

end PrivacyGuard
