import PrivacyGuard.Protocol.Frame
import PrivacyGuard.State.Basic

/-! # The display controller

`ProtectionDisplayController` turns privacy modes into what the output shows: the black
overlay with an image, a scene of the user, or nothing. Every function below is one call
of the class. What OBS and Qt answer to its lookups is an input of the call.
-/

namespace PrivacyGuard

inductive DisplayMode
  | builtInImage
  | customImage
  | customScene
  deriving DecidableEq, Repr

structure EventDisplaySettings where
  mode : DisplayMode := .builtInImage
  imagePath : Bytes := []
  scene : Bytes := []
  deriving DecidableEq, Repr

structure DisplaySettings where
  sensitive : EventDisplaySettings := {}
  connection : EventDisplaySettings := {}
  customSceneRiskAccepted : Bool := false
  deriving DecidableEq, Repr

inductive DisplayAction
  | normalOutput
  | builtInImage
  | customImage
  | customScene
  deriving DecidableEq, Repr

/-- The settings of the event that a protected mode reports. -/
def DisplaySettings.event (settings : DisplaySettings) (mode : Mode) : EventDisplaySettings :=
  if mode = .sensitive then settings.sensitive else settings.connection

/-- Resolve a privacy mode while preserving the bundled image as the safe default. -/
def resolveDisplayAction (settings : DisplaySettings) (mode : Mode) : DisplayAction :=
  if mode = .safe ∨ mode = .disabled then .normalOutput
  else
    let event := settings.event mode
    if event.mode = .customScene ∧ settings.customSceneRiskAccepted = true ∧ event.scene ≠ [] then
      .customScene
    else if event.mode = .customImage ∧ event.imagePath ≠ [] then .customImage
    else .builtInImage

def isProtectedMode (mode : Mode) : Bool :=
  decide (mode = .awaitingConnection) || decide (mode = .sensitive) || decide (mode = .disconnected)

theorem resolveDisplayAction_eq_normalOutput_iff {settings : DisplaySettings} {mode : Mode} :
    resolveDisplayAction settings mode = .normalOutput ↔ isProtectedMode mode = false := by
  cases mode <;> simp [resolveDisplayAction, isProtectedMode] <;> grind

theorem of_resolveDisplayAction_eq_customScene {settings : DisplaySettings} {mode : Mode}
    (h : resolveDisplayAction settings mode = .customScene) :
    settings.customSceneRiskAccepted = true ∧ (settings.event mode).scene ≠ [] := by
  rw [resolveDisplayAction] at h
  split at h
  · cases h
  · simp only at h
    split at h
    · rename_i hscene
      exact hscene.2
    · split at h <;> cases h

def resourcePath (mode : Mode) : Bytes :=
  if mode = .sensitive then ascii ":/privacy-guard/sensitive-file.png"
  else ascii ":/privacy-guard/connection-lost.png"

inductive SelectedImage
  | cleared
  | resource (path : Bytes)
  | custom (path : Bytes)
  deriving DecidableEq, Repr

structure ApplyRequest where
  mode : Mode
  generation : ℕ
  deriving DecidableEq, Repr

/-- What OBS and Qt answer during one call. -/
structure Answers where
  /-- Switching to the configured scene succeeds. -/
  target : Bool := true
  /-- Switching back to the previous scene succeeds. -/
  previous : Bool := true
  currentScene : Bytes := []
  /-- The custom image can be loaded. -/
  custom : Bool := true
  /-- The bundled image can be loaded. -/
  bundled : Bool := true
  /-- The active custom scene exists. -/
  targetExists : Bool := true
  deriving DecidableEq, Repr

/-- The fields of the controller, the scenes it has made current, newest first, and its
requests on the UI task queue. -/
structure Controller where
  settings : DisplaySettings := {}
  latestMode : Mode := .awaitingConnection
  generation : ℕ := 0
  overlayRequired : Bool := true
  watermarkRequired : Bool := false
  alive : Bool := true
  image : SelectedImage := .cleared
  watermarkAvailable : Bool
  customSceneActive : Bool := false
  previousScene : Bytes := []
  activeTargetScene : Bytes := []
  switches : List Bytes := []
  queue : List ApplyRequest := []
  deriving DecidableEq, Repr

namespace Controller

/-- Cover with black before the UI thread selects an image or custom scene. -/
def cover (c : Controller) : Controller :=
  { c with watermarkRequired := false, overlayRequired := true, image := .cleared }

/-- Later mode changes supersede earlier UI tasks through the generation value. -/
def queueApply (c : Controller) (mode : Mode) : Controller :=
  let generation := increment c.generation
  { c with latestMode := mode, generation, queue := c.queue ++ [{ mode, generation }] }

def dequeue (c : Controller) (i : ℕ) : Controller := { c with queue := c.queue.eraseIdx i }

/-- Protected modes cover output synchronously before any queued scene work. -/
def privacyModeChanged (c : Controller) (mode : Mode) : Controller :=
  if !c.alive then c
  else if isProtectedMode mode then c.cover.queueApply mode
  else c.queueApply mode

def switchToScene (c : Controller) (name : Bytes) (found : Bool) : Controller × Bool :=
  if found then ({ c with switches := name :: c.switches }, true) else (c, false)

/-- The bundled image, or black where it cannot be loaded. -/
def selectDefault (c : Controller) (mode : Mode) (bundled : Bool) : Controller :=
  { c with image := if bundled then .resource (resourcePath mode) else .cleared }

def restorePreviousScene (c : Controller) (previous : Bool) : Controller :=
  let c : Controller :=
    if c.customSceneActive && !c.previousScene.isEmpty then
      (c.switchToScene c.previousScene previous).1
    else c
  { c with customSceneActive := false, previousScene := [], activeTargetScene := [] }

def showBuiltIn (c : Controller) (mode : Mode) (answers : Answers) : Controller :=
  { (c.restorePreviousScene answers.previous).selectDefault mode answers.bundled with
    watermarkRequired := false
    overlayRequired := true }

def showCustomImage (c : Controller) (mode : Mode) (path : Bytes) (answers : Answers) :
    Controller :=
  let c := c.restorePreviousScene answers.previous
  if answers.custom then
    { c with
      image := .custom path
      watermarkRequired := c.watermarkAvailable
      overlayRequired := true }
  else
    { c.selectDefault mode answers.bundled with
      watermarkRequired := false
      overlayRequired := true }

def showCustomScene (c : Controller) (mode : Mode) (scene : Bytes) (answers : Answers) :
    Controller :=
  let previousScene := if c.customSceneActive then [] else answers.currentScene
  match c.switchToScene scene answers.target with
  | (c, false) => c.showBuiltIn mode answers
  | (c, true) =>
    let c : Controller :=
      if !c.customSceneActive then { c with previousScene, customSceneActive := true } else c
    { c with
      image := .cleared
      activeTargetScene := scene
      watermarkRequired := c.watermarkAvailable
      overlayRequired := false }

/-- All OBS frontend scene access is confined to the UI thread. -/
def applyOnUiThread (c : Controller) (request : ApplyRequest) (answers : Answers) : Controller :=
  if !c.alive then c
  else if request.generation ≠ c.generation then c
  else if !isProtectedMode request.mode then
    restorePreviousScene { c with watermarkRequired := false, overlayRequired := false }
      answers.previous
  else
    let event := c.settings.event request.mode
    match resolveDisplayAction c.settings request.mode with
    | .builtInImage => c.showBuiltIn request.mode answers
    | .customImage => c.showCustomImage request.mode event.imagePath answers
    | _ => c.showCustomScene request.mode event.scene answers

/-- A collection change invalidates any cached scene bookkeeping. -/
def sceneCollectionChanging (c : Controller) : Controller :=
  { c with
    watermarkRequired := false
    overlayRequired := isProtectedMode c.latestMode
    image := .cleared
    customSceneActive := false
    previousScene := []
    activeTargetScene := [] }

/-- The bundled fallback replaces an active custom scene that was removed. -/
def sceneListChanged (c : Controller) (answers : Answers) : Controller :=
  if !c.activeTargetScene.isEmpty && !answers.targetExists then
    let c := { c with watermarkRequired := false, overlayRequired := true }
    (c.selectDefault c.latestMode answers.bundled).restorePreviousScene answers.previous
  else c

/-- Re-apply the current privacy mode immediately after a settings change. -/
def updateSettings (c : Controller) (settings : DisplaySettings) : Controller :=
  let c : Controller := { c with settings }
  if isProtectedMode c.latestMode then c.cover.queueApply c.latestMode
  else c.queueApply c.latestMode

end Controller

end PrivacyGuard
