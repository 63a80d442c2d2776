import PrivacyGuard.Display.Controller
import PrivacyGuard.Foundations.Transition

/-! # The fail-closed contract

Complete calls of the tick callback, the settings dialog, the frontend events and the
queued apply tasks, in any order. A protected mode is always covered, by black or by the
scene the user has accepted for it, and applying the current request shows exactly what
the settings prescribe.
-/

namespace PrivacyGuard

structure Display where
  controller : Controller
  lastLoggedMode : Option Mode := none
  deriving DecidableEq, Repr

namespace Display

inductive Label
  /-- The tick callback, with the mode that the privacy state computes. -/
  | tick (mode : Mode)
  | updateSettings (settings : DisplaySettings)
  | sceneCollectionChanging
  | sceneListChanged (answers : Answers)
  /-- A queued apply task. -/
  | apply (i : ℕ) (answers : Answers)
  deriving DecidableEq, Repr

/-- The number of requests a call may queue. -/
def Label.requests : Label → ℕ
  | .tick _ => 1
  | .updateSettings _ => 1
  | _ => 0

def start (watermarkAvailable : Bool) : Display := { controller := { watermarkAvailable } }

/-- Forward mode transitions once. -/
def tickPrivacyState (d : Display) (currentMode : Mode) : Display :=
  if d.lastLoggedMode = some currentMode then d
  else
    { lastLoggedMode := some currentMode
      controller := d.controller.privacyModeChanged currentMode }

def step (d : Display) : Label → Option Display
  | .tick mode => some (d.tickPrivacyState mode)
  | .updateSettings settings => some { d with controller := d.controller.updateSettings settings }
  | .sceneCollectionChanging => some { d with controller := d.controller.sceneCollectionChanging }
  | .sceneListChanged answers => some { d with controller := d.controller.sceneListChanged answers }
  | .apply i answers =>
    match d.controller.queue[i]? with
    | some request =>
      some { d with controller := (d.controller.dequeue i).applyOnUiThread request answers }
    | none => none

def forwarded (d : Display) : Mode := d.lastLoggedMode.getD .awaitingConnection

end Display

structure Shown where
  overlay : Bool
  watermark : Bool
  image : SelectedImage
  customScene : Bool
  deriving DecidableEq, Repr

def Controller.shown (c : Controller) : Shown where
  overlay := c.overlayRequired
  watermark := c.watermarkRequired
  image := c.image
  customScene := c.customSceneActive

/-- What the settings prescribe for a mode, with the bundled image where the choice of the
user is unavailable; the normal output leaves the selected image as it is. -/
def prescribed (c : Controller) (mode : Mode) (answers : Answers) : Shown :=
  let fallback : Shown :=
    { overlay := true
      watermark := false
      image := if answers.bundled then .resource (resourcePath mode) else .cleared
      customScene := false }
  match resolveDisplayAction c.settings mode with
  | .normalOutput =>
    { overlay := false, watermark := false, image := c.image, customScene := false }
  | .builtInImage => fallback
  | .customImage =>
    if answers.custom then
      { overlay := true
        watermark := c.watermarkAvailable
        image := .custom (c.settings.event mode).imagePath
        customScene := false }
    else fallback
  | .customScene =>
    if answers.target then
      { overlay := false
        watermark := c.watermarkAvailable
        image := .cleared
        customScene := true }
    else fallback

namespace Controller

/-- The mode is covered: by black, or by the accepted scene of its event. -/
def Covers (c : Controller) (mode : Mode) : Prop :=
  c.overlayRequired = true ∨
    c.customSceneActive = true ∧ c.activeTargetScene = (c.settings.event mode).scene ∧
      resolveDisplayAction c.settings mode = .customScene

/-- The calls on the UI thread leave the settings, the requests and the decision alone. -/
structure SameDecision (c c' : Controller) : Prop where
  settings : c'.settings = c.settings
  latestMode : c'.latestMode = c.latestMode
  generation : c'.generation = c.generation
  queue : c'.queue = c.queue
  alive : c'.alive = c.alive

variable {c : Controller} {mode : Mode} {answers : Answers} {request : ApplyRequest}

theorem restorePreviousScene_eq (c : Controller) (previous : Bool) :
    ∃ switches, c.restorePreviousScene previous =
      { c with
        customSceneActive := false
        previousScene := []
        activeTargetScene := []
        switches } := by
  unfold restorePreviousScene switchToScene
  split
  · split <;> exact ⟨_, rfl⟩
  · exact ⟨_, rfl⟩

structure Applied (c : Controller) (mode : Mode) (answers : Answers) (c' : Controller) : Prop where
  same : SameDecision c c'
  shown : c'.shown = prescribed c mode answers
  target : c'.customSceneActive = true → c'.activeTargetScene = (c.settings.event mode).scene

theorem applied_builtIn (haction : resolveDisplayAction c.settings mode = .builtInImage) :
    Applied c mode answers (c.showBuiltIn mode answers) := by
  obtain ⟨switches, hr⟩ := c.restorePreviousScene_eq answers.previous
  unfold showBuiltIn
  rw [hr]
  exact ⟨⟨rfl, rfl, rfl, rfl, rfl⟩, by simp [shown, prescribed, haction, selectDefault],
    by simp [selectDefault]⟩

theorem applied_customImage (haction : resolveDisplayAction c.settings mode = .customImage) :
    Applied c mode answers (c.showCustomImage mode (c.settings.event mode).imagePath answers) := by
  obtain ⟨switches, hr⟩ := c.restorePreviousScene_eq answers.previous
  unfold showCustomImage
  rw [hr]
  cases hc : answers.custom <;>
    exact ⟨⟨rfl, rfl, rfl, rfl, rfl⟩, by simp [shown, prescribed, haction, hc, selectDefault],
      by simp [selectDefault]⟩

theorem applied_customScene (haction : resolveDisplayAction c.settings mode = .customScene) :
    Applied c mode answers (c.showCustomScene mode (c.settings.event mode).scene answers) := by
  unfold showCustomScene switchToScene
  cases ht : answers.target with
  | false =>
    obtain ⟨switches, hr⟩ := c.restorePreviousScene_eq answers.previous
    simp only [Bool.false_eq_true, if_false, showBuiltIn]
    rw [hr]
    exact ⟨⟨rfl, rfl, rfl, rfl, rfl⟩, by simp [shown, prescribed, haction, ht, selectDefault],
      by simp [selectDefault]⟩
  | true =>
    simp only [if_true]
    cases c.customSceneActive <;>
      exact ⟨⟨rfl, rfl, rfl, rfl, rfl⟩, by simp [shown, prescribed, haction, ht], by simp⟩

/-- A request of the current generation shows what the settings prescribe. -/
theorem applyOnUiThread_of_current (halive : c.alive = true)
    (hcurrent : request.generation = c.generation) :
    Applied c request.mode answers (c.applyOnUiThread request answers) := by
  unfold applyOnUiThread
  rw [if_neg (by simp [halive]), if_neg (by simp [hcurrent])]
  split
  case isTrue hopen =>
    have haction : resolveDisplayAction c.settings request.mode = .normalOutput :=
      resolveDisplayAction_eq_normalOutput_iff.mpr (by simpa using hopen)
    obtain ⟨switches, hr⟩ := restorePreviousScene_eq
      { c with watermarkRequired := false, overlayRequired := false } answers.previous
    rw [hr]
    exact ⟨⟨rfl, rfl, rfl, rfl, rfl⟩, by simp [shown, prescribed, haction], by simp⟩
  case isFalse hprotected =>
    simp only
    cases haction : resolveDisplayAction c.settings request.mode with
    | normalOutput =>
      rw [resolveDisplayAction_eq_normalOutput_iff] at haction
      simp [haction] at hprotected
    | builtInImage => exact applied_builtIn haction
    | customImage => exact applied_customImage haction
    | customScene => exact applied_customScene haction

theorem applyOnUiThread_of_stale (hstale : request.generation ≠ c.generation) :
    c.applyOnUiThread request answers = c := by
  simp [applyOnUiThread, hstale]

theorem Applied.covers {c' : Controller} (h : Applied c mode answers c')
    (hprotected : isProtectedMode mode = true) : c'.Covers mode := by
  have hoverlay : c'.overlayRequired = (prescribed c mode answers).overlay :=
    congrArg Shown.overlay h.shown
  have hactive : c'.customSceneActive = (prescribed c mode answers).customScene :=
    congrArg Shown.customScene h.shown
  cases haction : resolveDisplayAction c.settings mode with
  | normalOutput =>
    rw [resolveDisplayAction_eq_normalOutput_iff] at haction
    simp [haction] at hprotected
  | builtInImage => exact Or.inl (by simp [hoverlay, prescribed, haction])
  | customImage =>
    exact Or.inl (by cases hc : answers.custom <;> simp [hoverlay, prescribed, haction, hc])
  | customScene =>
    cases ht : answers.target with
    | false => exact Or.inl (by simp [hoverlay, prescribed, haction, ht])
    | true =>
      have hactive' : c'.customSceneActive = true := by simp [hactive, prescribed, haction, ht]
      exact Or.inr ⟨hactive', by rw [h.same.settings, h.target hactive'],
        by rw [h.same.settings, haction]⟩

end Controller

/-! ### Runs of complete calls -/

namespace Display

open Controller (SameDecision)

structure Contract (d : Display) : Prop where
  /-- A queued request of the current generation carries the latest mode. -/
  current : ∀ request ∈ d.controller.queue, request.generation = d.controller.generation →
    request.mode = d.controller.latestMode
  /-- A protected mode is covered. -/
  covered : isProtectedMode d.forwarded = true → d.controller.Covers d.forwarded
  /-- Applying a request of the current generation shows what is prescribed. -/
  applied : ∀ (i : ℕ) (request : ApplyRequest) (answers : Answers) (d' : Display),
    d.controller.queue[i]? = some request → request.generation = d.controller.generation →
      d.step (.apply i answers) = some d' →
        d'.controller.shown = prescribed d.controller d.controller.latestMode answers

structure Sound (n : ℕ) (d : Display) : Prop where
  alive : d.controller.alive = true
  generation : d.controller.generation = n
  latest : d.controller.latestMode = d.forwarded
  queue : ∀ request ∈ d.controller.queue, request.generation ≤ n ∧
    (request.generation = n → request.mode = d.controller.latestMode)
  covered : isProtectedMode d.forwarded = true → d.controller.Covers d.forwarded

variable {n : ℕ} {d d' : Display} {mode : Mode} {answers : Answers}

theorem sound_start (watermarkAvailable : Bool) : Sound 0 (start watermarkAvailable) :=
  ⟨rfl, rfl, rfl, by simp [start], fun _ => Or.inl rfl⟩

/-- A new request supersedes the queued ones. -/
theorem queueApply_queue {c : Controller} (hgeneration : c.generation = n)
    (hqueue : ∀ request ∈ c.queue, request.generation ≤ n) (hn : n + 1 < wordSize) :
    (c.queueApply mode).generation = n + 1 ∧ ∀ request ∈ (c.queueApply mode).queue,
      request.generation ≤ n + 1 ∧ (request.generation = n + 1 → request.mode = mode) := by
  have hnext : increment c.generation = n + 1 := by
    rw [hgeneration, increment, Nat.mod_eq_of_lt hn]
  refine ⟨hnext, fun request hmem => ?_⟩
  rcases List.mem_append.mp hmem with hmem | hmem
  · have := hqueue request hmem
    exact ⟨by omega, fun h => by omega⟩
  · obtain rfl := List.mem_singleton.mp hmem
    exact ⟨hnext.le, fun _ => rfl⟩

theorem Sound.contract (h : Sound n d) : d.Contract where
  current request hmem hgeneration := (h.queue request hmem).2 (hgeneration.trans h.generation)
  covered := h.covered
  applied i request answers d' hi hgeneration hs := by
    simp only [step, hi] at hs
    obtain rfl := Option.some.inj hs
    have hmode := (h.queue request (List.mem_of_getElem? hi)).2 (hgeneration.trans h.generation)
    have happlied : Controller.Applied (d.controller.dequeue i) request.mode answers
        ((d.controller.dequeue i).applyOnUiThread request answers) :=
      Controller.applyOnUiThread_of_current h.alive hgeneration
    have hshown := happlied.shown
    rw [hmode] at hshown
    exact hshown

theorem Sound.tick (h : Sound n d) (hn : n + 1 < wordSize) (mode : Mode) :
    ∃ n', n' ≤ n + 1 ∧ Sound n' (d.tickPrivacyState mode) := by
  unfold tickPrivacyState
  split
  case isTrue => exact ⟨n, Nat.le_succ n, h⟩
  case isFalse =>
    refine ⟨n + 1, le_rfl, ?_⟩
    have hgenerations : ∀ request ∈ d.controller.queue, request.generation ≤ n :=
      fun request hmem => (h.queue request hmem).1
    unfold Controller.privacyModeChanged
    rw [if_neg (by simp [h.alive])]
    split
    case isTrue =>
      have hq : (d.controller.cover.queueApply mode).generation = n + 1 ∧ _ :=
        queueApply_queue h.generation hgenerations hn
      exact ⟨h.alive, hq.1, rfl, hq.2, fun _ => Or.inl rfl⟩
    case isFalse hopen =>
      have hq : (d.controller.queueApply mode).generation = n + 1 ∧ _ :=
        queueApply_queue h.generation hgenerations hn
      exact ⟨h.alive, hq.1, rfl, hq.2, fun hp => absurd hp hopen⟩

theorem Sound.updateSettings (h : Sound n d) (hn : n + 1 < wordSize) (settings : DisplaySettings) :
    Sound (n + 1) { d with controller := d.controller.updateSettings settings } := by
  have hgenerations : ∀ request ∈ d.controller.queue, request.generation ≤ n :=
    fun request hmem => (h.queue request hmem).1
  unfold Controller.updateSettings
  simp only
  split
  case isTrue =>
    have hq : (Controller.queueApply (Controller.cover { d.controller with settings })
        d.controller.latestMode).generation = n + 1 ∧ _ :=
      queueApply_queue h.generation hgenerations hn
    exact ⟨h.alive, hq.1, h.latest, hq.2, fun _ => Or.inl rfl⟩
  case isFalse hopen =>
    have hq : (Controller.queueApply { d.controller with settings }
        d.controller.latestMode).generation = n + 1 ∧ _ :=
      queueApply_queue h.generation hgenerations hn
    refine ⟨h.alive, hq.1, h.latest, hq.2, fun hp => ?_⟩
    rw [h.latest] at hopen
    exact absurd hp hopen

theorem Sound.sceneCollectionChanging (h : Sound n d) :
    Sound n { d with controller := d.controller.sceneCollectionChanging } where
  alive := h.alive
  generation := h.generation
  latest := h.latest
  queue := h.queue
  covered hp := by
    left
    change isProtectedMode d.controller.latestMode = true
    rw [h.latest]
    exact hp

theorem Sound.sceneListChanged (h : Sound n d) (answers : Answers) :
    Sound n { d with controller := d.controller.sceneListChanged answers } := by
  unfold Controller.sceneListChanged
  split
  case isFalse => exact h
  case isTrue =>
    simp only
    obtain ⟨switches, hr⟩ := Controller.restorePreviousScene_eq
      (Controller.selectDefault
        { d.controller with watermarkRequired := false, overlayRequired := true }
        d.controller.latestMode answers.bundled) answers.previous
    rw [hr]
    exact ⟨h.alive, h.generation, h.latest, h.queue, fun _ => Or.inl rfl⟩

theorem Sound.apply (h : Sound n d) {i : ℕ} {request : ApplyRequest}
    (hi : d.controller.queue[i]? = some request) (answers : Answers) :
    Sound n { d with controller := (d.controller.dequeue i).applyOnUiThread request answers } := by
  have hqueue : ∀ other ∈ (d.controller.dequeue i).queue, other ∈ d.controller.queue :=
    fun other hmem => List.mem_of_mem_eraseIdx hmem
  by_cases hcurrent : request.generation = d.controller.generation
  · have happlied : Controller.Applied (d.controller.dequeue i) request.mode answers
        ((d.controller.dequeue i).applyOnUiThread request answers) :=
      Controller.applyOnUiThread_of_current h.alive hcurrent
    have hmode := (h.queue request (List.mem_of_getElem? hi)).2 (hcurrent.trans h.generation)
    constructor
    case alive => exact happlied.same.alive.trans h.alive
    case generation => exact happlied.same.generation.trans h.generation
    case latest => exact happlied.same.latestMode.trans h.latest
    case queue =>
      intro other hmem
      rw [happlied.same.queue] at hmem
      rw [happlied.same.latestMode]
      exact h.queue other (hqueue other hmem)
    case covered =>
      intro hp
      have hforwarded : request.mode = d.forwarded := hmode.trans h.latest
      change isProtectedMode d.forwarded = true at hp
      rw [← hforwarded] at hp
      have hcovers := happlied.covers hp
      rwa [hforwarded] at hcovers
  · have hstale : request.generation ≠ (d.controller.dequeue i).generation := hcurrent
    rw [Controller.applyOnUiThread_of_stale hstale]
    exact ⟨h.alive, h.generation, h.latest, fun other hmem => h.queue other (hqueue other hmem),
      h.covered⟩

/-- Requests are counted from above: a tick may forward nothing. -/
def SoundBelow (n : ℕ) (d : Display) : Prop := ∃ m ≤ n, Sound m d

theorem SoundBelow.step (h : SoundBelow n d) {label : Label} (hn : n + label.requests < wordSize)
    (hs : d.step label = some d') : SoundBelow (n + label.requests) d' := by
  obtain ⟨m, hm, h⟩ := h
  cases label with
  | tick mode =>
    obtain rfl := Option.some.inj hs
    obtain ⟨m', hm', h'⟩ := h.tick (lt_of_le_of_lt (Nat.succ_le_succ hm) hn) mode
    exact ⟨m', hm'.trans (Nat.succ_le_succ hm), h'⟩
  | updateSettings settings =>
    obtain rfl := Option.some.inj hs
    exact ⟨m + 1, Nat.succ_le_succ hm, h.updateSettings (lt_of_le_of_lt (Nat.succ_le_succ hm) hn) _⟩
  | sceneCollectionChanging =>
    obtain rfl := Option.some.inj hs
    exact ⟨m, hm, h.sceneCollectionChanging⟩
  | sceneListChanged answers =>
    obtain rfl := Option.some.inj hs
    exact ⟨m, hm, h.sceneListChanged answers⟩
  | apply i answers =>
    simp only [Display.step] at hs
    split at hs
    case h_2 => cases hs
    case h_1 request hi =>
      obtain rfl := Option.some.inj hs
      exact ⟨m, hm, h.apply hi answers⟩

/-- The contract holds in every run with fewer requests than generations. -/
theorem contract_of_run {watermarkAvailable : Bool} {labels : List Label}
    (hn : (labels.map Label.requests).sum < wordSize)
    (hrun : Transition.run Display.step (start watermarkAvailable) labels = some d) :
    d.Contract := by
  have h : SoundBelow (0 + (labels.map Label.requests).sum) d :=
    Transition.run_weighted (P := fun _ => True) (fun n d l d' h _ hn hs => h.step hn hs)
      ⟨0, le_rfl, sound_start watermarkAvailable⟩ (by simp)
      (show 0 + (labels.map Label.requests).sum < wordSize by omega) hrun
  obtain ⟨m, -, hm⟩ := h
  exact hm.contract

def sceneDay : List Label :=
  [.updateSettings
      { sensitive := { mode := .customScene, scene := ascii "Break" }
        customSceneRiskAccepted := true },
    .tick .safe, .apply 1 {}, .tick .sensitive, .apply 1 {},
    .sceneListChanged { targetExists := false }, .apply 0 {}]

theorem contract_sceneDay :
    ((Transition.run Display.step (start true) sceneDay).get (by decide +kernel)).Contract :=
  contract_of_run (by decide) (Option.some_get _).symm

/-! ### Generations that wrap -/

/-- The first request is still queued, and the generation is a number of requests further. -/
structure Overtaken (n : ℕ) (d : Display) : Prop where
  alive : d.controller.alive = true
  generation : d.controller.generation = n % wordSize
  queued : { mode := .safe, generation := 1 } ∈ d.controller.queue
  logged : d.lastLoggedMode = some .safe

theorem Overtaken.queueApply {c : Controller} {mode : Mode}
    (hgeneration : c.generation = n % wordSize)
    (hqueued : { mode := .safe, generation := 1 } ∈ c.queue) :
    (c.queueApply mode).generation = (n + 1) % wordSize ∧
      { mode := .safe, generation := 1 } ∈ (c.queueApply mode).queue := by
  refine ⟨?_, List.mem_append_left _ hqueued⟩
  change increment c.generation = _
  rw [hgeneration, increment, Nat.mod_add_mod]

theorem Overtaken.updateSettings (h : Overtaken n d) (settings : DisplaySettings) :
    Overtaken (n + 1) { d with controller := d.controller.updateSettings settings } := by
  unfold Controller.updateSettings
  simp only
  split
  · have hq : (Controller.queueApply (Controller.cover { d.controller with settings })
        d.controller.latestMode).generation = _ ∧ _ := Overtaken.queueApply h.generation h.queued
    exact ⟨h.alive, hq.1, hq.2, h.logged⟩
  · have hq : (Controller.queueApply { d.controller with settings }
        d.controller.latestMode).generation = _ ∧ _ := Overtaken.queueApply h.generation h.queued
    exact ⟨h.alive, hq.1, hq.2, h.logged⟩

theorem Overtaken.replicate (h : Overtaken n d) (k : ℕ) :
    ∃ d', Transition.run Display.step d (List.replicate k (.updateSettings {})) = some d' ∧
      Overtaken (n + k) d' := by
  induction k generalizing n d with
  | zero => exact ⟨d, rfl, h⟩
  | succ k ih =>
    obtain ⟨d', hrun, h'⟩ := ih (h.updateSettings {})
    refine ⟨d', Transition.run_cons.mpr ⟨_, rfl, hrun⟩, ?_⟩
    rwa [Nat.add_assoc, Nat.add_comm 1 k] at h'

def overtaking : List Label :=
  .tick .safe :: (List.replicate (wordSize - 1) (.updateSettings {}) ++ [.tick .sensitive])

/-- Without a bound on the requests a stale request can be taken for the current one. -/
theorem exists_run_not_contract :
    ¬ ∀ (watermarkAvailable : Bool) (labels : List Label) (d : Display),
      Transition.run Display.step (start watermarkAvailable) labels = some d → d.Contract := by
  intro h
  have hfirst : Overtaken 1 ((start true).tickPrivacyState .safe) :=
    ⟨by decide, by decide, by decide, by decide⟩
  obtain ⟨d, hrun, hd⟩ := hfirst.replicate (wordSize - 1)
  have hq : (Controller.queueApply d.controller.cover .sensitive).generation = _ ∧ _ :=
    Overtaken.queueApply hd.generation hd.queued
  have hlast : d.tickPrivacyState .sensitive =
      { lastLoggedMode := some .sensitive
        controller := d.controller.cover.queueApply .sensitive } := by
    simp [tickPrivacyState, hd.logged, Controller.privacyModeChanged, hd.alive, isProtectedMode]
  have hcontract := h true overtaking (d.tickPrivacyState .sensitive)
    (Transition.run_cons.mpr ⟨_, rfl, Transition.run_append.mpr ⟨d, hrun, rfl⟩⟩)
  rw [hlast] at hcontract
  have hmode :=
    hcontract.current { mode := .safe, generation := 1 } hq.2 (hq.1.trans (by decide)).symm
  cases hmode

end Display

end PrivacyGuard
