import PrivacyGuard.Display.Contract

/-! # Scenes restored

The controller among the scenes of OBS: switching to an existing scene makes it current,
and scenes may be deleted. The scene that was current before a custom scene was shown is
remembered through every chain of scenes and images, and comes back after it.
-/

namespace PrivacyGuard

/-- The controller, the existing scenes, the current one, and the scenes the controller has
made current, newest first. -/
structure Studio where
  controller : Controller
  scenes : List Bytes
  current : Bytes
  switched : List Bytes := []
  deriving DecidableEq

namespace Studio

inductive Label
  | modeChanged (mode : Mode)
  | settingsChanged (settings : DisplaySettings)
  /-- A queued apply task, and whether the custom and the bundled image can be loaded. -/
  | apply (i : ℕ) (custom bundled : Bool)
  /-- A scene is deleted and its event delivered; OBS replaces it if it was current. -/
  | deleted (scene replacement : Bytes) (bundled : Bool)
  deriving DecidableEq, Repr

def answers (w : Studio) (target : Bytes) (custom bundled : Bool) : Answers where
  target := decide (target ∈ w.scenes)
  previous := decide (w.controller.previousScene ∈ w.scenes)
  currentScene := w.current
  custom := custom
  bundled := bundled
  targetExists := decide (w.controller.activeTargetScene ∈ w.scenes)

/-- A call of the controller; the scene it makes current last stays current. -/
def call (w : Studio) (f : Controller → Controller) : Studio :=
  let controller := f { w.controller with switches := [] }
  { w with
    controller
    current := controller.switches.head?.getD w.current
    switched := controller.switches ++ w.switched }

def delete (w : Studio) (scene replacement : Bytes) : Studio :=
  { w with
    scenes := w.scenes.filter (· ≠ scene)
    current := if w.current = scene then replacement else w.current }

/-- One step, in which the scene `home` is not deleted. -/
def step (home : Bytes) (w : Studio) : Label → Option Studio
  | .modeChanged mode => some (w.call (·.privacyModeChanged mode))
  | .settingsChanged settings => some (w.call (·.updateSettings settings))
  | .apply i custom bundled =>
    match w.controller.queue[i]? with
    | some request =>
      let target := (w.controller.settings.event request.mode).scene
      some (w.call fun c => (c.dequeue i).applyOnUiThread request (w.answers target custom bundled))
    | none => none
  | .deleted scene replacement bundled =>
    if scene = home then none
    else
      let w := w.delete scene replacement
      some (w.call (·.sceneListChanged (w.answers [] true bundled)))

/-- No custom scene is active, and the existing named scene `home` is current. -/
structure AtHome (home : Bytes) (w : Studio) : Prop where
  named : home ≠ []
  present : home ∈ w.scenes
  inactive : w.controller.customSceneActive = false
  current : w.current = home

/-! ### The scene remembered during a call -/

/-- Without a custom scene the scene `home` is current, else it is remembered; `current` was
current before the call. -/
structure Recalls (home current : Bytes) (c : Controller) : Prop where
  inactive : c.customSceneActive = false → c.switches.head?.getD current = home
  previous : c.customSceneActive = true → c.previousScene = home

structure Remembers (home current : Bytes) (c : Controller) : Prop
    extends Recalls home current c where
  active : c.customSceneActive = true →
    c.switches.head?.getD current = c.activeTargetScene ∧ c.activeTargetScene ≠ []

structure Truthful (home current : Bytes) (c : Controller) (answers : Answers) : Prop where
  named : home ≠ []
  previous : c.customSceneActive = true → answers.previous = true
  current : answers.currentScene = current

section Remembers

variable {home current : Bytes} {c c' : Controller} {answers : Answers} {mode : Mode}
  {scene path : Bytes}

theorem Remembers.congr (h : Remembers home current c)
    (hactive : c'.customSceneActive = c.customSceneActive)
    (hprevious : c'.previousScene = c.previousScene)
    (htarget : c'.activeTargetScene = c.activeTargetScene) (hswitches : c'.switches = c.switches) :
    Remembers home current c' := by
  constructor
  · constructor
    · rw [hactive, hswitches]
      exact h.inactive
    · rw [hactive, hprevious]
      exact h.previous
  · rw [hactive, htarget, hswitches]
    exact h.active

theorem Recalls.restore (h : Recalls home current c) (ha : Truthful home current c answers) :
    (c.restorePreviousScene answers.previous).switches.head?.getD current = home := by
  unfold Controller.restorePreviousScene
  cases hc : c.customSceneActive with
  | false => simpa using h.inactive hc
  | true => simp [Controller.switchToScene, ha.previous hc, h.previous hc, ha.named]

theorem Recalls.remembers_restore (h : Recalls home current c)
    (ha : Truthful home current c answers) :
    Remembers home current (c.restorePreviousScene answers.previous) where
  inactive _ := h.restore ha
  previous hc := by cases hc
  active hc := by cases hc

theorem Remembers.privacyModeChanged (h : Remembers home current c) :
    Remembers home current (c.privacyModeChanged mode) := by
  unfold Controller.privacyModeChanged
  split
  · exact h
  · split <;> exact h.congr rfl rfl rfl rfl

theorem Remembers.updateSettings (h : Remembers home current c) (settings : DisplaySettings) :
    Remembers home current (c.updateSettings settings) := by
  unfold Controller.updateSettings
  simp only
  split <;> exact h.congr rfl rfl rfl rfl

theorem Remembers.showBuiltIn (h : Remembers home current c)
    (ha : Truthful home current c answers) :
    Remembers home current (c.showBuiltIn mode answers) :=
  (h.remembers_restore ha).congr rfl rfl rfl rfl

theorem Remembers.showCustomImage (h : Remembers home current c)
    (ha : Truthful home current c answers) :
    Remembers home current (c.showCustomImage mode path answers) := by
  have hr := h.remembers_restore ha
  unfold Controller.showCustomImage
  cases answers.custom with
  | true => exact hr.congr rfl rfl rfl rfl
  | false => exact hr.congr rfl rfl rfl rfl

/-- The current scene is remembered when the first custom scene of an episode is shown. -/
theorem Remembers.showCustomScene (h : Remembers home current c)
    (ha : Truthful home current c answers) (hs : c.switches = []) (hscene : scene ≠ []) :
    Remembers home current (c.showCustomScene mode scene answers) := by
  unfold Controller.showCustomScene Controller.switchToScene
  cases answers.target with
  | false => exact h.showBuiltIn ha
  | true =>
    cases hc : c.customSceneActive with
    | false =>
      have hhome : current = home := by simpa [hs] using h.inactive hc
      constructor
      · constructor <;> simp [ha.current, hhome]
      · simp [hscene]
    | true =>
      constructor
      · constructor <;> simp [h.previous hc]
      · simp [hscene]

theorem Remembers.applyOnUiThread {request : ApplyRequest} (h : Remembers home current c)
    (ha : Truthful home current c answers) (hs : c.switches = []) :
    Remembers home current (c.applyOnUiThread request answers) := by
  unfold Controller.applyOnUiThread
  split
  · exact h
  · split
    · exact h
    · split
      · have hopened : Remembers home current
            { c with watermarkRequired := false, overlayRequired := false } :=
          h.congr rfl rfl rfl rfl
        exact hopened.remembers_restore ⟨ha.named, ha.previous, ha.current⟩
      · rename_i hprotected
        simp only
        cases haction : resolveDisplayAction c.settings request.mode with
        | normalOutput =>
          rw [resolveDisplayAction_eq_normalOutput_iff] at haction
          simp [haction] at hprotected
        | builtInImage => exact h.showBuiltIn ha
        | customImage => exact h.showCustomImage ha
        | customScene =>
          exact h.showCustomScene ha hs (of_resolveDisplayAction_eq_customScene haction).2

theorem Remembers.applyOnUiThread_open {request : ApplyRequest} (h : Remembers home current c)
    (ha : Truthful home current c answers) (halive : c.alive = true)
    (hcurrent : request.generation = c.generation)
    (hopen : isProtectedMode request.mode = false) :
    (c.applyOnUiThread request answers).switches.head?.getD current = home := by
  have hopened : Remembers home current
      { c with watermarkRequired := false, overlayRequired := false } := h.congr rfl rfl rfl rfl
  rw [Controller.applyOnUiThread, if_neg (by simp [halive]), if_neg (by simp [hcurrent]),
    if_pos (by simp [hopen])]
  exact hopened.restore ⟨ha.named, ha.previous, ha.current⟩

theorem Recalls.sceneListChanged (h : Recalls home current c)
    (ha : Truthful home current c answers)
    (hactive : c.customSceneActive = true → c.activeTargetScene ≠ [] ∧
      (answers.targetExists = true → c.switches.head?.getD current = c.activeTargetScene)) :
    Remembers home current (c.sceneListChanged answers) := by
  unfold Controller.sceneListChanged
  split
  · have hcovered : Recalls home current
        (Controller.selectDefault { c with watermarkRequired := false, overlayRequired := true }
          c.latestMode answers.bundled) := ⟨h.inactive, h.previous⟩
    exact hcovered.remembers_restore ⟨ha.named, ha.previous, ha.current⟩
  · rename_i hstays
    refine ⟨h, fun hc => ?_⟩
    obtain ⟨hne, hcurrent⟩ := hactive hc
    exact ⟨hcurrent (by simpa [hne] using hstays), hne⟩

end Remembers

/-! ### Calls that switch to no scene -/

/-- No custom scene is active, and the call has not switched to any. -/
structure Idle (c : Controller) : Prop where
  inactive : c.customSceneActive = false
  unswitched : c.switches = []

section Idle

variable {c : Controller} {answers : Answers} {mode : Mode} {path : Bytes}

theorem Idle.restorePreviousScene (h : Idle c) (previous : Bool) :
    Idle (c.restorePreviousScene previous) := by
  unfold Controller.restorePreviousScene
  rw [h.inactive]
  exact ⟨rfl, h.unswitched⟩

theorem Idle.privacyModeChanged (h : Idle c) : Idle (c.privacyModeChanged mode) := by
  unfold Controller.privacyModeChanged
  split
  · exact h
  · split <;> exact ⟨h.inactive, h.unswitched⟩

theorem Idle.updateSettings (h : Idle c) (settings : DisplaySettings) :
    Idle (c.updateSettings settings) := by
  unfold Controller.updateSettings
  simp only
  split <;> exact ⟨h.inactive, h.unswitched⟩

theorem Idle.showBuiltIn (h : Idle c) : Idle (c.showBuiltIn mode answers) :=
  have hr := h.restorePreviousScene answers.previous
  ⟨hr.inactive, hr.unswitched⟩

theorem Idle.showCustomImage (h : Idle c) : Idle (c.showCustomImage mode path answers) := by
  have hr := h.restorePreviousScene answers.previous
  unfold Controller.showCustomImage
  cases answers.custom <;> exact ⟨hr.inactive, hr.unswitched⟩

theorem Idle.applyOnUiThread {request : ApplyRequest} (h : Idle c)
    (himage : request.generation = c.generation →
      resolveDisplayAction c.settings request.mode = .customScene → answers.target = false) :
    Idle (c.applyOnUiThread request answers) := by
  unfold Controller.applyOnUiThread
  split
  · exact h
  · split
    · exact h
    · rename_i hgeneration
      split
      · apply Idle.restorePreviousScene
        exact ⟨h.inactive, h.unswitched⟩
      · rename_i hprotected
        simp only
        cases haction : resolveDisplayAction c.settings request.mode with
        | normalOutput =>
          rw [resolveDisplayAction_eq_normalOutput_iff] at haction
          simp [haction] at hprotected
        | builtInImage => exact h.showBuiltIn
        | customImage => exact h.showCustomImage
        | customScene =>
          have htarget := himage (not_not.mp hgeneration) haction
          simp only [Controller.showCustomScene, Controller.switchToScene, htarget,
            Bool.false_eq_true, if_false]
          exact h.showBuiltIn

theorem Idle.sceneListChanged (h : Idle c) : Idle (c.sceneListChanged answers) := by
  unfold Controller.sceneListChanged
  split
  · apply Idle.restorePreviousScene
    exact ⟨h.inactive, h.unswitched⟩
  · exact h

end Idle

/-! ### Steps -/

/-- After a completed step the current scene is `home`, or the active custom scene while
`home` is remembered. -/
structure Restorable (home : Bytes) (w : Studio) : Prop where
  named : home ≠ []
  present : home ∈ w.scenes
  inactive : w.controller.customSceneActive = false → w.current = home
  previous : w.controller.customSceneActive = true → w.controller.previousScene = home
  active : w.controller.customSceneActive = true →
    w.current = w.controller.activeTargetScene ∧ w.controller.activeTargetScene ≠ []

section Steps

variable {home : Bytes} {w w' : Studio} {label : Label}

theorem AtHome.restorable (h : AtHome home w) : Restorable home w where
  named := h.named
  present := h.present
  inactive _ := h.current
  previous ha := by rw [h.inactive] at ha; cases ha
  active ha := by rw [h.inactive] at ha; cases ha

theorem restorable_call {f : Controller → Controller} (hnamed : home ≠ [])
    (hpresent : home ∈ w.scenes)
    (h : Remembers home w.current (f { w.controller with switches := [] })) :
    Restorable home (w.call f) where
  named := hnamed
  present := hpresent
  inactive := h.inactive
  previous := h.previous
  active := h.active

theorem Restorable.remembers (h : Restorable home w) :
    Remembers home w.current { w.controller with switches := [] } :=
  ⟨⟨h.inactive, h.previous⟩, h.active⟩

theorem Restorable.truthful (h : Restorable home w) (target : Bytes) (custom bundled : Bool)
    {c : Controller} (hactive : c.customSceneActive = w.controller.customSceneActive) :
    Truthful home w.current c (w.answers target custom bundled) where
  named := h.named
  previous hc := by
    rw [hactive] at hc
    simp [answers, h.previous hc, h.present]
  current := rfl

theorem Restorable.apply (h : Restorable home w) (i : ℕ) (request : ApplyRequest)
    (target : Bytes) (custom bundled : Bool) :
    Restorable home (w.call fun c =>
      (c.dequeue i).applyOnUiThread request (w.answers target custom bundled)) := by
  apply restorable_call h.named h.present
  exact Remembers.applyOnUiThread (h.remembers.congr rfl rfl rfl rfl)
    (h.truthful target custom bundled rfl) rfl

/-- A deleted custom scene is left for the remembered one, any other deletion changes nothing. -/
theorem Restorable.deleted (h : Restorable home w) {scene replacement : Bytes} (bundled : Bool)
    (hne : scene ≠ home) :
    Restorable home ((w.delete scene replacement).call
      (·.sceneListChanged ((w.delete scene replacement).answers [] true bundled))) := by
  have hpresent : home ∈ (w.delete scene replacement).scenes :=
    List.mem_filter.mpr ⟨h.present, by simpa using hne.symm⟩
  have hcurrent : w.current ≠ scene → (w.delete scene replacement).current = w.current :=
    fun hc => if_neg hc
  apply restorable_call h.named hpresent
  apply Recalls.sceneListChanged
  · constructor
    · intro hc
      have hhome := h.inactive hc
      exact (hcurrent (hhome ▸ hne.symm)).trans hhome
    · exact h.previous
  · constructor
    · exact h.named
    · intro hc
      have hp : w.controller.previousScene = home := h.previous hc
      simpa [answers, delete, hp] using ⟨h.present, hne.symm⟩
    · rfl
  · intro hc
    obtain ⟨htarget, hnonempty⟩ := h.active hc
    refine ⟨hnonempty, fun hexists => ?_⟩
    have hscene : w.controller.activeTargetScene ≠ scene := by
      have hm : w.controller.activeTargetScene ∈ w.scenes.filter (· ≠ scene) :=
        of_decide_eq_true hexists
      simpa using (List.mem_filter.mp hm).2
    exact (hcurrent (htarget ▸ hscene)).trans htarget

theorem Restorable.step (h : Restorable home w) (hs : step home w label = some w') :
    Restorable home w' := by
  cases label with
  | modeChanged mode =>
    obtain rfl := Option.some.inj hs
    exact restorable_call h.named h.present h.remembers.privacyModeChanged
  | settingsChanged settings =>
    obtain rfl := Option.some.inj hs
    exact restorable_call h.named h.present (h.remembers.updateSettings settings)
  | apply i custom bundled =>
    simp only [Studio.step] at hs
    cases hq : w.controller.queue[i]? with
    | none => simp [hq] at hs
    | some request =>
      rw [hq] at hs
      obtain rfl := Option.some.inj hs
      exact h.apply i request _ custom bundled
  | deleted scene replacement bundled =>
    simp only [Studio.step] at hs
    split at hs
    · cases hs
    · rename_i hne
      obtain rfl := Option.some.inj hs
      exact h.deleted bundled hne

/-- The step shows no custom scene: a request applied by it resolves to an image, or its
custom scene does not exist. -/
def ImagesOnly (w : Studio) : Label → Prop
  | .apply i _ _ => ∀ request ∈ w.controller.queue[i]?,
    request.generation = w.controller.generation →
      resolveDisplayAction w.controller.settings request.mode = .customScene →
        (w.controller.settings.event request.mode).scene ∉ w.scenes
  | _ => True

theorem call_idle {f : Controller → Controller}
    (h : Idle (f { w.controller with switches := [] })) :
    (w.call f).controller.customSceneActive = false ∧ (w.call f).switched = w.switched := by
  refine ⟨h.inactive, ?_⟩
  change (f { w.controller with switches := [] }).switches ++ w.switched = w.switched
  rw [h.unswitched, List.nil_append]

theorem step_imagesOnly (hinactive : w.controller.customSceneActive = false)
    (himages : ImagesOnly w label) (hs : step home w label = some w') :
    w'.controller.customSceneActive = false ∧ w'.switched = w.switched := by
  have hidle : Idle { w.controller with switches := [] } := ⟨hinactive, rfl⟩
  cases label with
  | modeChanged mode =>
    obtain rfl := Option.some.inj hs
    exact call_idle hidle.privacyModeChanged
  | settingsChanged settings =>
    obtain rfl := Option.some.inj hs
    exact call_idle (hidle.updateSettings settings)
  | apply i custom bundled =>
    simp only [Studio.step] at hs
    cases hq : w.controller.queue[i]? with
    | none => simp [hq] at hs
    | some request =>
      rw [hq] at hs
      obtain rfl := Option.some.inj hs
      apply call_idle
      apply Idle.applyOnUiThread
      case h => exact ⟨hinactive, rfl⟩
      case himage =>
        intro hgeneration haction
        exact decide_eq_false (himages request hq hgeneration haction)
  | deleted scene replacement bundled =>
    simp only [Studio.step] at hs
    split at hs
    · cases hs
    · obtain rfl := Option.some.inj hs
      apply call_idle (w := w.delete scene replacement)
      apply Idle.sceneListChanged
      exact ⟨hinactive, rfl⟩

/-- A run that shows only images switches to no scene. -/
theorem run_imagesOnly {labels : List Label} (hinactive : w.controller.customSceneActive = false)
    (himages : Transition.Along (step home) ImagesOnly w labels)
    (hrun : Transition.run (step home) w labels = some w') :
    w'.controller.customSceneActive = false ∧ w'.switched = w.switched := by
  apply Transition.run_along
    (I := fun v => v.controller.customSceneActive = false ∧ v.switched = w.switched) _
    ⟨hinactive, rfl⟩ himages hrun
  rintro u label v ⟨hu, hswitched⟩ himage hs
  obtain ⟨hv, hsame⟩ := step_imagesOnly hu himage hs
  exact ⟨hv, hsame.trans hswitched⟩

/-- After a run, what is current and what is remembered, and that open modes and images do
not leave the scene `home`. -/
structure Restores (home : Bytes) (first : Studio) (labels : List Label) (w : Studio) : Prop where
  inactive : w.controller.customSceneActive = false → w.current = home
  active : w.controller.customSceneActive = true →
    w.controller.previousScene = home ∧ w.current = w.controller.activeTargetScene
  opened : ∀ i request, w.controller.queue[i]? = some request → w.controller.alive = true →
    request.generation = w.controller.generation → isProtectedMode request.mode = false →
      ∀ custom bundled w', step home w (.apply i custom bundled) = some w' → w'.current = home
  images : Transition.Along (step home) ImagesOnly first labels →
    w.current = home ∧ w.switched = first.switched

/-- In every run that starts at home, the previous scene comes back. -/
theorem restores_of_run {first : Studio} {labels : List Label} (hfirst : AtHome home first)
    (hrun : Transition.run (step home) first labels = some w) : Restores home first labels w := by
  have h : Restorable home w :=
    Transition.run_invariant (I := Restorable home) (fun _ _ _ hr hs => hr.step hs)
      hfirst.restorable hrun
  constructor
  case inactive => exact h.inactive
  case active => exact fun hc => ⟨h.previous hc, (h.active hc).1⟩
  case opened =>
    intro i request hq halive hgeneration hopen custom bundled w' hs
    simp only [Studio.step, hq] at hs
    obtain rfl := Option.some.inj hs
    have hr : Remembers home w.current
        (Controller.dequeue { w.controller with switches := [] } i) :=
      h.remembers.congr rfl rfl rfl rfl
    exact hr.applyOnUiThread_open (h.truthful _ custom bundled rfl) halive hgeneration hopen
  case images =>
    intro himages
    obtain ⟨hinactive, hswitched⟩ := run_imagesOnly hfirst.inactive himages hrun
    exact ⟨h.inactive hinactive, hswitched⟩

end Steps

def threeScenes : Studio :=
  { controller := { watermarkAvailable := true }
    scenes := [ascii "P", ascii "A", ascii "B"]
    current := ascii "P" }

/-- A custom scene for a lost connection, another for a sensitive file that is deleted while
it is shown, and the first one again. -/
def deletedScene : List Label :=
  [.settingsChanged
      { sensitive := { mode := .customScene, scene := ascii "A" }
        connection := { mode := .customScene, scene := ascii "B" }
        customSceneRiskAccepted := true },
    .apply 0 true true, .modeChanged .sensitive, .apply 0 true true,
    .deleted (ascii "A") (ascii "B") true, .modeChanged .disconnected, .apply 0 true true]

theorem restores_deletedScene :
    ∃ w, Transition.run (step (ascii "P")) threeScenes deletedScene = some w ∧
      Restores (ascii "P") threeScenes deletedScene w :=
  have hfirst : AtHome (ascii "P") threeScenes := ⟨by decide, by decide, rfl, rfl⟩
  ⟨_, rfl, restores_of_run hfirst rfl⟩

end Studio

end PrivacyGuard
