import PrivacyGuard.Display.Contract

/-! # The output is released

The display does not hide more than it has to. While the last mode is safe, the output is
open, or the request that opens it is on the queue of the UI thread.
-/

namespace PrivacyGuard

/-- Nothing is drawn over the scene, which is not one of the controller. -/
structure Controller.Open (c : Controller) : Prop where
  overlay : c.overlayRequired = false
  watermark : c.watermarkRequired = false
  scene : c.customSceneActive = false
  target : c.activeTargetScene = []

theorem Controller.open_restorePreviousScene {c : Controller} (h : c.overlayRequired = false)
    (hwatermark : c.watermarkRequired = false) (previous : Bool) :
    (c.restorePreviousScene previous).Open := by
  obtain ⟨switches, hr⟩ := restorePreviousScene_eq c previous
  rw [hr]
  exact ⟨h, hwatermark, rfl, rfl⟩

namespace Display

variable {n : ℕ} {d d' : Display}

/-- A request that is not overtaken. -/
def Pending (c : Controller) : Prop := ∃ request ∈ c.queue, request.generation = c.generation

instance (c : Controller) : Decidable (Pending c) :=
  inferInstanceAs (Decidable (∃ request ∈ c.queue, request.generation = c.generation))

/-- An open mode has been carried out, or is about to be. -/
def Released (d : Display) : Prop :=
  isProtectedMode d.controller.latestMode = false →
    Pending d.controller ∨ d.controller.Open

theorem pending_queueApply (c : Controller) (mode : Mode) : Pending (c.queueApply mode) :=
  ⟨⟨mode, increment c.generation⟩, List.mem_append_right _ (List.mem_singleton_self _), rfl⟩

theorem released_updateSettings (settings : DisplaySettings) :
    Released { d with controller := d.controller.updateSettings settings } := by
  intro _
  left
  change Pending (d.controller.updateSettings settings)
  unfold Controller.updateSettings
  simp only
  split
  · exact pending_queueApply _ _
  · exact pending_queueApply _ _

theorem Released.tick (h : Released d) (halive : d.controller.alive = true) (mode : Mode) :
    Released (d.tickPrivacyState mode) := by
  unfold tickPrivacyState
  split
  case isTrue => exact h
  case isFalse =>
    intro _
    left
    change Pending (d.controller.privacyModeChanged mode)
    unfold Controller.privacyModeChanged
    rw [if_neg (by simp [halive])]
    split
    · exact pending_queueApply _ _
    · exact pending_queueApply _ _

theorem Released.sceneCollectionChanging (h : Released d) :
    Released { d with controller := d.controller.sceneCollectionChanging } := fun hopen =>
  (h hopen).imp id fun _ => ⟨hopen, rfl, rfl, rfl⟩

theorem Released.sceneListChanged (h : Released d) (answers : Answers) :
    Released { d with controller := d.controller.sceneListChanged answers } := by
  unfold Controller.sceneListChanged
  split
  case isFalse => exact h
  case isTrue hmissing =>
    simp only
    obtain ⟨switches, hr⟩ := Controller.restorePreviousScene_eq
      (Controller.selectDefault
        { d.controller with watermarkRequired := false, overlayRequired := true }
        d.controller.latestMode answers.bundled) answers.previous
    rw [hr]
    intro hopen
    rcases h hopen with hpending | hopened
    · exact .inl hpending
    · simp [hopened.target] at hmissing

theorem Released.apply (h : Released d) (hs : Sound n d) {i : ℕ} {request : ApplyRequest}
    (hi : d.controller.queue[i]? = some request) (answers : Answers) :
    Released { d with controller := (d.controller.dequeue i).applyOnUiThread request answers } := by
  by_cases hcurrent : request.generation = d.controller.generation
  · have happlied : Controller.Applied (d.controller.dequeue i) request.mode answers
        ((d.controller.dequeue i).applyOnUiThread request answers) :=
      Controller.applyOnUiThread_of_current hs.alive hcurrent
    have hmode := (hs.queue request (List.mem_of_getElem? hi)).2 (hcurrent.trans hs.generation)
    intro hopen
    right
    have hlatest : isProtectedMode request.mode = false := by
      rw [hmode]
      exact happlied.same.latestMode ▸ hopen
    -- The current request restores the scene and takes the overlay away.
    have halive : (d.controller.dequeue i).alive = true := hs.alive
    have hgeneration : request.generation = (d.controller.dequeue i).generation := hcurrent
    simp only [Controller.applyOnUiThread, halive, hgeneration, hlatest, Bool.not_true,
      Bool.not_false, ne_eq, not_true_eq_false, Bool.false_eq_true, if_false, if_true]
    exact Controller.open_restorePreviousScene rfl rfl answers.previous
  · have hstale : request.generation ≠ (d.controller.dequeue i).generation := hcurrent
    rw [Controller.applyOnUiThread_of_stale hstale]
    intro hopen
    refine (h hopen).imp ?_ fun hopened =>
      ⟨hopened.overlay, hopened.watermark, hopened.scene, hopened.target⟩
    rintro ⟨other, hmem, hother⟩
    obtain ⟨j, hj⟩ := List.getElem?_of_mem hmem
    have hne : j ≠ i := by
      rintro rfl
      obtain rfl := Option.some.inj (hi.symm.trans hj)
      exact hcurrent hother
    exact ⟨other, List.mem_eraseIdx_iff_getElem?.mpr ⟨j, hne, hj⟩, hother⟩

theorem Released.step (h : Released d) (hs : Sound n d) {label : Label}
    (hstep : d.step label = some d') : Released d' := by
  cases label with
  | tick mode => exact Option.some.inj hstep ▸ h.tick hs.alive mode
  | updateSettings settings => exact Option.some.inj hstep ▸ released_updateSettings settings
  | sceneCollectionChanging => exact Option.some.inj hstep ▸ h.sceneCollectionChanging
  | sceneListChanged answers => exact Option.some.inj hstep ▸ h.sceneListChanged answers
  | apply i answers =>
    simp only [Display.step] at hstep
    split at hstep
    case h_2 => cases hstep
    case h_1 request hi => exact Option.some.inj hstep ▸ h.apply hs hi answers

end Display

end PrivacyGuard
