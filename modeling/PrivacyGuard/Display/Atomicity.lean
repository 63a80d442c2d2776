import PrivacyGuard.Display.Threads

/-! # Calls that do not overlap

Where every call has returned before the next one starts, the atomic steps of the two threads
add up to complete calls: between two calls the controller is the one that a run of complete
calls has left.
-/

namespace PrivacyGuard

namespace Threads

variable {k : ℕ} {t t' : Threads} {d : Display} {script : List Action}

/-- No call starts before the last one has returned, and only a transition is forwarded. -/
def Alone (t : Threads) : Label → Prop
  | .tick | .ui _ => True
  | .privacyModeChanged mode => t.tick = [] ∧ t.ui = [] ∧ t.decision ≠ some mode
  | _ => t.tick = [] ∧ t.ui = []

instance (t : Threads) : ∀ label, Decidable (t.Alone label)
  | .tick | .ui _ => .isTrue trivial
  | .privacyModeChanged _ => inferInstanceAs (Decidable (_ ∧ _ ∧ _))
  | .updateSettings _ | .frontendEvent _ | .apply _ => inferInstanceAs (Decidable (_ ∧ _))

/-- However the script ends, it has done what one call with so many requests does. -/
def Computes (k : ℕ) (t : Threads) (script : List Action) (d : Display) : Prop :=
  ∀ c', Completes t.controller script c' → ∃ label d', d.step label = some d' ∧
    label.requests = k ∧ d'.controller = c' ∧ d'.lastLoggedMode = t.decision

/-- The calls that have returned make up the display. The call in progress owes its requests. -/
inductive Represents : ℕ → Threads → Display → Prop
  | between {t : Threads} {d : Display} : t.tick = [] → t.ui = [] →
      d.controller = t.controller → d.lastLoggedMode = t.decision → Represents 0 t d
  | during {k : ℕ} {t : Threads} {d : Display} : (t.tick = [] ∨ t.ui = []) →
      t.tick ++ t.ui ≠ [] → Computes k t (t.tick ++ t.ui) d → Represents k t d

def Answered (k : ℕ) (t' : Threads) (d : Display) : Prop :=
  ∃ labels k' d', Transition.run Display.step d labels = some d' ∧ Represents k' t' d' ∧
    (labels.map Display.Label.requests).sum + k' = k

theorem Computes.answered (h : Computes k t script d) (halone : t.tick = [] ∨ t.ui = [])
    (hscript : t.tick ++ t.ui = script) : Answered k t d := by
  cases hnil : script with
  | nil =>
    obtain ⟨label, d', hstep, hrequests, hcontroller, hlogged⟩ := h t.controller (hnil ▸ .done _)
    obtain ⟨htick, hui⟩ := List.append_eq_nil_iff.mp (hscript.trans hnil)
    refine ⟨[label], 0, d', Transition.run_cons.mpr ⟨d', hstep, rfl⟩,
      .between htick hui hcontroller hlogged, ?_⟩
    simpa using hrequests
  | cons action rest =>
    refine ⟨[], k, d, rfl, .during halone ?_ (hscript ▸ h), Nat.zero_add k⟩
    simp [hscript, hnil]

theorem Computes.exec {action : Action} {rest : List Action} (h : Computes k t (action :: rest) d)
    (answers : PrivacyGuard.Answers)
    (hcontroller : t'.controller = (action.exec t.controller answers rest).1)
    (hdecision : t'.decision = t.decision) :
    Computes k t' (action.exec t.controller answers rest).2 d := by
  intro c' hc'
  rw [hcontroller] at hc'
  rw [hdecision]
  exact h c' (.step answers hc')

theorem Represents.tickStep (h : Represents k t d) (hs : t.step .tick = some t') :
    Answered k t' d := by
  obtain ⟨action, rest, htick, rfl⟩ := step_tick hs
  cases h with
  | between hnone => simp [htick] at hnone
  | during halone hne hcomputes =>
    have hui : t.ui = [] := halone.resolve_left (by simp [htick])
    rw [htick, hui, List.append_nil] at hcomputes
    exact Computes.answered (hcomputes.exec {} rfl rfl) (.inr hui) (by simp [hui])

theorem Represents.uiStep (h : Represents k t d) {answers : PrivacyGuard.Answers}
    (hs : t.step (.ui answers) = some t') : Answered k t' d := by
  obtain ⟨action, rest, hui, rfl⟩ := step_ui hs
  cases h with
  | between _ hnone => simp [hui] at hnone
  | during halone hne hcomputes =>
    have htick : t.tick = [] := halone.resolve_right (by simp [hui])
    rw [hui, htick, List.nil_append] at hcomputes
    exact Computes.answered (hcomputes.exec answers rfl rfl) (.inl htick) (by simp [htick])

/-! ### Calls -/

theorem Represents.eq_of_nil (h : Represents k t d) (htick : t.tick = []) (hui : t.ui = []) :
    k = 0 ∧ d.controller = t.controller ∧ d.lastLoggedMode = t.decision := by
  cases h with
  | between _ _ hcontroller hlogged => exact ⟨rfl, hcontroller, hlogged⟩
  | during _ hne => simp [htick, hui] at hne

theorem computes_privacyModeChanged {mode : Mode} (hcontroller : d.controller = t.controller)
    (hnew : d.lastLoggedMode ≠ some mode) (hdecision : t.decision = some mode) :
    Computes 1 t (privacyModeActions mode) d := by
  intro c' hc'
  refine ⟨.tick mode, _, rfl, rfl, ?_, ?_⟩
  · rw [Display.tickPrivacyState, if_neg hnew, hcontroller, hc'.privacyModeChanged]
  · rw [Display.tickPrivacyState, if_neg hnew, hdecision]

theorem computes_updateSettings (settings : DisplaySettings)
    (hcontroller : d.controller = t.controller) (hlogged : d.lastLoggedMode = t.decision) :
    Computes 1 t [.storeSettings settings] d := by
  intro c' hc'
  exact ⟨.updateSettings settings, _, rfl, rfl, by rw [hcontroller, hc'.updateSettings], hlogged⟩

theorem computes_frontendEvent (event : FrontendEvent) (hcontroller : d.controller = t.controller)
    (hlogged : d.lastLoggedMode = t.decision) : Computes 0 t (frontendEventActions event) d := by
  intro c' hc'
  cases event with
  | sceneCollectionChanging =>
    exact ⟨.sceneCollectionChanging, _, rfl, rfl, by rw [hcontroller, hc'.sceneCollectionChanging],
      hlogged⟩
  | sceneListChanged =>
    obtain ⟨answers, rfl⟩ := hc'.sceneListChanged
    exact ⟨.sceneListChanged answers, _, rfl, rfl, by rw [hcontroller], hlogged⟩

theorem computes_apply {i : ℕ} {request : ApplyRequest}
    (hi : d.controller.queue[i]? = some request)
    (hcontroller : t.controller = d.controller.dequeue i)
    (hlogged : d.lastLoggedMode = t.decision) :
    Computes 0 t (applyActions request) d := by
  intro c' hc'
  obtain ⟨answers, rfl⟩ := hc'.applyOnUiThread
  have hstep : d.step (.apply i answers) = some
      { d with controller := (d.controller.dequeue i).applyOnUiThread request answers } := by
    simp only [Display.step, hi]
  exact ⟨.apply i answers, _, hstep, rfl, by rw [hcontroller], hlogged⟩

theorem Represents.step (h : Represents k t d) {label : Label} (halone : t.Alone label)
    (hs : t.step label = some t') : Answered (k + label.requests) t' d := by
  cases label with
  | tick => exact h.tickStep hs
  | ui answers => exact h.uiStep hs
  | privacyModeChanged mode =>
    obtain ⟨htick, hui, hnew⟩ := halone
    obtain ⟨rfl, hcontroller, hlogged⟩ := h.eq_of_nil htick hui
    obtain ⟨-, rfl⟩ := step_privacyModeChanged hs
    rw [← hlogged] at hnew
    exact Computes.answered (computes_privacyModeChanged hcontroller hnew rfl) (.inr hui)
      (by simp [hui])
  | updateSettings settings =>
    obtain ⟨htick, hui⟩ := halone
    obtain ⟨rfl, hcontroller, hlogged⟩ := h.eq_of_nil htick hui
    obtain ⟨-, rfl⟩ := begin_eq_some.mp hs
    exact Computes.answered (computes_updateSettings settings hcontroller hlogged) (.inl htick)
      (by simp [htick])
  | frontendEvent event =>
    obtain ⟨htick, hui⟩ := halone
    obtain ⟨rfl, hcontroller, hlogged⟩ := h.eq_of_nil htick hui
    obtain ⟨-, rfl⟩ := begin_eq_some.mp hs
    exact Computes.answered (computes_frontendEvent event hcontroller hlogged) (.inl htick)
      (by simp [htick])
  | apply i =>
    obtain ⟨htick, hui⟩ := halone
    obtain ⟨rfl, hcontroller, hlogged⟩ := h.eq_of_nil htick hui
    obtain ⟨request, hi, -, rfl⟩ := step_apply hs
    rw [← hcontroller] at hi
    exact Computes.answered (computes_apply hi (by rw [hcontroller]) hlogged) (.inl htick)
      (by simp [htick])

/-- Calls that do not overlap are complete calls. -/
theorem complete_of_run {watermarkAvailable : Bool} {labels : List Label}
    (halone : Transition.Along Threads.step Alone (start { watermarkAvailable }) labels)
    (hrun : Transition.run Threads.step (start { watermarkAvailable }) labels = some t)
    (htick : t.tick = []) (hui : t.ui = []) :
    ∃ labels' d, (labels'.map Display.Label.requests).sum = (labels.map Label.requests).sum ∧
      Transition.run Display.step (Display.start watermarkAvailable) labels' = some d ∧
      d.controller = t.controller ∧ d.lastLoggedMode = t.decision := by
  have hstart : Represents 0 (start { watermarkAvailable }) (Display.start watermarkAvailable) :=
    .between rfl rfl rfl rfl
  obtain ⟨labels', k, d, hrun', hrepresents, hsum⟩ :=
    Transition.exists_run_of_relation (fun k t l t' d h hl hs => h.step hl hs) hstart halone hrun
  obtain ⟨rfl, hcontroller, hlogged⟩ := hrepresents.eq_of_nil htick hui
  exact ⟨labels', d, by simpa using hsum, hrun', hcontroller, hlogged⟩

/-- A sensitive file is decided and covered by its image; then the settings are changed. -/
def covering : List Label :=
  .privacyModeChanged .sensitive :: (List.replicate 6 .tick ++
    .apply 0 :: List.replicate 7 (.ui {}) ++ .updateSettings {} :: List.replicate 6 (.ui {}))

def covered : Threads :=
  (Transition.run Threads.step (start { watermarkAvailable := true }) covering).get
    (by decide +kernel)

theorem run_covering :
    Transition.run Threads.step (start { watermarkAvailable := true }) covering = some covered :=
  (Option.some_get _).symm

theorem complete_covering :
    (covered.controller.overlayRequired = true ∧ covered.decision = some .sensitive) ∧
      ∃ labels' d, (labels'.map Display.Label.requests).sum =
          (covering.map Label.requests).sum ∧
        Transition.run Display.step (Display.start true) labels' = some d ∧
        d.controller = covered.controller ∧ d.lastLoggedMode = covered.decision :=
  ⟨by decide +kernel, complete_of_run (by decide +kernel) run_covering (by decide +kernel)
    (by decide +kernel)⟩

end Threads

end PrivacyGuard
