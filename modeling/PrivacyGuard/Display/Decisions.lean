import PrivacyGuard.Display.Threads

/-! # Decisions and settings changes

Once every call has returned and every task has run, the last decision of the tick thread
is the latest mode and is hidden if it is protected. `update_settings` reads the latest
mode in one section and writes it back in another; the decision is kept if nothing newer
was published in between.
-/

namespace PrivacyGuard

def Action.published : Action → Option Mode
  | .publish mode => some mode
  | _ => none

/-- Steps that make a request, now or later. -/
def Action.requests : Action → Bool
  | .publish _ | .storeSettings _ => true
  | _ => false

/-- The latest mode is hidden if it is protected, by black or by a custom scene. -/
def Controller.Hides (c : Controller) : Prop :=
  isProtectedMode c.latestMode = true → c.overlayRequired = true ∨ c.customSceneActive = true

namespace Controller

variable {c d : Controller} {answers : Answers} {request : ApplyRequest}

theorem Hides.of_darker (h : c.Hides) (hd : c.Darker d) : d.Hides := by
  intro hp
  rw [← hd.same.2.1] at hp
  rcases h hp with hoverlay | hactive
  · exact Or.inl (hd.overlay hoverlay)
  · exact Or.inr (hd.scenes.1 ▸ hactive)

theorem hides_applyOnUiThread (halive : c.alive = true)
    (hcurrent : request.generation = c.generation) (hmode : request.mode = c.latestMode) :
    (c.applyOnUiThread request answers).Hides := by
  have happlied : Applied c request.mode answers (c.applyOnUiThread request answers) :=
    applyOnUiThread_of_current halive hcurrent
  intro hp
  rw [happlied.same.latestMode, ← hmode] at hp
  exact (happlied.covers hp).imp id And.left

theorem hides_updateSettings (settings : DisplaySettings) : (c.updateSettings settings).Hides := by
  unfold Controller.updateSettings
  simp only
  split
  case isTrue => exact fun _ => Or.inl rfl
  case isFalse hopen => exact fun hp => absurd hp hopen

theorem Hides.sceneListChanged (h : c.Hides) : (c.sceneListChanged answers).Hides := by
  unfold Controller.sceneListChanged
  split
  case isFalse => exact h
  case isTrue =>
    simp only
    obtain ⟨switches, hr⟩ := restorePreviousScene_eq
      (selectDefault { c with watermarkRequired := false, overlayRequired := true }
        c.latestMode answers.bundled) answers.previous
    rw [hr]
    exact fun _ => Or.inl rfl

end Controller

namespace Action

theorem requests_of_quiet {script : List Action} (h : ∀ action ∈ script, action.Quiet) :
    script.countP Action.requests = 0 := by
  rw [List.countP_eq_zero]
  intro action hmem
  have := h action hmem
  cases action <;> simp_all [Quiet, Action.requests]

theorem enqueue_notMem_of_quiet {script : List Action} (h : ∀ action ∈ script, action.Quiet)
    (request : ApplyRequest) : .enqueue request ∉ script :=
  fun hmem => h _ hmem

theorem Covers.requests {action : Action} (h : action.Covers) : action.requests = false := by
  cases action with
  | publish | storeSettings => exact h.elim
  | _ => rfl

theorem Covers.mem_cons {action other : Action} {rest : List Action} (h : action.Covers)
    (hother : ¬ other.Covers) : other ∈ action :: rest ↔ other ∈ rest := by
  rw [List.mem_cons, or_iff_right]
  rintro rfl
  exact hother h

theorem requests_coverActions (mode : Mode) :
    (coverActions mode ++ [Action.publish mode]).countP Action.requests = 1 := by
  unfold coverActions
  split <;> rfl

theorem enqueue_notMem_coverActions (mode : Mode) (request : ApplyRequest) :
    .enqueue request ∉ coverActions mode ++ [.publish mode] := by
  unfold coverActions
  split <;> simp

end Action

namespace Threads

def InFlight (t : Threads) (request : ApplyRequest) : Prop :=
  request ∈ t.controller.queue ∨ .enqueue request ∈ t.tick ∨ .enqueue request ∈ t.ui

/-- Where no call is in progress and every task has run, the last decision is in effect. -/
def Kept (t : Threads) : Prop :=
  t.tick = [] → t.ui = [] → t.controller.queue = [] →
    t.controller.latestMode = t.decided ∧ t.controller.Hides

/-- The UI thread writes back a mode that is still the latest. -/
def Current (t : Threads) : Label → Prop
  | .ui _ => ∀ mode ∈ t.ui.head?.bind Action.published, t.controller.latestMode = mode
  | _ => True

instance (t : Threads) : ∀ label, Decidable (t.Current label)
  | .ui _ => inferInstanceAs (Decidable (∀ _ ∈ _, _))
  | .privacyModeChanged _ | .tick | .updateSettings _ | .frontendEvent _ | .apply _ =>
    .isTrue trivial

/-- The UI thread announces a mode, is about to read the one it will announce, or does neither. -/
def Shaped (ui : List Action) : Prop :=
  (∃ mode, Announces mode ui) ∨ (∃ settings, ui = [.storeSettings settings]) ∨
    ∀ action ∈ ui, action.Quiet

/-- A request of the current generation is still in flight, or the decision is hidden once the
call of the UI thread has run to its end. -/
def Effective (t : Threads) : Prop :=
  (∃ request, t.InFlight request ∧ request.generation = t.controller.generation) ∨
    ∀ c', Completes t.controller t.ui c' → c'.Hides

def owed (t : Threads) : ℕ := t.tick.countP Action.requests + t.ui.countP Action.requests

structure Sound (n : ℕ) (t : Threads) : Prop where
  alive : t.controller.alive = true
  tick : Announces t.decided t.tick
  ui : Shaped t.ui
  count : t.controller.generation + t.owed ≤ n
  latest : .publish t.decided ∈ t.tick ∨ t.controller.latestMode = t.decided
  inFlight : ∀ request, t.InFlight request → request.generation ≤ t.controller.generation ∧
    (request.generation = t.controller.generation → request.mode = t.controller.latestMode)
  effect : t.Effective

variable {n : ℕ} {t t' : Threads}

theorem sound_start (settings : DisplaySettings) (watermarkAvailable : Bool) :
    Sound 0 (start { settings, watermarkAvailable }) where
  alive := rfl
  tick := .done
  ui := Or.inl ⟨.safe, .done⟩
  count := le_rfl
  latest := Or.inr rfl
  inFlight := by simp [InFlight, start]
  effect := by
    right
    intro c' h
    rw [Completes.nil_iff.mp h]
    exact fun _ => Or.inl rfl

theorem Sound.kept (h : Sound n t) : t.Kept := by
  intro htick hui hqueue
  constructor
  · simpa [htick] using h.latest
  · rcases h.effect with ⟨request, hflight, -⟩ | hsettled
    · simp [InFlight, htick, hui, hqueue] at hflight
    · exact hsettled _ (hui ▸ .done _)

theorem Effective.of_darker (h : t.Effective) (hui : t'.ui = t.ui)
    (hdarker : t.controller.Darker t'.controller)
    (hflight : ∀ request, t.InFlight request → t'.InFlight request) : t'.Effective := by
  rcases h with ⟨request, hrequest, hcurrent⟩ | hsettled
  · exact Or.inl ⟨request, hflight request hrequest, hcurrent.trans hdarker.same.2.2.1⟩
  · right
    intro d' h
    rw [hui] at h
    obtain ⟨c', hc', hdarker'⟩ := h.of_darker hdarker
    exact (hsettled c' hc').of_darker hdarker'

/-- A decision that will be hidden stays so when the UI thread takes its next step. -/
theorem Effective.uiStep (h : t.Effective) {action : Action} {rest : List Action}
    (answers : Answers) (hui : t.ui = action :: rest)
    (hexec : action.exec t.controller answers rest = (t'.controller, t'.ui))
    (hgeneration : t'.controller.generation = t.controller.generation)
    (hflight : ∀ request, t.InFlight request → t'.InFlight request) : t'.Effective := by
  rcases h with ⟨request, hrequest, hcurrent⟩ | hsettled
  · exact Or.inl ⟨request, hflight request hrequest, hcurrent.trans hgeneration.symm⟩
  · right
    intro c' h
    refine hsettled c' (hui ▸ .step answers ?_)
    rwa [hexec]

/-- Nothing is published, and no request is made or forgotten. -/
structure SameRequests (t t' : Threads) : Prop where
  alive : t'.controller.alive = t.controller.alive
  generation : t'.controller.generation = t.controller.generation
  latestMode : t'.controller.latestMode = t.controller.latestMode
  decided : t'.decided = t.decided
  inFlight : ∀ request, t'.InFlight request → t.InFlight request

theorem Sound.of_same (h : Sound n t) (hsame : SameRequests t t')
    (htick : Announces t.decided t'.tick) (hui : Shaped t'.ui) (hcount : t'.owed ≤ t.owed)
    (hlatest : .publish t.decided ∈ t.tick → .publish t.decided ∈ t'.tick)
    (heffect : t'.Effective) : Sound n t' := by
  have hbound := h.count
  constructor
  case alive => exact hsame.alive.trans h.alive
  case tick => rwa [hsame.decided]
  case ui => exact hui
  case count =>
    rw [hsame.generation]
    omega
  case latest =>
    rw [hsame.decided, hsame.latestMode]
    exact h.latest.imp hlatest id
  case inFlight =>
    intro request hrequest
    rw [hsame.generation, hsame.latestMode]
    exact h.inFlight request (hsame.inFlight request hrequest)
  case effect => exact heffect

/-- A published request supersedes those in flight. -/
theorem Sound.of_publish (h : Sound n t) (hn : n < wordSize) (request : ApplyRequest)
    (hrequest : request.generation = increment t.controller.generation)
    (hcontroller : t'.controller =
      { t.controller with latestMode := request.mode, generation := request.generation })
    (hdecided : t'.decided = t.decided) (htick : Announces t.decided t'.tick) (hui : Shaped t'.ui)
    (hcount : t'.owed + 1 ≤ t.owed)
    (hlatest : .publish t.decided ∈ t'.tick ∨ request.mode = t.decided)
    (hflight : ∀ other, t'.InFlight other ↔ t.InFlight other ∨ other = request) : Sound n t' := by
  have hbound := h.count
  have hnext : request.generation = t.controller.generation + 1 :=
    hrequest.trans (Nat.mod_eq_of_lt (by omega))
  constructor
  case alive => rw [hcontroller]; exact h.alive
  case tick => rwa [hdecided]
  case ui => exact hui
  case count =>
    rw [hcontroller]
    change request.generation + _ ≤ n
    omega
  case latest =>
    rw [hdecided, hcontroller]
    exact hlatest
  case inFlight =>
    intro other hother
    rw [hcontroller]
    rcases (hflight other).mp hother with hold | rfl
    · have hle := (h.inFlight other hold).1
      exact ⟨by simp only; omega, fun heq => by simp only at heq; omega⟩
    · exact ⟨le_rfl, fun _ => rfl⟩
  case effect =>
    rw [Effective, hcontroller]
    exact Or.inl ⟨request, (hflight request).mpr (Or.inr rfl), rfl⟩

/-! ### Steps of the tick thread -/

theorem Sound.privacyModeChanged (h : Sound n t) (htick : t.tick = []) (mode : Mode) :
    Sound (n + 1)
      { t with tick := privacyModeActions mode, decision := some mode, request := none } where
  alive := h.alive
  tick := announces_privacyModeActions mode
  ui := h.ui
  count := by
    have hcount := h.count
    have hone : (privacyModeActions mode).countP Action.requests = 1 :=
      Action.requests_coverActions mode
    simp only [owed, htick, List.countP_nil, hone] at hcount ⊢
    omega
  latest := Or.inl (by simp [privacyModeActions, decided])
  inFlight request hflight := by
    refine h.inFlight request (hflight.imp id (Or.imp (fun hmem => ?_) id))
    rcases List.mem_cons.mp hmem with hfalse | hmem
    · cases hfalse
    · exact absurd hmem (Action.enqueue_notMem_coverActions mode request)
  effect := by
    rcases h.effect with ⟨request, hflight, hcurrent⟩ | hsettled
    · refine Or.inl ⟨request, ?_, hcurrent⟩
      exact hflight.imp id (Or.imp (fun hmem => absurd (htick ▸ hmem) List.not_mem_nil) id)
    · exact Or.inr hsettled

theorem Sound.tickCover (h : Sound n t) {action : Action} {rest : List Action}
    (htick : t.tick = action :: rest) (hcover : action.Covers) (hrest : Announces t.decided rest) :
    Sound n
      { t with
        controller := (action.exec t.controller {} rest).1
        tick := (action.exec t.controller {} rest).2
        request := action.queued.or t.request } := by
  obtain ⟨hexec, hsame, hdarker⟩ := hcover.exec h.alive {} rest
  rw [hexec]
  have hflight (request : ApplyRequest) :
      .enqueue request ∈ rest ↔ .enqueue request ∈ t.tick := by
    rw [htick, hcover.mem_cons id]
  apply h.of_same
  case hsame =>
    refine ⟨hsame.alive, hsame.generation, hsame.latestMode, rfl, fun request hrequest => ?_⟩
    simpa only [InFlight, hsame.queue, hflight] using hrequest
  case htick => exact hrest
  case hui => exact h.ui
  case hcount =>
    simp only [owed, htick, List.countP_cons]
    omega
  case hlatest =>
    rw [htick, hcover.mem_cons id]
    exact id
  case heffect =>
    refine h.effect.of_darker rfl hdarker fun request hrequest => ?_
    simpa only [InFlight, hsame.queue, hflight] using hrequest

theorem Sound.tickPublish (h : Sound n t) (hn : n < wordSize)
    (htick : t.tick = [.publish t.decided]) :
    Sound n
      { t with
        controller :=
          { t.controller with
            latestMode := t.decided
            generation := increment t.controller.generation }
        tick :=
          [.enqueue { mode := t.decided, generation := increment t.controller.generation }] } := by
  apply h.of_publish hn { mode := t.decided, generation := increment t.controller.generation }
  case hrequest => rfl
  case hcontroller => rfl
  case hdecided => rfl
  case htick => exact .enqueue rfl
  case hui => exact h.ui
  case hcount => simp [owed, htick, Action.requests]
  case hlatest => exact Or.inr rfl
  case hflight =>
    intro other
    simp only [InFlight, htick, List.mem_singleton, Action.enqueue.injEq, reduceCtorEq]
    tauto

theorem Sound.tickEnqueue (h : Sound n t) {request : ApplyRequest}
    (htick : t.tick = [.enqueue request]) :
    Sound n
      { t with
        controller := { t.controller with queue := t.controller.queue ++ [request] }
        tick := []
        request := some request } := by
  have hflight (other : ApplyRequest) : (other ∈ t.controller.queue ++ [request] ∨
      Action.enqueue other ∈ [] ∨ .enqueue other ∈ t.ui) ↔ t.InFlight other := by
    simp only [InFlight, htick, List.mem_append, List.mem_singleton, List.not_mem_nil, false_or,
      Action.enqueue.injEq, or_assoc]
  apply h.of_same
  case hsame => exact ⟨rfl, rfl, rfl, rfl, fun other => (hflight other).mp⟩
  case htick => exact .done
  case hui => exact h.ui
  case hcount => simp [owed, htick]
  case hlatest => simp [htick]
  case heffect =>
    exact h.effect.of_darker rfl ⟨⟨rfl, rfl, rfl, rfl, rfl⟩, ⟨rfl, rfl, rfl⟩, id⟩
      fun other => (hflight other).mpr

theorem Sound.tickStep (h : Sound n t) (hn : n < wordSize) (hs : t.step .tick = some t') :
    Sound n t' := by
  obtain ⟨action, rest, htick, rfl⟩ := step_tick hs
  have hannounces := h.tick
  rw [htick] at hannounces
  cases hannounces with
  | enqueue hmode => exact h.tickEnqueue htick
  | publish => exact h.tickPublish hn htick
  | cover hcover hrest => exact h.tickCover htick hcover hrest

/-! ### Steps of the UI thread -/

theorem Sound.uiQuiet (h : Sound n t) {action : Action} {rest : List Action} {answers : Answers}
    {switched : List (ApplyRequest × Bytes)} {step : Controller × List Action}
    (hui : t.ui = action :: rest) (hstep : action.exec t.controller answers rest = step)
    (halive : step.1.alive = t.controller.alive)
    (hgeneration : step.1.generation = t.controller.generation)
    (hlatest : step.1.latestMode = t.controller.latestMode)
    (hqueue : step.1.queue = t.controller.queue) (hshaped : Shaped step.2)
    (hcount : step.2.countP Action.requests ≤ t.ui.countP Action.requests)
    (hmem : ∀ request, .enqueue request ∈ step.2 ↔ .enqueue request ∈ t.ui) :
    Sound n { t with controller := step.1, ui := step.2, switched } := by
  apply h.of_same
  case hsame =>
    refine ⟨halive, hgeneration, hlatest, rfl, fun request hrequest => ?_⟩
    simpa only [InFlight, hqueue, hmem] using hrequest
  case htick => exact h.tick
  case hui => exact hshaped
  case hcount => exact Nat.add_le_add_left hcount _
  case hlatest => exact id
  case heffect =>
    refine h.effect.uiStep answers hui hstep hgeneration fun request hrequest => ?_
    simpa only [InFlight, hqueue, hmem] using hrequest

theorem Sound.uiPublish (h : Sound n t) (hn : n < wordSize) {mode : Mode}
    {switched : List (ApplyRequest × Bytes)} (hui : t.ui = [.publish mode])
    (hcurrent : t.controller.latestMode = mode) :
    Sound n
      { t with
        controller :=
          { t.controller with
            latestMode := mode
            generation := increment t.controller.generation }
        ui := [.enqueue { mode, generation := increment t.controller.generation }]
        switched } := by
  apply h.of_publish hn { mode, generation := increment t.controller.generation }
  case hrequest => rfl
  case hcontroller => rfl
  case hdecided => rfl
  case htick => exact h.tick
  case hui => exact Or.inl ⟨mode, .enqueue rfl⟩
  case hcount => simp [owed, hui, Action.requests]
  case hlatest => exact h.latest.imp id hcurrent.symm.trans
  case hflight =>
    intro other
    simp only [InFlight, hui, List.mem_singleton, Action.enqueue.injEq, reduceCtorEq]
    tauto

theorem Sound.uiEnqueue (h : Sound n t) {request : ApplyRequest}
    {switched : List (ApplyRequest × Bytes)} (hui : t.ui = [.enqueue request]) :
    Sound n
      { t with
        controller := { t.controller with queue := t.controller.queue ++ [request] }
        ui := []
        switched } := by
  have hflight (other : ApplyRequest) : (other ∈ t.controller.queue ++ [request] ∨
      Action.enqueue other ∈ t.tick ∨ Action.enqueue other ∈ []) ↔ t.InFlight other := by
    simp only [InFlight, hui, List.mem_append, List.mem_singleton, List.not_mem_nil, or_false,
      Action.enqueue.injEq]
    tauto
  apply h.of_same
  case hsame => exact ⟨rfl, rfl, rfl, rfl, fun other => (hflight other).mp⟩
  case htick => exact h.tick
  case hui => exact Or.inl ⟨.safe, .done⟩
  case hcount => simp [owed, hui]
  case hlatest => exact id
  case heffect => exact h.effect.uiStep {} hui rfl rfl fun other => (hflight other).mpr

theorem Sound.uiStep (h : Sound n t) (hn : n < wordSize) {answers : Answers}
    (hcurrent : t.Current (.ui answers)) (hs : t.step (.ui answers) = some t') : Sound n t' := by
  obtain ⟨action, rest, hui, rfl⟩ := step_ui hs
  have hshaped := h.ui
  rw [hui] at hshaped
  rcases hshaped with ⟨mode, hannounces⟩ | ⟨settings, hstore⟩ | hquiet
  · cases hannounces with
    | enqueue hmode => exact h.uiEnqueue hui
    | publish => exact h.uiPublish hn hui (hcurrent mode (by simp [hui, Action.published]))
    | cover hcover hrest =>
      obtain ⟨hexec, hsame, -⟩ := hcover.exec h.alive answers rest
      apply h.uiQuiet hui rfl hsame.alive hsame.generation hsame.latestMode hsame.queue
      all_goals rw [hexec]
      case hshaped => exact Or.inl ⟨mode, hrest⟩
      case hcount =>
        rw [hui]
        exact (List.sublist_cons_self action rest).countP_le
      case hmem =>
        intro request
        rw [hui, hcover.mem_cons id]
  · obtain ⟨rfl, rfl⟩ := List.cons.inj hstore
    apply h.uiQuiet hui rfl
    all_goals simp only [Action.exec, List.append_nil, hui]
    case hshaped => exact Or.inl ⟨_, announces_coverActions _⟩
    case hcount =>
      rw [Action.requests_coverActions]
      exact le_rfl
    case hmem =>
      intro request
      exact iff_of_false (Action.enqueue_notMem_coverActions _ request) (by simp)
  · obtain ⟨haction, hrest⟩ := List.forall_mem_cons.mp hquiet
    obtain ⟨hsame, hleft⟩ := haction.exec hrest t.controller answers
    apply h.uiQuiet hui rfl hsame.alive hsame.generation hsame.latestMode hsame.queue
    case hshaped => exact Or.inr (Or.inr hleft)
    case hcount =>
      rw [Action.requests_of_quiet hleft]
      exact Nat.zero_le _
    case hmem =>
      intro request
      rw [hui]
      exact iff_of_false (Action.enqueue_notMem_of_quiet hleft request)
        (Action.enqueue_notMem_of_quiet hquiet request)

/-! ### Calls of the UI thread -/

theorem Sound.begin (h : Sound n t) {c : Controller} {script : List Action}
    {applying : Option ApplyRequest} (halive : c.alive = t.controller.alive)
    (hgeneration : c.generation = t.controller.generation)
    (hlatest : c.latestMode = t.controller.latestMode)
    (hqueue : ∀ request ∈ c.queue, request ∈ t.controller.queue)
    (hquiet : ∀ action ∈ script, action.Quiet)
    (heffect : Effective { t with controller := c, ui := script, applying }) :
    Sound n { t with controller := c, ui := script, applying } := by
  apply h.of_same
  case hsame =>
    refine ⟨halive, hgeneration, hlatest, rfl, fun request hrequest => ?_⟩
    rcases hrequest with hmem | hmem | hmem
    · exact Or.inl (hqueue request hmem)
    · exact Or.inr (Or.inl hmem)
    · exact absurd hmem (Action.enqueue_notMem_of_quiet hquiet request)
  case htick => exact h.tick
  case hui => exact Or.inr (Or.inr hquiet)
  case hcount => simp [owed, Action.requests_of_quiet hquiet]
  case hlatest => exact id
  case heffect => exact heffect

theorem Sound.updateSettings (h : Sound n t) (hui : t.ui = []) (settings : DisplaySettings) :
    Sound (n + 1) { t with ui := [.storeSettings settings], applying := none } where
  alive := h.alive
  tick := h.tick
  ui := Or.inr (Or.inl ⟨settings, rfl⟩)
  count := by
    have hcount := h.count
    simp only [owed, hui, List.countP_nil, List.countP_singleton, Action.requests,
      if_true] at hcount ⊢
    omega
  latest := h.latest
  inFlight request hflight :=
    h.inFlight request (hflight.imp id (Or.imp id (by simp)))
  effect := by
    rcases h.effect with ⟨request, hflight, hcurrent⟩ | -
    · refine Or.inl ⟨request, ?_, hcurrent⟩
      exact hflight.imp id (Or.imp id fun hmem => absurd (hui ▸ hmem) List.not_mem_nil)
    · right
      intro c' hc'
      rw [hc'.updateSettings]
      exact Controller.hides_updateSettings settings

theorem Sound.sceneListChanged (h : Sound n t) (hui : t.ui = []) :
    Sound n { t with ui := frontendEventActions .sceneListChanged, applying := none } := by
  refine h.begin rfl rfl rfl (fun _ => id) (Action.quiet_frontendEventActions _) ?_
  rcases h.effect with ⟨request, hflight, hcurrent⟩ | hsettled
  · refine Or.inl ⟨request, ?_, hcurrent⟩
    exact hflight.imp id (Or.imp id fun hmem => absurd (hui ▸ hmem) List.not_mem_nil)
  · right
    intro c' hc'
    obtain ⟨answers, rfl⟩ := hc'.sceneListChanged
    exact Controller.Hides.sceneListChanged (hsettled _ (hui ▸ .done _))

theorem Sound.apply (h : Sound n t) (hui : t.ui = []) {i : ℕ} {request : ApplyRequest}
    (hi : t.controller.queue[i]? = some request) :
    Sound n
      { t with
        controller := t.controller.dequeue i
        ui := applyActions request
        applying := some request } := by
  refine h.begin rfl rfl rfl (fun other hmem => List.mem_of_mem_eraseIdx hmem)
    (Action.quiet_applyActions request) ?_
  by_cases hcurrent : request.generation = t.controller.generation
  case pos =>
    -- the task hides the decision itself
    right
    intro c' hc'
    obtain ⟨answers, rfl⟩ := hc'.applyOnUiThread
    exact Controller.hides_applyOnUiThread h.alive hcurrent
      ((h.inFlight request (Or.inl (List.mem_of_getElem? hi))).2 hcurrent)
  case neg =>
    -- the task is stale, and the request that matters is another one
    rcases h.effect with ⟨other, hflight, hother⟩ | hsettled
    · refine Or.inl ⟨other, ?_, hother⟩
      rcases hflight with hmem | hmem | hmem
      · obtain ⟨k, hk⟩ := List.mem_iff_getElem?.mp hmem
        have hne : k ≠ i := by
          rintro rfl
          obtain rfl := Option.some.inj (hi.symm.trans hk)
          exact hcurrent hother
        exact Or.inl (List.mem_eraseIdx_iff_getElem?.mpr ⟨k, hne, hk⟩)
      · exact Or.inr (Or.inl hmem)
      · exact absurd (hui ▸ hmem) List.not_mem_nil
    · right
      intro c' hc'
      obtain ⟨answers, rfl⟩ := hc'.applyOnUiThread
      have hstale : request.generation ≠ (t.controller.dequeue i).generation := hcurrent
      rw [Controller.applyOnUiThread_of_stale hstale]
      exact hsettled t.controller (hui ▸ .done _)

theorem Sound.step (h : Sound n t) {label : Label}
    (hchanging : label ≠ .frontendEvent .sceneCollectionChanging) (hcurrent : t.Current label)
    (hn : n + label.requests < wordSize) (hs : t.step label = some t') :
    Sound (n + label.requests) t' := by
  cases label with
  | privacyModeChanged mode =>
    obtain ⟨htick, rfl⟩ := step_privacyModeChanged hs
    exact h.privacyModeChanged htick mode
  | tick => exact h.tickStep hn hs
  | updateSettings settings =>
    obtain ⟨hui, rfl⟩ := begin_eq_some.mp hs
    exact h.updateSettings hui settings
  | frontendEvent event =>
    obtain ⟨hui, rfl⟩ := begin_eq_some.mp hs
    cases event with
    | sceneCollectionChanging => exact absurd rfl hchanging
    | sceneListChanged => exact h.sceneListChanged hui
  | apply i =>
    obtain ⟨request, hi, hui, rfl⟩ := step_apply hs
    exact h.apply hui hi
  | ui answers => exact h.uiStep hn hcurrent hs

/-- The last decision is kept in every run in which the UI thread never writes back a mode that
is no longer the latest. -/
theorem kept_of_run {settings : DisplaySettings} {watermarkAvailable : Bool} {labels : List Label}
    (hn : (labels.map Label.requests).sum < wordSize)
    (hchanging : Label.frontendEvent .sceneCollectionChanging ∉ labels)
    (hcurrent :
      Transition.Along Threads.step Current (start { settings, watermarkAvailable }) labels)
    (hrun : Transition.run Threads.step (start { settings, watermarkAvailable }) labels = some t) :
    t.Kept := by
  have hlabels : ∀ label ∈ labels, label ≠ .frontendEvent .sceneCollectionChanging :=
    fun label hmem heq => hchanging (heq ▸ hmem)
  have hsound : Sound (0 + (labels.map Label.requests).sum) t :=
    Transition.run_weighted_along (fun n t label t' h hP hn hs => h.step hP.2 hP.1 hn hs)
      (sound_start settings watermarkAvailable)
      (hcurrent.and (Transition.Along.of_forall hlabels))
      (show 0 + (labels.map Label.requests).sum < wordSize by omega) hrun
  exact hsound.kept

def changing : List Label :=
  .privacyModeChanged .sensitive :: (List.replicate 2 .tick ++
    .updateSettings {} :: (List.replicate 6 (.ui {}) ++ List.replicate 4 .tick ++
      .apply 0 :: List.replicate 2 (.ui {}) ++ .apply 0 :: List.replicate 7 (.ui {})))

theorem kept_changing :
    ((Transition.run Threads.step (start { watermarkAvailable := true }) changing).get
      (by decide +kernel)).Kept :=
  kept_of_run (by decide) (by simp [changing]) (by decide +kernel)
    (Option.some_get _).symm

/-- Writing back a mode that is no longer the latest loses the last decision. -/
theorem Sound.latestMode_ne_decided (h : Sound n t) (htick : t.tick = []) {label : Label}
    (hlate : ¬ t.Current label) (hs : t.step label = some t') :
    t'.controller.latestMode ≠ t'.decided := by
  have hlatest : t.controller.latestMode = t.decided := by simpa [htick] using h.latest
  cases label with
  | ui answers =>
    obtain ⟨action, rest, hui, rfl⟩ := step_ui hs
    simp only [Current, hui, List.head?_cons, Option.bind_some] at hlate
    cases action with
    | publish mode =>
      intro heq
      exact hlate fun mode' hmode => (hlatest.trans heq.symm).trans (Option.some.inj hmode)
    | _ => exact absurd (by simp [Action.published]) hlate
  | _ => exact absurd trivial hlate

/-- The settings are changed while the output is open, a sensitive file is decided, and then
`update_settings` writes the mode back that it has read. -/
def overwriting : List Label :=
  .privacyModeChanged .safe :: (List.replicate 3 .tick ++ .apply 0 :: List.replicate 5 (.ui {})) ++
    .updateSettings {} :: .ui {} :: .privacyModeChanged .sensitive ::
      (List.replicate 6 .tick ++ List.replicate 2 (.ui {}) ++
        .apply 0 :: List.replicate 2 (.ui {}) ++ .apply 0 :: List.replicate 5 (.ui {}))

/-- A settings change can undo a newer decision. -/
theorem exists_run_not_kept :
    ¬ ∀ (settings : DisplaySettings) (watermarkAvailable : Bool) (labels : List Label)
        (t : Threads),
      (labels.map Label.requests).sum < wordSize →
        Label.frontendEvent .sceneCollectionChanging ∉ labels →
          Transition.run Threads.step (start { settings, watermarkAvailable }) labels = some t →
            t.Kept := by
  intro h
  obtain ⟨t, hrun, htick, hui, hqueue, hlatest, hdecision⟩ :
      ∃ t, Transition.run Threads.step (start { watermarkAvailable := true }) overwriting = some t ∧
        t.tick = [] ∧ t.ui = [] ∧ t.controller.queue = [] ∧ t.controller.latestMode = .safe ∧
          t.decided = .sensitive :=
    ⟨_, (Option.some_get (by decide +kernel)).symm, by decide +kernel⟩
  have hkept := h {} true overwriting t (by decide) (by simp [overwriting]) hrun htick hui hqueue
  rw [hlatest, hdecision] at hkept
  cases hkept.1

end Threads

end PrivacyGuard
