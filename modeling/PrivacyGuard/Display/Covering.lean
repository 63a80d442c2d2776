import PrivacyGuard.Display.Decisions

/-! # Stale tasks and newer decisions

A task compares its generation in one section and clears the overlay later; the call that
decides a newer mode covers the output first and raises the generation later. Where these
two windows never overlap, the comparison keeps every protected decision covered.
-/

namespace PrivacyGuard

/-- What the steps of an apply task are for: the overlay of a protected mode is cleared after
the switch to its scene only. -/
def Action.Fits (settings : DisplaySettings) (request : ApplyRequest)
    (switched : List (ApplyRequest × Bytes)) : Action → Prop
  | .setOverlayRequired false => isProtectedMode request.mode = true →
    (request, (settings.event request.mode).scene) ∈ switched
  | .loadSettings mode => mode = request.mode
  | .switchToScene _ scene => scene = (settings.event request.mode).scene
  | .loadLatestMode _ | .storeSettings _ | .publish _ => False
  | _ => True

/-- With these settings, the step uncovers the output or leads to one that does. -/
def Action.uncovers (settings : DisplaySettings) : Action → Bool
  | .setOverlayRequired value => !value
  | .loadSettings mode =>
    match resolveDisplayAction settings mode with
    | .builtInImage | .customImage => false
    | _ => true
  | .switchToScene _ _ => true
  | _ => false

/-- The script uncovers the output without another comparison of generations. -/
def scriptUncovers (settings : DisplaySettings) : List Action → Bool
  | [] => false
  | .checkGeneration _ :: _ => false
  | action :: rest => action.uncovers settings || scriptUncovers settings rest

namespace Action

variable {c : Controller} {action : Action} {answers : Answers} {rest : List Action}
  {settings : DisplaySettings} {request : ApplyRequest}
  {switched switched' : List (ApplyRequest × Bytes)}

theorem Fits.mono (h : action.Fits settings request switched) (hsub : switched ⊆ switched') :
    action.Fits settings request switched' := by
  unfold Fits at h ⊢
  split at h
  case h_1 => exact fun hp => hsub (h hp)
  all_goals exact h

theorem fits_builtInActions (mode : Mode) :
    ∀ other ∈ builtInActions mode, other.Fits settings request switched := by
  simp [builtInActions, Fits]

theorem fits_displayActions :
    ∀ other ∈ displayActions settings request.mode, other.Fits settings request switched := by
  unfold displayActions
  split
  · exact fits_builtInActions request.mode
  · simp [Fits]
  · simp [Fits]

theorem fits_applyActions (settings : DisplaySettings) (request : ApplyRequest)
    (switched : List (ApplyRequest × Bytes)) :
    ∀ other ∈ applyActions request, other.Fits settings request switched := by
  unfold applyActions
  split
  case isTrue hp => simp [Fits]
  case isFalse hp => simp [Fits, hp]

theorem Fits.exec (h : ∀ other ∈ action :: rest, other.Fits settings request switched)
    (hsettings : c.settings = settings) :
    ∀ other ∈ (action.exec c answers rest).2, other.Fits settings request
      ((Option.map₂ Prod.mk (some request) (action.reached answers)).toList ++ switched) := by
  obtain ⟨haction, hrest⟩ := List.forall_mem_cons.mp h
  replace hrest : ∀ other ∈ rest, other.Fits settings request
      ((Option.map₂ Prod.mk (some request) (action.reached answers)).toList ++ switched) :=
    fun other hmem => (hrest other hmem).mono (List.subset_append_right _ _)
  cases action with
  | checkAlive | checkGeneration | checkTargetScene =>
    simp only [Action.exec]
    split
    · exact hrest
    · simp
  | loadSettings mode =>
    obtain rfl : mode = request.mode := haction
    simp only [Action.exec, hsettings]
    exact List.forall_mem_append.mpr ⟨fits_displayActions, hrest⟩
  | switchToScene mode scene =>
    obtain rfl : scene = (settings.event request.mode).scene := haction
    simp only [Action.exec, Controller.switchToScene]
    cases hanswer : answers.target
    · refine List.forall_mem_append.mpr ⟨fits_builtInActions mode, ?_⟩
      simpa [reached, hanswer] using hrest
    · simpa [reached, hanswer, Fits] using hrest
  | selectCustom mode path =>
    simp only [Action.exec]
    split <;> simpa [Fits] using hrest
  | loadLatestMode | storeSettings | publish => exact haction.elim
  | _ => exact hrest

theorem exec_overlayRequired (h : action ≠ .setOverlayRequired false)
    (hoverlay : c.overlayRequired = true) :
    (action.exec c answers rest).1.overlayRequired = true := by
  cases action with
  | setOverlayRequired value => cases value <;> simp_all [Action.exec]
  | restorePreviousScene =>
    obtain ⟨switches, hr⟩ := c.restorePreviousScene_eq answers.previous
    simp only [Action.exec, hr, hoverlay]
  | switchToScene mode scene =>
    simp only [Action.exec, Controller.switchToScene]
    cases answers.target <;> exact hoverlay
  | rememberScene previousScene =>
    simp only [Action.exec]
    split <;> exact hoverlay
  | selectCustom mode path =>
    simp only [Action.exec]
    split <;> exact hoverlay
  | _ => exact hoverlay

theorem scriptUncovers_cons (h : ∀ generation, action ≠ .checkGeneration generation) :
    scriptUncovers settings (action :: rest) =
      (action.uncovers settings || scriptUncovers settings rest) := by
  cases action with
  | checkGeneration generation => exact absurd rfl (h generation)
  | _ => rfl

theorem scriptUncovers_append {script : List Action}
    (h : ∀ action ∈ script, action.uncovers settings = false ∧
      ∀ generation, action ≠ .checkGeneration generation) :
    scriptUncovers settings (script ++ rest) = scriptUncovers settings rest := by
  induction script with
  | nil => rfl
  | cons action script ih =>
    obtain ⟨⟨hkeeps, hcheck⟩, hscript⟩ := List.forall_mem_cons.mp h
    rw [List.cons_append, scriptUncovers_cons hcheck, hkeeps, Bool.false_or, ih hscript]

theorem keeps_builtInActions (mode : Mode) :
    ∀ other ∈ builtInActions mode, other.uncovers settings = false ∧
      ∀ generation, other ≠ .checkGeneration generation := by
  simp [builtInActions, Action.uncovers]

theorem keeps_displayActions {mode : Mode}
    (h : (Action.loadSettings mode).uncovers settings = false) :
    ∀ other ∈ displayActions settings mode, other.uncovers settings = false ∧
      ∀ generation, other ≠ .checkGeneration generation := by
  simp only [Action.uncovers] at h
  unfold displayActions
  cases haction : resolveDisplayAction settings mode <;> simp only [haction] at h ⊢
  case builtInImage => exact keeps_builtInActions mode
  case customImage => simp [Action.uncovers]
  all_goals cases h

theorem keeps_invalidateActions {mode : Mode} {event : FrontendEvent}
    (h : event = .sceneCollectionChanging → isProtectedMode mode = true) :
    ∀ other ∈ invalidateActions mode event, other.uncovers settings = false ∧
      ∀ generation, other ≠ .checkGeneration generation := by
  cases event with
  | sceneCollectionChanging => simp [invalidateActions, Action.uncovers, h rfl]
  | sceneListChanged => simp [invalidateActions, Action.uncovers]

/-- Only a comparison that succeeds and a read of an open mode start to uncover. -/
theorem scriptUncovers_exec (hquiet : action.Quiet)
    (hcheck : ∀ generation, action ≠ .checkGeneration generation)
    (hload : action = .loadLatestMode .sceneCollectionChanging →
      isProtectedMode c.latestMode = true)
    (hsettings : c.settings = settings)
    (h : scriptUncovers settings (action.exec c answers rest).2 = true) :
    scriptUncovers settings (action :: rest) = true := by
  rw [scriptUncovers_cons hcheck, Bool.or_eq_true]
  cases action with
  | checkGeneration generation => exact absurd rfl (hcheck generation)
  | checkAlive | checkTargetScene =>
    simp only [Action.exec] at h
    split at h
    · exact Or.inr h
    · cases h
  | loadSettings mode =>
    cases hkeeps : (Action.loadSettings mode).uncovers settings with
    | true => exact Or.inl rfl
    | false =>
      simp only [Action.exec, hsettings] at h
      rw [scriptUncovers_append (keeps_displayActions hkeeps)] at h
      exact Or.inr h
  | switchToScene mode scene => exact Or.inl rfl
  | selectCustom mode path =>
    simp only [Action.exec] at h
    split at h <;> exact Or.inr (by simpa [scriptUncovers, Action.uncovers] using h)
  | loadLatestMode event =>
    simp only [Action.exec] at h
    rw [scriptUncovers_append (keeps_invalidateActions fun he => hload (he ▸ rfl))] at h
    exact Or.inr h
  | storeSettings | publish | enqueue => exact hquiet.elim
  | _ => exact Or.inr h

theorem checkGeneration_mem_exec {generation : ℕ} (hquiet : action.Quiet)
    (h : .checkGeneration generation ∈ (action.exec c answers rest).2) :
    .checkGeneration generation ∈ rest := by
  cases action with
  | checkAlive | checkTargetScene | checkGeneration =>
    simp only [Action.exec] at h
    split at h
    · exact h
    · cases h
  | loadSettings mode =>
    refine (List.mem_append.mp h).resolve_left ?_
    unfold displayActions
    split <;> simp [builtInActions]
  | switchToScene mode scene =>
    simp only [Action.exec, Controller.switchToScene] at h
    cases htarget : answers.target <;> simp only [htarget] at h <;> simpa [builtInActions] using h
  | selectCustom mode path =>
    simp only [Action.exec] at h
    split at h <;> simpa using h
  | loadLatestMode event =>
    refine (List.mem_append.mp h).resolve_left ?_
    cases event <;> simp [invalidateActions]
  | storeSettings | publish | enqueue => exact hquiet.elim
  | _ => exact h

end Action

namespace Threads

/-- Once a protected call has returned, the output is black, or the request of the call has
switched to the scene configured for its mode. -/
def Guarded (t : Threads) : Prop :=
  ∀ mode, t.tick = [] → t.decision = some mode → isProtectedMode mode = true →
    t.controller.overlayRequired = true ∨
      ∃ request, t.request = some request ∧
        (request, (t.controller.settings.event mode).scene) ∈ t.switched

/-- The last call is about a protected mode and has covered the output. -/
def InForce (t : Threads) : Prop :=
  t.decision.any isProtectedMode = true ∧ .setOverlayRequired true ∉ t.tick

/-- The tick thread has covered the output for a decision that it has not published. -/
def Covering (t : Threads) : Prop := t.InForce ∧ .publish t.decided ∈ t.tick

/-- The UI thread is between a comparison of generations, or a read of the latest mode, and a
store that uncovers the output. -/
def uncovering (t : Threads) : Bool := scriptUncovers t.controller.settings t.ui

/-- The next section of the UI thread lets it uncover the output. -/
def comparing (t : Threads) : Bool :=
  match t.ui with
  | .checkGeneration generation :: rest =>
    decide (generation = t.controller.generation) && scriptUncovers t.controller.settings rest
  | .loadLatestMode .sceneCollectionChanging :: _ => !isProtectedMode t.controller.latestMode
  | _ => false

/-- The tick thread does not cover the output while the UI thread is uncovering it, and the UI
thread does not start to uncover it before a covered decision is published. -/
def Apart (t : Threads) : Label → Prop
  | .tick => t.tick.head? = some (.setOverlayRequired true) → t.uncovering = false
  | .ui _ => t.comparing = true → ¬ t.Covering
  | _ => True

instance : DecidablePred InForce := fun _ => inferInstanceAs (Decidable (_ ∧ _))

instance : DecidablePred Covering := fun _ => inferInstanceAs (Decidable (_ ∧ _))

instance (t : Threads) : ∀ label, Decidable (t.Apart label)
  | .tick => inferInstanceAs (Decidable (_ → _))
  | .ui _ => inferInstanceAs (Decidable (_ → _))
  | .privacyModeChanged _ | .updateSettings _ | .frontendEvent _ | .apply _ => .isTrue trivial

/-- The request waits in the queue or belongs to the last task of the UI thread. -/
def Handed (t : Threads) (request : ApplyRequest) : Prop :=
  request ∈ t.controller.queue ∨ t.applying = some request

/-- The invariant of runs with fixed settings in which the windows do not overlap, after at most
`n` requests. -/
structure Steady (settings : DisplaySettings) (n : ℕ) (t : Threads) : Prop where
  alive : t.controller.alive = true
  fixed : t.controller.settings = settings
  tick : Announces t.decided t.tick
  quiet : ∀ action ∈ t.ui, action.Quiet
  fits : ∀ request, t.applying = some request →
    ∀ action ∈ t.ui, action.Fits settings request t.switched
  /-- A call in progress has not queued its request yet. -/
  asked : t.tick ≠ [] → t.request = none
  mode : ∀ request, t.request = some request → request.mode = t.decided
  count : t.controller.generation + t.tick.countP Action.requests ≤ n
  latest : t.decision = none ∨ .publish t.decided ∈ t.tick ∨ t.controller.latestMode = t.decided
  pending : ∀ request, .enqueue request ∈ t.tick →
    request.generation = t.controller.generation
  /-- Once a decision is published, only its own request is current. -/
  handed : ∀ request, t.Handed request → request.generation ≤ t.controller.generation ∧
    (t.decision ≠ none → request.generation = t.controller.generation →
      .publish t.decided ∉ t.tick → t.request = some request)
  compared : ∀ generation, .checkGeneration generation ∈ t.ui →
    ∃ request, t.applying = some request ∧ request.generation = generation
  /-- While a decision is in force, only its own request uncovers the output. -/
  own : t.InForce → t.uncovering = true → .publish t.decided ∉ t.tick ∧
    ∃ request, t.request = some request ∧ t.applying = some request
  covered : t.InForce → t.controller.overlayRequired = true ∨
    ∃ request, t.request = some request ∧ (request, (settings.event t.decided).scene) ∈ t.switched

variable {t t' : Threads} {settings : DisplaySettings} {n : ℕ}

theorem isProtectedMode_decided (h : t.decision.any isProtectedMode = true) :
    isProtectedMode t.decided = true := by
  unfold decided
  cases hdecision : t.decision with
  | none => simp [hdecision] at h
  | some mode => simpa [hdecision] using h

theorem steady_start {c : Controller} (halive : c.alive = true)
    (hqueue : ∀ request ∈ c.queue, request.generation ≤ c.generation) :
    Steady c.settings c.generation (start c) where
  alive := halive
  fixed := rfl
  tick := .done
  quiet := by simp [start]
  fits := by simp [start]
  asked h := absurd rfl h
  mode := by simp [start]
  count := le_rfl
  latest := Or.inl rfl
  pending := by simp [start]
  handed request hrequest :=
    ⟨hqueue request (hrequest.resolve_right (by simp [start])), fun h => absurd rfl h⟩
  compared := by simp [start]
  own h := by simp [InForce, start] at h
  covered h := by simp [InForce, start] at h

theorem Steady.guarded (h : Steady settings n t) : t.Guarded := by
  intro mode htick hdecision hp
  have hdecided : t.decided = mode := by simp [decided, hdecision]
  have hcovered := h.covered ⟨by simp [hdecision, hp], by simp [htick]⟩
  rwa [hdecided, ← h.fixed] at hcovered

theorem Steady.privacyModeChanged (h : Steady settings n t) (htick : t.tick = []) (mode : Mode) :
    Steady settings (n + 1)
      { t with tick := privacyModeActions mode, decision := some mode, request := none } where
  alive := h.alive
  fixed := h.fixed
  tick := announces_privacyModeActions mode
  quiet := h.quiet
  fits := h.fits
  asked _ := rfl
  mode := by simp
  count := by
    have hcount := h.count
    have hone : (privacyModeActions mode).countP Action.requests = 1 :=
      Action.requests_coverActions mode
    simp only [htick, List.countP_nil, hone] at hcount ⊢
    omega
  latest := Or.inr (Or.inl (by simp [privacyModeActions, decided]))
  pending request hmem := by
    rcases List.mem_cons.mp hmem with hfalse | hmem
    · cases hfalse
    · exact absurd hmem (Action.enqueue_notMem_coverActions mode request)
  handed request hrequest :=
    ⟨(h.handed request hrequest).1,
      fun _ _ hpublished => absurd (by simp [privacyModeActions, decided]) hpublished⟩
  compared := h.compared
  own hforce := by
    -- the call has not covered the output yet
    have hp : isProtectedMode mode = true := hforce.1
    exact absurd (by simp [privacyModeActions, coverActions, hp]) hforce.2
  covered hforce := by
    have hp : isProtectedMode mode = true := hforce.1
    exact absurd (by simp [privacyModeActions, coverActions, hp]) hforce.2

theorem Steady.tickCover (h : Steady settings n t) {action : Action} {rest : List Action}
    (htick : t.tick = action :: rest) (hcover : action.Covers) (hrest : Announces t.decided rest)
    (hapart : action = .setOverlayRequired true → t.uncovering = false) :
    Steady settings n
      { t with
        controller := (action.exec t.controller {} rest).1
        tick := (action.exec t.controller {} rest).2
        request := action.queued.or t.request } := by
  obtain ⟨hexec, hsame, hdarker⟩ := hcover.exec h.alive {} rest
  have hnone : t.request = none := h.asked (by simp [htick])
  rw [hexec, hcover.queued, Option.none_or]
  have hmem {other : Action} (hother : ¬ other.Covers) : other ∈ rest ↔ other ∈ t.tick := by
    rw [htick, hcover.mem_cons hother]
  -- the output has just been covered, or was so before
  have hforced : t.decision.any isProtectedMode = true ∧ .setOverlayRequired true ∉ rest →
      action = .setOverlayRequired true ∨ t.InForce := by
    rintro ⟨hp, hstored⟩
    by_cases haction : action = .setOverlayRequired true
    · exact Or.inl haction
    · exact Or.inr ⟨hp, by simp [htick, Ne.symm haction, hstored]⟩
  constructor
  case alive => exact hsame.alive.trans h.alive
  case fixed => exact hsame.settings.trans h.fixed
  case tick => exact hrest
  case quiet => exact h.quiet
  case fits => exact h.fits
  case asked => exact fun _ => hnone
  case mode => exact h.mode
  case count =>
    have hcount := h.count
    rw [htick, List.countP_cons, hcover.requests] at hcount
    simpa only [hsame.generation, Bool.false_eq_true, if_false, Nat.add_zero] using hcount
  case latest =>
    rw [hsame.latestMode]
    exact h.latest.imp_right (Or.imp_left (hmem id).mpr)
  case pending =>
    intro request hrequest
    rw [hsame.generation]
    exact h.pending request ((hmem id).mp hrequest)
  case handed =>
    intro request hrequest
    rw [Handed, hsame.queue] at hrequest
    rw [hsame.generation]
    obtain ⟨hle, hown⟩ := h.handed request hrequest
    exact ⟨hle, fun hdecision hcurrent hpublished =>
      hown hdecision hcurrent fun hp => hpublished ((hmem id).mpr hp)⟩
  case compared => exact h.compared
  case own =>
    intro hforce huncovering
    rw [uncovering, hsame.settings] at huncovering
    rcases hforced hforce with haction | hforce
    · cases (hapart haction).symm.trans huncovering
    · obtain ⟨hpublished, hown⟩ := h.own hforce huncovering
      exact ⟨fun hp => hpublished ((hmem id).mp hp), hown⟩
  case covered =>
    intro hforce
    rcases hforced hforce with rfl | hforce
    · exact Or.inl rfl
    · exact (h.covered hforce).imp_left hdarker.overlay

/-- The decision is published: every request that is handed out is stale. -/
theorem Steady.tickPublish (h : Steady settings n t) (hn : n < wordSize)
    (htick : t.tick = [.publish t.decided]) :
    Steady settings n
      { t with
        controller :=
          { t.controller with
            latestMode := t.decided
            generation := increment t.controller.generation }
        tick :=
          [.enqueue { mode := t.decided, generation := increment t.controller.generation }] } := by
  have hcount := h.count
  simp only [htick, List.countP_singleton, Action.requests, if_true] at hcount
  have hnext : increment t.controller.generation = t.controller.generation + 1 :=
    Nat.mod_eq_of_lt (by omega)
  constructor
  case alive => exact h.alive
  case fixed => exact h.fixed
  case tick => exact .enqueue rfl
  case quiet => exact h.quiet
  case fits => exact h.fits
  case asked => exact fun _ => h.asked (by simp [htick])
  case mode => exact h.mode
  case count =>
    simp only [hnext, List.countP_singleton, Action.requests, Bool.false_eq_true, if_false]
    exact hcount
  case latest => exact Or.inr (Or.inr rfl)
  case pending =>
    intro request hrequest
    obtain rfl := Action.enqueue.inj (List.mem_singleton.mp hrequest)
    rfl
  case handed =>
    intro request hrequest
    have hle := (h.handed request hrequest).1
    simp only [hnext]
    exact ⟨by omega, fun _ hcurrent => by omega⟩
  case compared => exact h.compared
  case own =>
    -- the UI thread was not uncovering before
    intro hforce huncovering
    exact absurd (by simp [htick]) (h.own ⟨hforce.1, by simp [htick]⟩ huncovering).1
  case covered => exact fun hforce => h.covered ⟨hforce.1, by simp [htick]⟩

theorem Steady.tickEnqueue (h : Steady settings n t) {request : ApplyRequest}
    (htick : t.tick = [.enqueue request]) (hmode : request.mode = t.decided) :
    Steady settings n
      { t with
        controller := { t.controller with queue := t.controller.queue ++ [request] }
        tick := []
        request := some request } := by
  have hnone : t.request = none := h.asked (by simp [htick])
  have hcurrent : request.generation = t.controller.generation :=
    h.pending request (by simp [htick])
  constructor
  case alive => exact h.alive
  case fixed => exact h.fixed
  case tick => exact .done
  case quiet => exact h.quiet
  case fits => exact h.fits
  case asked => exact fun hbusy => absurd rfl hbusy
  case mode => exact fun other hother => Option.some.inj hother ▸ hmode
  case count =>
    have hcount := h.count
    rw [htick] at hcount
    simpa [Action.requests] using hcount
  case latest => exact h.latest.imp_right (Or.imp_left fun hmem => absurd hmem (by simp [htick]))
  case pending => simp
  case handed =>
    intro other hother
    rcases hother with hmem | happlying
    · rcases List.mem_append.mp hmem with hmem | hmem
      · obtain ⟨hle, hown⟩ := h.handed other (Or.inl hmem)
        refine ⟨hle, fun hdecision heq _ => ?_⟩
        cases hnone.symm.trans (hown hdecision heq (by simp [htick]))
      · obtain rfl := List.mem_singleton.mp hmem
        exact ⟨hcurrent.le, fun _ _ _ => rfl⟩
    · obtain ⟨hle, hown⟩ := h.handed other (Or.inr happlying)
      refine ⟨hle, fun hdecision heq _ => ?_⟩
      cases hnone.symm.trans (hown hdecision heq (by simp [htick]))
  case compared => exact h.compared
  case own =>
    intro hforce huncovering
    obtain ⟨-, other, hother, -⟩ := h.own ⟨hforce.1, by simp [htick]⟩ huncovering
    cases hnone.symm.trans hother
  case covered =>
    intro hforce
    rcases h.covered ⟨hforce.1, by simp [htick]⟩ with hoverlay | ⟨other, hother, -⟩
    · exact Or.inl hoverlay
    · cases hnone.symm.trans hother

theorem Steady.tickStep (h : Steady settings n t) (hn : n < wordSize) (hapart : t.Apart .tick)
    (hs : t.step .tick = some t') : Steady settings n t' := by
  obtain ⟨action, rest, htick, rfl⟩ := step_tick hs
  have hannounces := h.tick
  rw [htick] at hannounces
  cases hannounces with
  | enqueue hmode => exact h.tickEnqueue htick hmode
  | publish => exact h.tickPublish hn htick
  | cover hcover hrest =>
    exact h.tickCover htick hcover hrest fun haction => hapart (by simp [htick, haction])

/-- Where the UI thread starts to uncover the output while a decision is in force, its task is
that of the decision. -/
theorem Steady.comparing (h : Steady settings n t) (hforce : t.InForce)
    (hapart : ¬ t.Covering) {generation : ℕ} (hmem : .checkGeneration generation ∈ t.ui)
    (hcurrent : generation = t.controller.generation) : .publish t.decided ∉ t.tick ∧
      ∃ request, t.request = some request ∧ t.applying = some request := by
  have hpublished : .publish t.decided ∉ t.tick := fun hp => hapart ⟨hforce, hp⟩
  obtain ⟨request, happlying, hgeneration⟩ := h.compared generation hmem
  have hdecision : t.decision ≠ none := fun hnone => by simp [InForce, hnone] at hforce
  have hlast : t.request = some request :=
    (h.handed request (Or.inr happlying)).2 hdecision (hgeneration.trans hcurrent) hpublished
  exact ⟨hpublished, request, hlast, happlying⟩

theorem Steady.latestMode (h : Steady settings n t) (hforce : t.InForce)
    (hapart : ¬ t.Covering) : isProtectedMode t.controller.latestMode = true := by
  have hdecided : isProtectedMode t.decided = true := isProtectedMode_decided hforce.1
  rcases h.latest with hnone | hpublish | hlatest
  · simp [InForce, hnone] at hforce
  · exact absurd ⟨hforce, hpublish⟩ hapart
  · rwa [hlatest]

theorem Steady.uiOwn (h : Steady settings n t) {answers : Answers} {action : Action}
    {rest : List Action} (hui : t.ui = action :: rest) (hapart : t.Apart (.ui answers))
    (hforce : t.InForce)
    (huncovers : scriptUncovers settings (action.exec t.controller answers rest).2 = true) :
    .publish t.decided ∉ t.tick ∧
      ∃ request, t.request = some request ∧ t.applying = some request := by
  by_cases hcheck : ∃ generation, action = .checkGeneration generation
  case pos =>
    obtain ⟨generation, rfl⟩ := hcheck
    simp only [Action.exec] at huncovers
    split at huncovers
    case isFalse => cases huncovers
    case isTrue hcurrent =>
      have hcomparing : t.comparing = true := by
        simp only [Threads.comparing, hui, hcurrent, h.fixed, huncovers, decide_true,
          Bool.and_self]
      exact h.comparing hforce (hapart hcomparing) (by simp [hui]) hcurrent
  case neg =>
    apply h.own hforce
    rw [uncovering, hui, h.fixed]
    have haction : action.Quiet := h.quiet action (by simp [hui])
    refine Action.scriptUncovers_exec haction (fun generation he => hcheck ⟨generation, he⟩) ?_
      h.fixed huncovers
    rintro rfl
    by_contra hopen
    have hcomparing : t.comparing = true := by
      simp only [Threads.comparing, hui]
      simpa using hopen
    exact hopen (h.latestMode hforce (hapart hcomparing))

theorem Steady.uiStep (h : Steady settings n t) {answers : Answers} (hapart : t.Apart (.ui answers))
    (hs : t.step (.ui answers) = some t') : Steady settings n t' := by
  obtain ⟨action, rest, hui, rfl⟩ := step_ui hs
  have hquiet := h.quiet
  rw [hui, List.forall_mem_cons] at hquiet
  obtain ⟨hsame, hquiet'⟩ := hquiet.1.exec hquiet.2 t.controller answers
  constructor
  case alive => exact hsame.alive.trans h.alive
  case fixed => exact hsame.settings.trans h.fixed
  case tick => exact h.tick
  case quiet => exact hquiet'
  case fits =>
    intro request happlying
    simp only at happlying
    rw [happlying]
    exact Action.Fits.exec (hui ▸ h.fits request happlying) h.fixed
  case asked => exact h.asked
  case mode => exact h.mode
  case count =>
    rw [hsame.generation]
    exact h.count
  case latest =>
    rw [hsame.latestMode]
    exact h.latest
  case pending =>
    rw [hsame.generation]
    exact h.pending
  case handed =>
    intro request hrequest
    rw [Handed, hsame.queue] at hrequest
    rw [hsame.generation]
    exact h.handed request hrequest
  case compared =>
    intro generation hmem
    refine h.compared generation ?_
    rw [hui]
    exact List.mem_cons_of_mem _ (Action.checkGeneration_mem_exec hquiet.1 hmem)
  case own =>
    intro hforce huncovering
    rw [uncovering, hsame.settings, h.fixed] at huncovering
    exact h.uiOwn hui hapart hforce huncovering
  case covered =>
    intro hforce
    by_cases haction : action = .setOverlayRequired false
    · have huncovering : t.uncovering = true := by
        rw [uncovering, hui, haction]
        rfl
      obtain ⟨-, request, hrequest, happlying⟩ := h.own hforce huncovering
      have hmode := h.mode request hrequest
      have hp : isProtectedMode request.mode = true := by
        rw [hmode]
        exact isProtectedMode_decided hforce.1
      have hfits : action.Fits settings request t.switched :=
        h.fits request happlying action (by simp [hui])
      rw [haction] at hfits
      have hreached := hfits hp
      rw [hmode] at hreached
      exact Or.inr ⟨request, hrequest, List.mem_append_right _ hreached⟩
    · rcases h.covered hforce with hoverlay | ⟨request, hrequest, hreached⟩
      · exact Or.inl (Action.exec_overlayRequired haction hoverlay)
      · exact Or.inr ⟨request, hrequest, List.mem_append_right _ hreached⟩

theorem Steady.apply (h : Steady settings n t) {i : ℕ} {request : ApplyRequest}
    (hi : t.controller.queue[i]? = some request) :
    Steady settings n
      { t with
        controller := t.controller.dequeue i
        ui := applyActions request
        applying := some request } where
  alive := h.alive
  fixed := h.fixed
  tick := h.tick
  quiet := Action.quiet_applyActions request
  fits other hother := by
    obtain rfl := Option.some.inj hother
    exact Action.fits_applyActions settings request t.switched
  asked := h.asked
  mode := h.mode
  count := h.count
  latest := h.latest
  pending := h.pending
  handed other hother := by
    refine h.handed other (Or.inl ?_)
    rcases hother with hmem | happlying
    · exact List.mem_of_mem_eraseIdx hmem
    · obtain rfl := Option.some.inj happlying
      exact List.mem_of_getElem? hi
  compared generation hmem := by
    refine ⟨request, rfl, ?_⟩
    unfold applyActions at hmem
    split at hmem <;> simpa [eq_comm] using hmem
  own _ huncovering := by
    simp [uncovering, applyActions, scriptUncovers, Action.uncovers] at huncovering
  covered := h.covered

theorem Steady.frontendEvent (h : Steady settings n t) (event : FrontendEvent) :
    Steady settings n { t with ui := frontendEventActions event, applying := none } where
  alive := h.alive
  fixed := h.fixed
  tick := h.tick
  quiet := Action.quiet_frontendEventActions event
  fits := by simp
  asked := h.asked
  mode := h.mode
  count := h.count
  latest := h.latest
  pending := h.pending
  handed other hother := h.handed other (hother.imp_right (by simp))
  compared := by cases event <;> simp [frontendEventActions]
  own _ huncovering := by cases event <;> cases huncovering
  covered := h.covered

theorem Steady.step (h : Steady settings n t) {label : Label}
    (hfixed : ∀ settings, label ≠ .updateSettings settings) (hapart : t.Apart label)
    (hn : n + label.requests < wordSize) (hs : t.step label = some t') :
    Steady settings (n + label.requests) t' := by
  cases label with
  | privacyModeChanged mode =>
    obtain ⟨htick, rfl⟩ := step_privacyModeChanged hs
    exact h.privacyModeChanged htick mode
  | tick => exact h.tickStep hn hapart hs
  | updateSettings settings => exact absurd rfl (hfixed settings)
  | frontendEvent event =>
    obtain ⟨-, rfl⟩ := begin_eq_some.mp hs
    exact h.frontendEvent event
  | apply i =>
    obtain ⟨request, hi, -, rfl⟩ := step_apply hs
    exact h.apply hi
  | ui answers => exact h.uiStep hapart hs

/-- Where the two threads keep apart, every protected decision stays covered. -/
theorem guarded_of_run {c : Controller} {labels : List Label} (halive : c.alive = true)
    (hqueue : ∀ request ∈ c.queue, request.generation ≤ c.generation)
    (hn : c.generation + (labels.map Label.requests).sum < wordSize)
    (hfixed : ∀ settings, Label.updateSettings settings ∉ labels)
    (hapart : Transition.Along Threads.step Apart (start c) labels)
    (hrun : Transition.run Threads.step (start c) labels = some t) : t.Guarded := by
  have hlabels : ∀ label ∈ labels, ∀ settings, label ≠ .updateSettings settings :=
    fun label hmem settings heq => hfixed settings (heq ▸ hmem)
  have hsteady : Steady c.settings (c.generation + (labels.map Label.requests).sum) t :=
    Transition.run_weighted_along (fun n t label t' h hP hn hs => h.step hP.2 hP.1 hn hs)
      (steady_start halive hqueue) (hapart.and (Transition.Along.of_forall hlabels)) hn hrun
  exact hsteady.guarded

def switching : List Label :=
  .privacyModeChanged .sensitive ::
    (List.replicate 6 .tick ++ .apply 0 :: List.replicate 9 (.ui {}))

def accepting : Controller where
  settings :=
    { sensitive := { mode := .customScene, scene := ascii "Break" }
      customSceneRiskAccepted := true }
  watermarkAvailable := true

theorem guarded_switching :
    ((Transition.run Threads.step (start accepting) switching).get (by decide +kernel)).Guarded :=
  guarded_of_run rfl (by simp [accepting]) (by decide +kernel) (by simp [switching])
    (by decide +kernel) (Option.some_get _).symm

/-- After the call has returned, a store by any other call than its own task uncovers it. -/
theorem not_guarded_of_store (htick : t.tick = []) {mode : Mode}
    (hdecision : t.decision = some mode) (hp : isProtectedMode mode = true)
    (hui : t.ui.head? = some (.setOverlayRequired false))
    {answers : Answers} (hs : t.step (.ui answers) = some t')
    (hown : ∀ request, t.request = some request →
      (request, (t.controller.settings.event mode).scene) ∉ t.switched) : ¬ t'.Guarded := by
  obtain ⟨action, rest, hscript, rfl⟩ := step_ui hs
  obtain rfl : action = .setOverlayRequired false := by simpa [hscript] using hui
  intro hguarded
  rcases hguarded mode htick hdecision hp with hoverlay | ⟨request, hrequest, hreached⟩
  · cases hoverlay
  · refine hown request hrequest ?_
    simpa [Action.reached, Action.exec] using hreached

/-- A task for a safe mode compares its generation, then a sensitive file is decided, and then
the task clears the overlay. -/
def overtakenApply : List Label :=
  .privacyModeChanged .safe :: (List.replicate 3 .tick ++ .apply 0 :: List.replicate 2 (.ui {})) ++
    .privacyModeChanged .sensitive :: (List.replicate 6 .tick ++ List.replicate 2 (.ui {}))

/-- A stale task can uncover a newer protected decision. -/
theorem exists_run_not_guarded :
    ¬ ∀ (c : Controller) (labels : List Label) (t : Threads), c.alive = true →
      (∀ request ∈ c.queue, request.generation ≤ c.generation) →
        c.generation + (labels.map Label.requests).sum < wordSize →
          (∀ settings, Label.updateSettings settings ∉ labels) →
            Transition.run Threads.step (start c) labels = some t → t.Guarded := by
  intro h
  obtain ⟨t, hrun, htick, hdecision, hoverlay, hswitched⟩ :
      ∃ t,
        Transition.run Threads.step (start { watermarkAvailable := true }) overtakenApply = some t ∧
        t.tick = [] ∧ t.decision = some .sensitive ∧ t.controller.overlayRequired = false ∧
          t.switched = [] :=
    ⟨_, (Option.some_get (by decide +kernel)).symm, by decide +kernel⟩
  have hguarded := h _ overtakenApply t rfl (by simp) (by decide) (by simp [overtakenApply]) hrun
    .sensitive htick hdecision rfl
  simp [hoverlay, hswitched] at hguarded

end Threads

end PrivacyGuard
