import PrivacyGuard.Display.Decisions
import PrivacyGuard.Display.Release

/-! # The two threads settle

The races of the two threads pass. Whatever they have done, once no call is in progress and
no current request is left on the queue, the output is what the latest mode asks for: a
protected mode is covered, and nothing is drawn over an open one.
-/

namespace PrivacyGuard

/-- The output is what the latest mode asks for. -/
structure Controller.Matches (c : Controller) : Prop where
  covered : isProtectedMode c.latestMode = true → c.Covers c.latestMode
  opened : isProtectedMode c.latestMode = false → c.Open

namespace Controller

variable {c : Controller} {answers : Answers} {request : ApplyRequest}

theorem Matches.queue (h : c.Matches) (queue : List ApplyRequest) :
    Matches { c with queue } where
  covered := h.covered
  opened hopen :=
    have hreleased := h.opened hopen
    ⟨hreleased.overlay, hreleased.watermark, hreleased.scene, hreleased.target⟩

theorem matches_applyOnUiThread (halive : c.alive = true)
    (hcurrent : request.generation = c.generation) (hmode : request.mode = c.latestMode) :
    (c.applyOnUiThread request answers).Matches := by
  have happlied : Applied c request.mode answers (c.applyOnUiThread request answers) :=
    applyOnUiThread_of_current halive hcurrent
  have hlatest : (c.applyOnUiThread request answers).latestMode = request.mode :=
    happlied.same.latestMode.trans hmode.symm
  constructor
  case covered =>
    rw [hlatest]
    exact happlied.covers
  case opened =>
    rw [hlatest]
    intro hopen
    obtain ⟨switches, hr⟩ := restorePreviousScene_eq
      { c with watermarkRequired := false, overlayRequired := false } answers.previous
    unfold applyOnUiThread
    rw [if_neg (by simp [halive]), if_neg (by simp [hcurrent]), if_pos (by simp [hopen]), hr]
    exact ⟨rfl, rfl, rfl, rfl⟩

theorem matches_sceneCollectionChanging : c.sceneCollectionChanging.Matches where
  covered hprotected := .inl hprotected
  opened hopen := ⟨hopen, rfl, rfl, rfl⟩

theorem Matches.sceneListChanged (h : c.Matches) : (c.sceneListChanged answers).Matches := by
  unfold Controller.sceneListChanged
  split
  case isFalse => exact h
  case isTrue hgone =>
    simp only
    obtain ⟨switches, hr⟩ := restorePreviousScene_eq
      (selectDefault { c with watermarkRequired := false, overlayRequired := true }
        c.latestMode answers.bundled) answers.previous
    rw [hr]
    constructor
    case covered => exact fun _ => .inl rfl
    case opened =>
      intro hopen
      simp [(h.opened hopen).target] at hgone

end Controller

namespace Action

variable {action : Action} {answers : Answers} {rest : List Action}

theorem Quiet.exec_queue (h : action.Quiet) (c : Controller) (queue : List ApplyRequest) :
    action.exec { c with queue } answers rest =
      ({ (action.exec c answers rest).1 with queue }, (action.exec c answers rest).2) := by
  cases action with
  | storeSettings | publish | enqueue => exact h.elim
  | switchToScene mode scene =>
    simp only [Action.exec, Controller.switchToScene]
    cases answers.target <;> rfl
  | rememberScene previousScene =>
    simp only [Action.exec]
    split <;> rfl
  | restorePreviousScene =>
    simp only [Action.exec, Controller.restorePreviousScene, Controller.switchToScene]
    split
    · split <;> rfl
    · rfl
  | selectCustom mode path =>
    simp only [Action.exec]
    split <;> rfl
  | _ => rfl

/-- The steps left of a call that announces a mode: it covers before it publishes. -/
inductive Announcing : List Action → Prop
  | done : Announcing []
  | enqueue (request : ApplyRequest) : Announcing [.enqueue request]
  | publish (mode : Mode) : Announcing [.publish mode]
  | cover {action : Action} {rest : List Action} : action.Covers →
      0 < rest.countP Action.requests → Announcing rest → Announcing (action :: rest)

theorem announcing_coverActions (mode : Mode) :
    Announcing (coverActions mode ++ [.publish mode]) := by
  unfold coverActions
  split
  · exact .cover trivial Nat.one_pos (.cover trivial Nat.one_pos
      (.cover trivial Nat.one_pos (.publish mode)))
  · exact .publish mode

theorem announcing_privacyModeActions (mode : Mode) : Announcing (privacyModeActions mode) :=
  .cover trivial (by rw [requests_coverActions]; exact Nat.one_pos) (announcing_coverActions mode)

end Action

namespace Threads

open PrivacyGuard.Action (Announcing)

variable {n : ℕ} {t t' : Threads}

/-- What the UI thread shows at the end of its call, if it is not disturbed. -/
def Heading (c : Controller) (ui : List Action) : Prop :=
  ∀ queue c', Completes { c with queue } ui c' → c'.Matches

theorem Heading.queue {c : Controller} {ui : List Action} (h : Heading c ui)
    (queue : List ApplyRequest) : Heading { c with queue } ui := h

theorem heading_nil {c : Controller} : Heading c [] ↔ c.Matches := by
  constructor
  · intro h
    exact h c.queue c (.done c)
  · intro h queue c' hc'
    obtain rfl := Completes.nil_iff.mp hc'
    exact h.queue queue

/-- A request of the current generation is in flight, one will be made, or the output will be
what the latest mode asks for. -/
def Settling (t : Threads) : Prop :=
  (∃ request, t.InFlight request ∧ request.generation = t.controller.generation) ∨
    0 < t.owed ∨ Heading t.controller t.ui

def Formed (ui : List Action) : Prop :=
  Announcing ui ∨ (∃ settings, ui = [.storeSettings settings]) ∨ ∀ action ∈ ui, action.Quiet

structure Ordered (n : ℕ) (t : Threads) : Prop where
  alive : t.controller.alive = true
  tick : Announcing t.tick
  ui : Formed t.ui
  count : t.controller.generation + t.owed ≤ n
  inFlight : ∀ request, t.InFlight request → request.generation ≤ t.controller.generation ∧
    (request.generation = t.controller.generation → request.mode = t.controller.latestMode)
  settling : t.Settling

theorem ordered_start (settings : DisplaySettings) (watermarkAvailable : Bool) :
    Ordered 0 (start { settings, watermarkAvailable }) where
  alive := rfl
  tick := .done
  ui := .inl .done
  count := le_rfl
  inFlight := by simp [InFlight, start]
  settling := .inr (.inr (heading_nil.mpr ⟨fun _ => .inl rfl, by simp [start, isProtectedMode]⟩))

theorem Ordered.of_same (h : Ordered n t) (halive : t'.controller.alive = t.controller.alive)
    (hgeneration : t'.controller.generation = t.controller.generation)
    (hlatest : t'.controller.latestMode = t.controller.latestMode)
    (hflight : ∀ request, t'.InFlight request → t.InFlight request)
    (htick : Announcing t'.tick) (hui : Formed t'.ui) (hcount : t'.owed ≤ t.owed)
    (hsettling : t'.Settling) : Ordered n t' where
  alive := halive.trans h.alive
  tick := htick
  ui := hui
  count := by
    have := h.count
    omega
  inFlight request hrequest := by
    rw [hgeneration, hlatest]
    exact h.inFlight request (hflight request hrequest)
  settling := hsettling

theorem Ordered.of_publish (h : Ordered n t) (hn : n < wordSize) (request : ApplyRequest)
    (hrequest : request.generation = increment t.controller.generation)
    (hcontroller : t'.controller =
      { t.controller with latestMode := request.mode, generation := request.generation })
    (htick : Announcing t'.tick) (hui : Formed t'.ui) (hcount : t'.owed + 1 ≤ t.owed)
    (hflight : ∀ other, t'.InFlight other ↔ t.InFlight other ∨ other = request) :
    Ordered n t' := by
  have hbound := h.count
  have hnext : request.generation = t.controller.generation + 1 :=
    hrequest.trans (Nat.mod_eq_of_lt (by omega))
  constructor
  case alive => rw [hcontroller]; exact h.alive
  case tick => exact htick
  case ui => exact hui
  case count =>
    rw [hcontroller]
    change request.generation + _ ≤ n
    omega
  case inFlight =>
    intro other hother
    rw [hcontroller]
    rcases (hflight other).mp hother with hold | rfl
    · have hle := (h.inFlight other hold).1
      exact ⟨by simp only; omega, fun heq => by simp only at heq; omega⟩
    · exact ⟨le_rfl, fun _ => rfl⟩
  case settling =>
    rw [Settling, hcontroller]
    exact .inl ⟨request, (hflight request).mpr (.inr rfl), rfl⟩

/-! ### Steps of the tick thread -/

theorem Ordered.privacyModeChanged (h : Ordered n t) (htick : t.tick = []) (mode : Mode) :
    Ordered (n + 1)
      { t with tick := privacyModeActions mode, decision := some mode, request := none } := by
  have hone : (privacyModeActions mode).countP Action.requests = 1 :=
    Action.requests_coverActions mode
  constructor
  case alive => exact h.alive
  case tick => exact Action.announcing_privacyModeActions mode
  case ui => exact h.ui
  case count =>
    have hcount := h.count
    simp only [owed, htick, List.countP_nil, hone] at hcount ⊢
    omega
  case inFlight =>
    intro request hflight
    refine h.inFlight request (hflight.imp id (Or.imp (fun hmem => ?_) id))
    rcases List.mem_cons.mp hmem with hfalse | hmem
    · cases hfalse
    · exact absurd hmem (Action.enqueue_notMem_coverActions mode request)
  case settling =>
    refine .inr (.inl ?_)
    simp only [owed, hone]
    omega

/-- A thread covers the output only before it publishes. -/
theorem Ordered.tickCover (h : Ordered n t) {action : Action} {rest : List Action}
    (htick : t.tick = action :: rest) (hcover : action.Covers)
    (hpos : 0 < rest.countP Action.requests) (hrest : Announcing rest) :
    Ordered n
      { t with
        controller := (action.exec t.controller {} rest).1
        tick := (action.exec t.controller {} rest).2
        request := action.queued.or t.request } := by
  obtain ⟨hexec, hsame, -⟩ := hcover.exec h.alive {} rest
  rw [hexec]
  have hmem (request : ApplyRequest) : .enqueue request ∈ rest ↔ .enqueue request ∈ t.tick := by
    rw [htick, hcover.mem_cons id]
  apply h.of_same hsame.alive hsame.generation hsame.latestMode
  case hflight =>
    intro request hrequest
    simpa only [InFlight, hsame.queue, hmem] using hrequest
  case htick => exact hrest
  case hui => exact h.ui
  case hcount =>
    simp only [owed, htick, List.countP_cons]
    omega
  case hsettling =>
    refine .inr (.inl ?_)
    simp only [owed]
    omega

theorem Ordered.tickPublish (h : Ordered n t) (hn : n < wordSize) {mode : Mode}
    (htick : t.tick = [.publish mode]) :
    Ordered n
      { t with
        controller :=
          { t.controller with latestMode := mode, generation := increment t.controller.generation }
        tick := [.enqueue { mode, generation := increment t.controller.generation }] } := by
  apply h.of_publish hn { mode, generation := increment t.controller.generation }
  case hrequest => rfl
  case hcontroller => rfl
  case htick => exact .enqueue _
  case hui => exact h.ui
  case hcount => simp [owed, htick, Action.requests]
  case hflight =>
    intro other
    simp only [InFlight, htick, List.mem_singleton, Action.enqueue.injEq, reduceCtorEq]
    tauto

theorem Ordered.tickEnqueue (h : Ordered n t) {request : ApplyRequest}
    (htick : t.tick = [.enqueue request]) :
    Ordered n
      { t with
        controller := { t.controller with queue := t.controller.queue ++ [request] }
        tick := []
        request := some request } := by
  have hflight (other : ApplyRequest) : (other ∈ t.controller.queue ++ [request] ∨
      Action.enqueue other ∈ [] ∨ .enqueue other ∈ t.ui) ↔ t.InFlight other := by
    simp only [InFlight, htick, List.mem_append, List.mem_singleton, List.not_mem_nil, false_or,
      Action.enqueue.injEq, or_assoc]
  have howed : ([] : List Action).countP Action.requests + t.ui.countP Action.requests =
      t.owed := by
    simp [owed, htick, Action.requests]
  apply h.of_same
  case halive | hgeneration | hlatest => rfl
  case hflight => exact fun other => (hflight other).mp
  case htick => exact .done
  case hui => exact h.ui
  case hcount => exact howed.le
  case hsettling =>
    rcases h.settling with ⟨other, hother, hcurrent⟩ | hpos | hheading
    · exact .inl ⟨other, (hflight other).mpr hother, hcurrent⟩
    · exact .inr (.inl (hpos.trans_eq howed.symm))
    · exact .inr (.inr (hheading.queue _))

theorem Ordered.tickStep (h : Ordered n t) (hn : n < wordSize) (hs : t.step .tick = some t') :
    Ordered n t' := by
  obtain ⟨action, rest, htick, rfl⟩ := step_tick hs
  have hannouncing := h.tick
  rw [htick] at hannouncing
  cases hannouncing with
  | enqueue request => exact h.tickEnqueue htick
  | publish mode => exact h.tickPublish hn htick
  | cover hcover hpos hrest => exact h.tickCover htick hcover hpos hrest

/-! ### Steps of the UI thread -/

theorem Ordered.uiCover (h : Ordered n t) {action : Action} {rest : List Action}
    {answers : Answers} {switched : List (ApplyRequest × Bytes)} (hui : t.ui = action :: rest)
    (hcover : action.Covers) (hpos : 0 < rest.countP Action.requests) (hrest : Announcing rest) :
    Ordered n
      { t with
        controller := (action.exec t.controller answers rest).1
        ui := (action.exec t.controller answers rest).2
        switched } := by
  obtain ⟨hexec, hsame, -⟩ := hcover.exec h.alive answers rest
  rw [hexec]
  have hmem (request : ApplyRequest) : .enqueue request ∈ rest ↔ .enqueue request ∈ t.ui := by
    rw [hui, hcover.mem_cons id]
  apply h.of_same hsame.alive hsame.generation hsame.latestMode
  case hflight =>
    intro request hrequest
    simpa only [InFlight, hsame.queue, hmem] using hrequest
  case htick => exact h.tick
  case hui => exact .inl hrest
  case hcount =>
    simp only [owed, hui, List.countP_cons]
    omega
  case hsettling =>
    refine .inr (.inl ?_)
    simp only [owed]
    omega

theorem Ordered.uiPublish (h : Ordered n t) (hn : n < wordSize) {mode : Mode}
    {switched : List (ApplyRequest × Bytes)} (hui : t.ui = [.publish mode]) :
    Ordered n
      { t with
        controller :=
          { t.controller with latestMode := mode, generation := increment t.controller.generation }
        ui := [.enqueue { mode, generation := increment t.controller.generation }]
        switched } := by
  apply h.of_publish hn { mode, generation := increment t.controller.generation }
  case hrequest => rfl
  case hcontroller => rfl
  case htick => exact h.tick
  case hui => exact .inl (.enqueue _)
  case hcount => simp [owed, hui, Action.requests]
  case hflight =>
    intro other
    simp only [InFlight, hui, List.mem_singleton, Action.enqueue.injEq, reduceCtorEq]
    tauto

theorem Ordered.uiEnqueue (h : Ordered n t) {request : ApplyRequest}
    {switched : List (ApplyRequest × Bytes)} (hui : t.ui = [.enqueue request]) :
    Ordered n
      { t with
        controller := { t.controller with queue := t.controller.queue ++ [request] }
        ui := []
        switched } := by
  have hflight (other : ApplyRequest) : (other ∈ t.controller.queue ++ [request] ∨
      Action.enqueue other ∈ t.tick ∨ Action.enqueue other ∈ []) ↔ t.InFlight other := by
    simp only [InFlight, hui, List.mem_append, List.mem_singleton, List.not_mem_nil, or_false,
      Action.enqueue.injEq]
    tauto
  have howed : t.tick.countP Action.requests + ([] : List Action).countP Action.requests =
      t.owed := by
    simp [owed, hui, Action.requests]
  apply h.of_same
  case halive | hgeneration | hlatest => rfl
  case hflight => exact fun other => (hflight other).mp
  case htick => exact h.tick
  case hui => exact .inl .done
  case hcount => exact howed.le
  case hsettling =>
    rcases h.settling with ⟨other, hother, hcurrent⟩ | hpos | hheading
    · exact .inl ⟨other, (hflight other).mpr hother, hcurrent⟩
    · exact .inr (.inl (hpos.trans_eq howed.symm))
    · refine .inr (.inr (heading_nil.mpr ?_))
      have hmatches : Controller.Matches
          { t.controller with queue := t.controller.queue ++ [request] } := by
        refine hheading t.controller.queue _ ?_
        rw [hui]
        exact .step {} (.done _)
      exact hmatches

theorem Ordered.uiQuiet (h : Ordered n t) {action : Action} {rest : List Action}
    {answers : Answers} {switched : List (ApplyRequest × Bytes)} (hui : t.ui = action :: rest)
    (hquiet : ∀ other ∈ t.ui, other.Quiet) :
    Ordered n
      { t with
        controller := (action.exec t.controller answers rest).1
        ui := (action.exec t.controller answers rest).2
        switched } := by
  obtain ⟨haction, hrest⟩ := List.forall_mem_cons.mp (hui ▸ hquiet)
  obtain ⟨hsame, hleft⟩ := haction.exec hrest t.controller answers
  have hnone : t.ui.countP Action.requests = 0 := Action.requests_of_quiet hquiet
  have hnone' : (action.exec t.controller answers rest).2.countP Action.requests = 0 :=
    Action.requests_of_quiet hleft
  have hflight (request : ApplyRequest) :
      .enqueue request ∈ (action.exec t.controller answers rest).2 ↔ .enqueue request ∈ t.ui :=
    iff_of_false (Action.enqueue_notMem_of_quiet hleft request)
      (Action.enqueue_notMem_of_quiet hquiet request)
  apply h.of_same hsame.alive hsame.generation hsame.latestMode
  case hflight =>
    intro request hrequest
    simpa only [InFlight, hsame.queue, hflight] using hrequest
  case htick => exact h.tick
  case hui => exact .inr (.inr hleft)
  case hcount => simp [owed, hnone, hnone']
  case hsettling =>
    rcases h.settling with ⟨other, hother, hcurrent⟩ | hpos | hheading
    · refine .inl ⟨other, ?_, hcurrent.trans hsame.generation.symm⟩
      simpa only [InFlight, hsame.queue, hflight] using hother
    · exact .inr (.inl (by simpa [owed, hnone, hnone'] using hpos))
    · refine .inr (.inr fun queue c' hc' => hheading queue c' ?_)
      rw [hui]
      refine .step answers ?_
      rw [haction.exec_queue]
      exact hc'

theorem Ordered.uiStep (h : Ordered n t) (hn : n < wordSize) {answers : Answers}
    (hs : t.step (.ui answers) = some t') : Ordered n t' := by
  obtain ⟨action, rest, hui, rfl⟩ := step_ui hs
  rcases h.ui with hannouncing | ⟨settings, hstore⟩ | hquiet
  · rw [hui] at hannouncing
    cases hannouncing with
    | enqueue request => exact h.uiEnqueue hui
    | publish mode => exact h.uiPublish hn hui
    | cover hcover hpos hrest => exact h.uiCover hui hcover hpos hrest
  · obtain ⟨rfl, rfl⟩ := List.cons.inj (hui.symm.trans hstore)
    have hone := Action.requests_coverActions t.controller.latestMode
    simp only [Action.exec, List.append_nil]
    apply h.of_same
    case halive | hgeneration | hlatest => rfl
    case hflight =>
      intro request hrequest
      refine hrequest.imp id (Or.imp id fun hmem => ?_)
      exact absurd hmem (Action.enqueue_notMem_coverActions _ request)
    case htick => exact h.tick
    case hui => exact .inl (Action.announcing_coverActions _)
    case hcount => simp [owed, hone, hui, Action.requests]
    case hsettling =>
      refine .inr (.inl ?_)
      simp only [owed, hone]
      omega
  · exact h.uiQuiet hui hquiet

/-! ### Calls of the UI thread -/

theorem Ordered.begin (h : Ordered n t) (hui : t.ui = []) {c : Controller} {script : List Action}
    {applying : Option ApplyRequest} (halive : c.alive = t.controller.alive)
    (hgeneration : c.generation = t.controller.generation)
    (hlatest : c.latestMode = t.controller.latestMode)
    (hqueue : ∀ request ∈ c.queue, request ∈ t.controller.queue)
    (hquiet : ∀ action ∈ script, action.Quiet)
    (hsettling : (∃ request, (request ∈ c.queue ∨ .enqueue request ∈ t.tick) ∧
        request.generation = t.controller.generation) ∨ 0 < t.owed ∨ Heading c script) :
    Ordered n { t with controller := c, ui := script, applying } := by
  have howed : t.tick.countP Action.requests + script.countP Action.requests = t.owed := by
    simp [owed, hui, Action.requests_of_quiet hquiet]
  apply h.of_same halive hgeneration hlatest
  case hflight =>
    rintro request (hmem | hmem | hmem)
    · exact .inl (hqueue request hmem)
    · exact .inr (.inl hmem)
    · exact absurd hmem (Action.enqueue_notMem_of_quiet hquiet request)
  case htick => exact h.tick
  case hui => exact .inr (.inr hquiet)
  case hcount => exact howed.le
  case hsettling =>
    rcases hsettling with ⟨request, hrequest, hcurrent⟩ | hpos | hheading
    · exact .inl ⟨request, hrequest.imp id .inl, hcurrent.trans hgeneration.symm⟩
    · exact .inr (.inl (hpos.trans_eq howed.symm))
    · exact .inr (.inr hheading)

theorem Ordered.settling_nil (h : Ordered n t) (hui : t.ui = []) :
    (∃ request, (request ∈ t.controller.queue ∨ .enqueue request ∈ t.tick) ∧
        request.generation = t.controller.generation) ∨
      0 < t.owed ∨ t.controller.Matches := by
  rcases h.settling with ⟨request, hflight | hflight | hflight, hcurrent⟩ | hpos | hheading
  · exact .inl ⟨request, .inl hflight, hcurrent⟩
  · exact .inl ⟨request, .inr hflight, hcurrent⟩
  · simp [hui] at hflight
  · exact .inr (.inl hpos)
  · exact .inr (.inr (heading_nil.mp (hui ▸ hheading)))

theorem Ordered.updateSettings (h : Ordered n t) (hui : t.ui = []) (settings : DisplaySettings) :
    Ordered (n + 1) { t with ui := [.storeSettings settings], applying := none } where
  alive := h.alive
  tick := h.tick
  ui := .inr (.inl ⟨settings, rfl⟩)
  count := by
    have hcount := h.count
    simp only [owed, hui, List.countP_nil, List.countP_singleton, Action.requests,
      if_true] at hcount ⊢
    omega
  inFlight request hflight := h.inFlight request (hflight.imp id (Or.imp id (by simp)))
  settling := .inr (.inl (by simp [owed, Action.requests]))

theorem Ordered.frontendEvent (h : Ordered n t) (hui : t.ui = []) (event : FrontendEvent) :
    Ordered n { t with ui := frontendEventActions event, applying := none } := by
  refine h.begin hui rfl rfl rfl (fun _ => id) (Action.quiet_frontendEventActions event) ?_
  refine (h.settling_nil hui).imp id (Or.imp id fun hmatches queue c' hc' => ?_)
  cases event with
  | sceneCollectionChanging =>
    rw [hc'.sceneCollectionChanging]
    exact Controller.matches_sceneCollectionChanging
  | sceneListChanged =>
    obtain ⟨answers, rfl⟩ := hc'.sceneListChanged
    exact (hmatches.queue queue).sceneListChanged

theorem Ordered.apply (h : Ordered n t) (hui : t.ui = []) {i : ℕ} {request : ApplyRequest}
    (hi : t.controller.queue[i]? = some request) :
    Ordered n
      { t with
        controller := t.controller.dequeue i
        ui := applyActions request
        applying := some request } := by
  refine h.begin hui rfl rfl rfl (fun other hmem => List.mem_of_mem_eraseIdx hmem)
    (Action.quiet_applyActions request) ?_
  by_cases hcurrent : request.generation = t.controller.generation
  case pos =>
    -- the task is the one that matters
    refine .inr (.inr fun queue c' hc' => ?_)
    obtain ⟨answers, rfl⟩ := hc'.applyOnUiThread
    exact Controller.matches_applyOnUiThread h.alive hcurrent
      ((h.inFlight request (.inl (List.mem_of_getElem? hi))).2 hcurrent)
  case neg =>
    -- the task is stale and changes nothing
    rcases h.settling_nil hui with ⟨other, hflight, hother⟩ | hpos | hmatches
    · refine .inl ⟨other, hflight.imp (fun hmem => ?_) id, hother⟩
      obtain ⟨k, hk⟩ := List.mem_iff_getElem?.mp hmem
      have hne : k ≠ i := by
        rintro rfl
        obtain rfl := Option.some.inj (hi.symm.trans hk)
        exact hcurrent hother
      exact List.mem_eraseIdx_iff_getElem?.mpr ⟨k, hne, hk⟩
    · exact .inr (.inl hpos)
    · refine .inr (.inr fun queue c' hc' => ?_)
      obtain ⟨answers, rfl⟩ := hc'.applyOnUiThread
      have hstale :
          request.generation ≠ Controller.generation { t.controller.dequeue i with queue } :=
        hcurrent
      rw [Controller.applyOnUiThread_of_stale hstale]
      exact hmatches.queue queue

theorem Ordered.step (h : Ordered n t) {label : Label} (hn : n + label.requests < wordSize)
    (hs : t.step label = some t') : Ordered (n + label.requests) t' := by
  cases label with
  | privacyModeChanged mode =>
    obtain ⟨htick, rfl⟩ := step_privacyModeChanged hs
    exact h.privacyModeChanged htick mode
  | tick => exact h.tickStep hn hs
  | updateSettings settings =>
    obtain ⟨hui, rfl⟩ := begin_eq_some.mp hs
    exact h.updateSettings hui settings
  | frontendEvent event =>
    obtain ⟨hui, rfl⟩ := begin_eq_some.mp hs
    exact h.frontendEvent hui event
  | apply i =>
    obtain ⟨request, hi, hui, rfl⟩ := step_apply hs
    exact h.apply hui hi
  | ui answers => exact h.uiStep hn hs

theorem ordered_of_run {settings : DisplaySettings} {watermarkAvailable : Bool}
    {labels : List Label} (hn : (labels.map Label.requests).sum < wordSize)
    (hrun : Transition.run Threads.step (start { settings, watermarkAvailable }) labels = some t) :
    ∃ n, Ordered n t :=
  ⟨_, Transition.run_weighted (P := fun _ => True) (fun _ _ _ _ h _ hn hs => h.step hn hs)
    (ordered_start settings watermarkAvailable) (fun _ _ => trivial)
    (show 0 + (labels.map Label.requests).sum < wordSize by omega) hrun⟩

/-- No call is in progress, and no current request is on the queue. -/
structure Settled (t : Threads) : Prop where
  tick : t.tick = []
  ui : t.ui = []
  queue : ¬ Display.Pending t.controller

theorem Ordered.matches (h : Ordered n t) (hsettled : t.Settled) : t.controller.Matches := by
  rcases h.settling_nil hsettled.ui with ⟨request, hmem | hmem, hcurrent⟩ | hpos | hmatches
  · exact absurd ⟨request, hmem, hcurrent⟩ hsettled.queue
  · simp [hsettled.tick] at hmem
  · simp [owed, hsettled.tick, hsettled.ui] at hpos
  · exact hmatches

end Threads

end PrivacyGuard
