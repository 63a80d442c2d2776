import PrivacyGuard.Display.Settling

/-! # The two threads go on

A call takes a bounded number of its own steps, whatever the other thread does meanwhile. The
calls in progress and the tasks on the queue therefore lead to a state in which the output is
what the latest mode asks for.
-/

namespace PrivacyGuard

/-- The steps that a step and those it leads to take at most. -/
def Action.cost : Action → ℕ
  | .loadSettings _ => 7
  | .switchToScene _ _ | .storeSettings _ => 6
  | .loadLatestMode _ => 5
  | .selectCustom _ _ => 4
  | .publish _ => 2
  | _ => 1

namespace Threads

variable {t : Threads}

def cost (script : List Action) : ℕ := (script.map Action.cost).sum

@[simp] theorem cost_nil : cost [] = 0 := rfl

@[simp] theorem cost_cons (action : Action) (rest : List Action) :
    cost (action :: rest) = action.cost + cost rest := by simp [cost]

@[simp] theorem cost_append (script rest : List Action) :
    cost (script ++ rest) = cost script + cost rest := by simp [cost]

theorem cost_coverActions (mode : Mode) : cost (coverActions mode) ≤ 3 := by
  unfold coverActions
  split <;> simp [Action.cost]

theorem cost_displayActions (settings : DisplaySettings) (mode : Mode) :
    cost (displayActions settings mode) ≤ 6 := by
  unfold displayActions
  split <;> simp [builtInActions, Action.cost]

theorem cost_invalidateActions (mode : Mode) (event : FrontendEvent) :
    cost (invalidateActions mode event) ≤ 4 := by
  cases event <;> simp [invalidateActions, Action.cost]

/-- Whatever the state is, a step of a call leaves less to do. -/
theorem cost_exec (action : Action) (c : Controller) (answers : Answers) (rest : List Action) :
    cost (action.exec c answers rest).2 < action.cost + cost rest := by
  cases action with
  | checkAlive | checkGeneration | checkTargetScene =>
    simp only [Action.exec, Action.cost]
    split
    · omega
    · simp
  | loadSettings mode =>
    have := cost_displayActions c.settings mode
    simp only [Action.exec, cost_append, Action.cost]
    omega
  | loadLatestMode event =>
    have := cost_invalidateActions c.latestMode event
    simp only [Action.exec, cost_append, Action.cost]
    omega
  | storeSettings settings =>
    have := cost_coverActions c.latestMode
    simp only [Action.exec, cost_append, cost_cons, cost_nil, Action.cost]
    omega
  | switchToScene mode scene =>
    simp only [Action.exec, Controller.switchToScene]
    cases answers.target <;> simp [builtInActions, Action.cost] <;> omega
  | selectCustom mode path =>
    simp only [Action.exec]
    split <;> simp [Action.cost] <;> omega
  | _ => simp [Action.exec, Action.cost]

theorem exists_run_tick (t : Threads) :
    ∃ k t', Transition.run step t (List.replicate k .tick) = some t' ∧ t'.tick = [] := by
  induction hcost : cost t.tick using Nat.strong_induction_on generalizing t with
  | _ n ih =>
    subst hcost
    cases htick : t.tick with
    | nil => exact ⟨0, t, rfl, htick⟩
    | cons action rest =>
      obtain ⟨k, t', hrun, ht'⟩ := ih _ (by rw [htick, cost_cons]; exact cost_exec _ _ _ _)
        { t with
          controller := (action.exec t.controller {} rest).1
          tick := (action.exec t.controller {} rest).2
          request := action.queued.or t.request } rfl
      refine ⟨k + 1, t', Transition.run_cons.mpr ⟨_, ?_, hrun⟩, ht'⟩
      simp only [step, htick]

theorem exists_run_ui (t : Threads) :
    ∃ k t', Transition.run step t (List.replicate k (.ui {})) = some t' ∧ t'.ui = [] ∧
      t'.tick = t.tick ∧
      ((∀ action ∈ t.ui, action.Quiet) → t'.controller.queue = t.controller.queue) := by
  induction hcost : cost t.ui using Nat.strong_induction_on generalizing t with
  | _ n ih =>
    subst hcost
    cases hui : t.ui with
    | nil => exact ⟨0, t, rfl, hui, rfl, fun _ => rfl⟩
    | cons action rest =>
      obtain ⟨k, t', hrun, ht', htick, hqueue⟩ :=
        ih _ (by rw [hui, cost_cons]; exact cost_exec _ _ _ _)
          { t with
            controller := (action.exec t.controller {} rest).1
            ui := (action.exec t.controller {} rest).2
            switched := (Option.map₂ Prod.mk t.applying (action.reached {})).toList ++ t.switched }
          rfl
      refine ⟨k + 1, t', Transition.run_cons.mpr ⟨_, ?_, hrun⟩, ht', htick, fun hquiet => ?_⟩
      · simp only [step, hui]
      · obtain ⟨haction, hrest⟩ := List.forall_mem_cons.mp hquiet
        obtain ⟨hsame, hleft⟩ := haction.exec hrest t.controller {}
        exact (hqueue hleft).trans hsame.queue

/-- The steps that start no call of OBS or of the settings dialog. -/
def Label.goesOn : Label → Bool
  | .tick | .ui _ | .apply _ => true
  | _ => false

theorem exists_run_apply (t : Threads) (htick : t.tick = []) (hui : t.ui = []) :
    ∃ labels t', (∀ label ∈ labels, label.goesOn = true) ∧
      Transition.run step t labels = some t' ∧ t'.Settled := by
  induction hlength : t.controller.queue.length generalizing t with
  | zero =>
    refine ⟨[], t, by simp, rfl, htick, hui, ?_⟩
    simp [Display.Pending, List.length_eq_zero_iff.mp hlength]
  | succ n ih =>
    obtain ⟨request, queue, hqueue⟩ := List.exists_cons_of_length_eq_add_one hlength
    have hstep : t.step (.apply 0) = some
        { t with
          controller := t.controller.dequeue 0
          ui := applyActions request
          applying := some request } := by
      simp [step, begin, hqueue, hui]
    obtain ⟨k, t₁, hrun, hui', htick', hquiet⟩ := exists_run_ui
      { t with
        controller := t.controller.dequeue 0
        ui := applyActions request
        applying := some request }
    have hlength' : t₁.controller.queue.length = n := by
      rw [hquiet (Action.quiet_applyActions request)]
      simpa [Controller.dequeue, hqueue] using hlength
    obtain ⟨labels, t', hlabels, hrun', hsettled⟩ := ih t₁ (htick'.trans htick) hui' hlength'
    refine ⟨.apply 0 :: (List.replicate k (.ui {}) ++ labels), t', ?_,
      Transition.run_cons.mpr ⟨_, hstep, Transition.run_append.mpr ⟨t₁, hrun, hrun'⟩⟩, hsettled⟩
    simp only [List.mem_cons, List.mem_append, List.mem_replicate]
    rintro label (rfl | ⟨-, rfl⟩ | hmem)
    · rfl
    · rfl
    · exact hlabels label hmem

theorem exists_run_settled (t : Threads) :
    ∃ labels t', (∀ label ∈ labels, label.goesOn = true) ∧
      Transition.run step t labels = some t' ∧ t'.Settled := by
  obtain ⟨i, t₁, hrun₁, htick⟩ := exists_run_tick t
  obtain ⟨j, t₂, hrun₂, hui, htick', -⟩ := exists_run_ui t₁
  obtain ⟨labels, t', hlabels, hrun, hsettled⟩ := exists_run_apply t₂ (htick'.trans htick) hui
  refine ⟨List.replicate i .tick ++ (List.replicate j (.ui {}) ++ labels), t', ?_,
    Transition.run_append.mpr ⟨t₁, hrun₁, Transition.run_append.mpr ⟨t₂, hrun₂, hrun⟩⟩, hsettled⟩
  simp only [List.mem_append, List.mem_replicate]
  rintro label (⟨-, rfl⟩ | ⟨-, rfl⟩ | hmem)
  · rfl
  · rfl
  · exact hlabels label hmem

theorem requests_of_goesOn {label : Label} (h : label.goesOn = true) : label.requests = 0 := by
  cases label with
  | privacyModeChanged | updateSettings => cases h
  | _ => rfl

/-- In every interleaving the output is what the latest mode asks for where no call is in progress
and no current request is left; the calls in progress and the tasks on the queue lead there. -/
theorem settles_of_run {settings : DisplaySettings} {watermarkAvailable : Bool}
    {labels : List Label} (hn : (labels.map Label.requests).sum < wordSize)
    (hrun : Transition.run Threads.step (start { settings, watermarkAvailable }) labels = some t) :
    (t.Settled → t.controller.Matches) ∧
      ∃ labels' t', (∀ label ∈ labels', label.goesOn = true) ∧
        Transition.run Threads.step t labels' = some t' ∧ t'.Settled ∧ t'.controller.Matches := by
  have hordered := ordered_of_run hn hrun
  refine ⟨hordered.choose_spec.matches, ?_⟩
  obtain ⟨labels', t', hlabels, hrun', hsettled⟩ := exists_run_settled t
  have hrequests : (labels'.map Label.requests).sum = 0 := by
    refine List.sum_eq_zero ?_
    simp only [List.mem_map]
    rintro _ ⟨label, hmem, rfl⟩
    exact requests_of_goesOn (hlabels label hmem)
  have hn' : ((labels ++ labels').map Label.requests).sum < wordSize := by
    rwa [List.map_append, List.sum_append, hrequests, add_zero]
  obtain ⟨n, hordered'⟩ := ordered_of_run hn' (Transition.run_append.mpr ⟨t, hrun, hrun'⟩)
  exact ⟨labels', t', hlabels, hrun', hsettled, hordered'.matches hsettled⟩

/-- A task of an open mode has passed its checks when a sensitive file is decided, and uncovers
the output behind the decision. -/
def racing : List Label :=
  .privacyModeChanged .safe :: (List.replicate 3 .tick ++ .apply 0 :: List.replicate 2 (.ui {})) ++
    .privacyModeChanged .sensitive :: (List.replicate 6 .tick ++ List.replicate 3 (.ui {}))

def raced : Threads :=
  (Transition.run Threads.step (start { watermarkAvailable := true }) racing).get
    (by decide +kernel)

theorem settles_racing :
    (raced.controller.overlayRequired = false ∧ raced.controller.latestMode = .sensitive) ∧
      (raced.Settled → raced.controller.Matches) ∧
        ∃ labels' t', (∀ label ∈ labels', label.goesOn = true) ∧
          Transition.run Threads.step raced labels' = some t' ∧ t'.Settled ∧
            t'.controller.Matches :=
  ⟨by decide +kernel, settles_of_run (by decide) (Option.some_get _).symm⟩

end Threads

end PrivacyGuard
