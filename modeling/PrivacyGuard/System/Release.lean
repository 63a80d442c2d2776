import PrivacyGuard.Display.Release
import PrivacyGuard.System.Broadcast

/-! # The output comes back

A tick callback that finds nothing to hide leads to an open output, as soon as the UI thread
has gone through its tasks.
-/

namespace PrivacyGuard

open Utf16

namespace Broadcast

variable {d : CaseData} {b b' b'' : Broadcast} {m : ℕ}

def ReleasedBelow (m : ℕ) (display : Display) : Prop :=
  ∃ m' ≤ m, Display.Sound m' display ∧ display.Released

theorem releasedBelow_step (h : ReleasedBelow m b.display) {label : Label}
    (hm : m + label.requests < wordSize) (hs : b.step d label = some b') :
    ReleasedBelow (m + label.requests) b'.display := by
  obtain ⟨m', hm', hsound, hreleased⟩ := h
  rcases display_step hs with hsame | ⟨l, hl, hstep⟩
  · exact ⟨m', by omega, hsame ▸ hsound, hsame ▸ hreleased⟩
  · have hbelow : Display.SoundBelow (m + l.requests) b'.display :=
      Display.SoundBelow.step ⟨m', hm', hsound⟩ (hl ▸ hm) hstep
    obtain ⟨k, hk, hsound'⟩ := hbelow
    exact ⟨k, hl ▸ hk, hsound', hreleased.step hsound hstep⟩

theorem run_released {timeout : ℤ} {clientIds : List { clientId : Bytes // Uuid clientId }}
    {watermarkAvailable : Bool} {labels : List Label}
    (hm : (labels.map Label.requests).sum < wordSize)
    (hrun : Transition.run (step d) (start timeout clientIds watermarkAvailable) labels = some b) :
    ∃ m', Display.Sound m' b.display ∧ b.display.Released := by
  have hfirst : ReleasedBelow 0 (start timeout clientIds watermarkAvailable).display := by
    refine ⟨0, le_rfl, Display.sound_start watermarkAvailable, fun hopen => ?_⟩
    cases hopen
  have h : ReleasedBelow (0 + (labels.map Label.requests).sum) b.display :=
    Transition.run_weighted (I := fun m b => ReleasedBelow m b.display) (P := fun _ => True)
      (fun m b l b' h _ hm hs => releasedBelow_step h hm hs) hfirst (by simp)
      (show 0 + (labels.map Label.requests).sum < wordSize by omega) hrun
  obtain ⟨m', -, h⟩ := h
  exact ⟨m', h⟩

/-! ### Behind a callback -/

def Label.task : Label → Bool
  | .display (.apply _ _) => true
  | _ => false

theorem requests_task {l : Label} (h : l.task = true) : l.requests = 0 := by
  cases l with
  | display label =>
    cases label with
    | apply i answers => rfl
    | _ => cases h
  | _ => cases h

theorem forwarded_of_tasks {labels : List Label} (htasks : ∀ l ∈ labels, l.task = true)
    (hrun : Transition.run (step d) b labels = some b') :
    b'.display.forwarded = b.display.forwarded := by
  refine Transition.run_along (I := fun b' => b'.display.forwarded = b.display.forwarded) ?_ rfl
    (Transition.Along.of_forall htasks) hrun
  intro u l v hu hl hs
  cases moves_of_step hs with
  | display hlogged hstep => rwa [Display.forwarded, hlogged]
  | _ => cases hl

/-- The display still knows the mode that the callback has found. -/
theorem forwarded_of_drained {now : ℤ} {tasks : List Label}
    (hcallback : Transition.run (step d) b (callback now) = some b')
    (htasks : ∀ l ∈ tasks, l.task = true)
    (hdrained : Transition.run (step d) b' tasks = some b'') :
    b''.display.forwarded = b'.server.privacyState.mode := by
  rw [forwarded_of_tasks htasks hdrained, Display.forwarded,
    (forwarded_of_callback hcallback).logged, Option.getD_some]

theorem requests_drained {labels tasks : List Label} (now : ℤ)
    (htasks : ∀ l ∈ tasks, l.task = true) :
    ((labels ++ (callback now ++ tasks)).map Label.requests).sum =
      (labels.map Label.requests).sum + 1 := by
  have hrequests : (tasks.map Label.requests).sum = 0 :=
    List.sum_eq_zero fun k hk => by
      obtain ⟨l, hl, rfl⟩ := List.mem_map.mp hk
      exact requests_task (htasks l hl)
  simp [callback, Label.requests, hrequests]

/-- Nothing is drawn over the scene, and the scene is not the accepted one of the user. -/
def Uncovered (b : Broadcast) : Prop :=
  b.display.controller.renderPrivacyOverlay {} = [] ∧
    b.display.controller.customSceneActive = false

theorem Uncovered.open (h : b.Uncovered) : b.Open :=
  ⟨by simp [h.1], h.2⟩

theorem uncovered_of_released (hsound : Display.Sound m b.display)
    (hreleased : b.display.Released) (hmode : isProtectedMode b.display.forwarded = false)
    (hnone : ¬ Display.Pending b.display.controller) : b.Uncovered := by
  have hopen := (hreleased (hsound.latest ▸ hmode)).resolve_left hnone
  refine ⟨?_, hopen.scene⟩
  simp [Controller.renderPrivacyOverlay, hopen.overlay, hopen.watermark]

/-- Whatever the run before it did, after a callback that finds the mode safe or disabled
nothing is drawn once no request is left that is not overtaken. -/
theorem opens_of_callback {timeout : ℤ} {clientIds : List { clientId : Bytes // Uuid clientId }}
    {watermarkAvailable : Bool} {labels tasks : List Label} {now : ℤ}
    (hm : (labels.map Label.requests).sum + 1 < wordSize)
    (hrun : Transition.run (step d) (start timeout clientIds watermarkAvailable) labels = some b)
    (hcallback : Transition.run (step d) b (callback now) = some b')
    (hmode : isProtectedMode b'.server.privacyState.mode = false)
    (htasks : ∀ l ∈ tasks, l.task = true)
    (hdrained : Transition.run (step d) b' tasks = some b'')
    (hnone : ¬ Display.Pending b''.display.controller) : b''.Uncovered := by
  have hrun' : Transition.run (step d) (start timeout clientIds watermarkAvailable)
      (labels ++ (callback now ++ tasks)) = some b'' :=
    Transition.run_append.mpr ⟨b, hrun, Transition.run_append.mpr ⟨b', hcallback, hdrained⟩⟩
  obtain ⟨m', hsound, hreleased⟩ := run_released (by rwa [requests_drained now htasks]) hrun'
  refine uncovered_of_released hsound hreleased ?_ hnone
  rwa [forwarded_of_drained hcallback htasks hdrained]

def reported : Broadcast :=
  (Transition.run (step greek) (start 2000 oneWindow true) (streaming.take 12)).get
    (by decide +kernel)

def forwarding : Broadcast :=
  (Transition.run (step greek) reported (callback 30)).get (by decide +kernel)

def released : Broadcast :=
  (Transition.run (step greek) forwarding [.display (.apply 0 {})]).get (by decide +kernel)

theorem opens_released : released.Uncovered :=
  opens_of_callback (by decide) (Option.some_get _).symm (Option.some_get _).symm
    (by decide +kernel) (by decide) (Option.some_get _).symm (by decide +kernel)

end Broadcast

end PrivacyGuard
