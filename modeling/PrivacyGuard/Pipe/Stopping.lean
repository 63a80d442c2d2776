import PrivacyGuard.Pipe.Shutdown

/-! # Stopping the server

`stop` returns. Each step of the server lowers a rank once `running_` is false, and where
the owner waits in vain the accept thread is blocked in `ConnectNamedPipe`.
-/

namespace PrivacyGuard

/-! ### Ranks -/

def Worker.remaining (w : Worker) : ℕ :=
  match w.point with
  | .returned => 0
  | .close => 1
  | .cleanup => 2
  | .loop => 3
  | .fail => 4
  | .apply _ _ => 2 * w.pending.length + 5
  | .scan => 2 * w.pending.length + 6
  | .read => 2 * (w.pending.length + pipeBufferSize) + 7

theorem Worker.remaining_scanPending {w : Worker} (hp : w.point = .scan) :
    w.scanPending.remaining < w.remaining := by
  unfold scanPending
  split
  case h_1 => split <;> simp [remaining, hp]
  case h_2 => split <;> simp [remaining, hp]

theorem Worker.remaining_applied {w : Worker} (h : w.Placed) {frame : Frame} {position : ℕ}
    (hp : w.point = .apply frame position) (result : FrameResult) :
    (w.applied position result).remaining < w.remaining := by
  have hposition : position < w.pending.length := by
    have hat := h.2
    rw [hp] at hat
    exact (List.idxOf?_eq_some_iff.mp hat.2.1).1
  cases result with
  | invalid => simp [applied, remaining, hp]
  | continues =>
    simp [applied, remaining, hp]
    omega
  | goodbye => simp [applied, remaining, hp]

theorem Worker.remaining_step {w w' : Worker} (h : w.Placed) {input : Input}
    (hrunning : ∀ running, input = .proceed running → running = false)
    (hs : w.step input = some w') : w'.remaining < w.remaining := by
  cases moves_of_step hs with
  | loop hp running =>
    obtain rfl := hrunning running rfl
    simp [remaining, hp]
  | scan hp running => exact remaining_scanPending hp
  | cleanup hp running =>
    obtain rfl := hrunning running rfl
    simp [remaining, hp]
  | nothing hp => simp [remaining, hp]
  | bytes hp hne hlen =>
    simp [remaining, hp]
    omega
  | ended hp => simp [remaining, hp]
  | apply hp accepted => exact remaining_applied h hp _
  | fail hp accepted => simp [remaining, hp]
  | close hp accepted => simp [remaining, hp]

def ConnectionThread.remaining (t : ConnectionThread) : ℕ :=
  match t.phase with
  | .serving => t.worker.remaining + 3
  | .closed => 2
  | .finished => 1
  | .exited => 0

/-- A bound on the moves of the accept thread once `running_` is false, before which it may
still start a thread for the client it has connected. -/
def AcceptPoint.remaining (workers : List ℕ) : AcceptPoint → ℕ
  | .exited => 0
  | .loop => 1
  | .refuse _ => 1
  | .sleep => 2
  | .failed _ => 2
  | .check _ => 2
  | .connect _ true => 3
  | .connect _ false => 4
  | .create => 5
  | .spawn _ _ => 9
  | .sweep _ _ todo doomed => 10 + 2 * todo.length + doomed.length
  | .opening _ => 11 + 2 * workers.length

def OwnerPoint.remaining : OwnerPoint → ℕ
  | .idle => 0
  | .launch => 0
  | .clearing => 1
  | .joining => 2
  | .waking attempt => 3 + (wakeAttempts - attempt)

namespace Listener

variable {s s' : Listener} {l : Label}

def remaining (s : Listener) : ℕ :=
  s.owner.remaining + (s.acceptThread.elim 0 (AcceptPoint.remaining s.workers) +
    (s.workers.length + (s.threads.map ConnectionThread.remaining).sum))

def Stopping (s : Listener) : Prop :=
  match s.owner with
  | .waking _ | .joining | .clearing => True
  | .idle | .launch => False

instance : Decidable s.Stopping := by
  unfold Stopping
  split <;> infer_instance

/-- The labels that the server itself takes; the others are those of its callers, of a
client, and of a connection that fails. -/
def Label.own : Label → Bool
  | .start | .stop | .tick _ | .setEnabled _ | .client | .connect false => false
  | _ => true

theorem Controlled.stopping (h : Controlled s) (hs : s.Stopping) : s.running = false := by
  unfold Controlled at h
  unfold Stopping at hs
  split at hs
  case h_1 attempt ho =>
    simp only [ho] at h
    exact h.1
  case h_2 ho =>
    simp only [ho] at h
    exact h.1
  case h_3 ho =>
    simp only [ho] at h
    exact h.1
  case h_4 => cases hs
  case h_5 => cases hs

theorem remaining_update {t : ℕ} {thread : ConnectionThread} (ht : s.threads[t]? = some thread)
    {thread' : ConnectionThread} (hlt : thread'.remaining < thread.remaining) :
    (s.update t thread').remaining < s.remaining := by
  have hsum := Transition.sum_map_set (f := ConnectionThread.remaining) (b := thread') ht
  simp only [remaining, Listener.update]
  omega

theorem remaining_step (h : Sound s) (hstop : s.Stopping) (hs : Moves s l s') :
    s'.remaining + (if l.own then 1 else 0) ≤ s.remaining := by
  have hr : s.running = false := h.controlled.stopping hstop
  cases hs with
  | startAgain ho hr => simp [Stopping, ho] at hstop
  | start ho hr => simp [Stopping, ho] at hstop
  | stopAgain ho hr => simp [Stopping, ho] at hstop
  | stop ho hr => simp [Stopping, ho] at hstop
  | launch ho ha => simp [Stopping, ho] at hstop
  | wake ho ha =>
    simp [remaining, ho, ha, Label.own, OwnerPoint.remaining, AcceptPoint.remaining]
    omega
  | wakeAgain ho hlt =>
    simp [remaining, ho, Label.own, OwnerPoint.remaining]
    omega
  | wakeLast ho hle =>
    simp [remaining, ho, Label.own, OwnerPoint.remaining]
    omega
  | joinAccept ho ha =>
    simp [remaining, ho, ha, Label.own, OwnerPoint.remaining, AcceptPoint.remaining]
  | joinWorker ho hw ht =>
    have hnone : s.acceptThread = none := by
      have hc := h.controlled
      simp only [Controlled, ho] at hc
      exact hc.2
    simp [remaining, hnone, hw, Label.own]
  | cleared ho hw =>
    simp [remaining, ho, Label.own, OwnerPoint.remaining]
  | client ha =>
    simp [remaining, ha, Label.own, AcceptPoint.remaining]
  | loop ha =>
    simp [remaining, ha, hr, Label.own, AcceptPoint.remaining]
  | sleep ha =>
    simp [remaining, ha, Label.own, AcceptPoint.remaining]
  | failed ha =>
    simp [remaining, ha, Label.own, AcceptPoint.remaining]
  | check ha =>
    simp [remaining, ha, hr, Label.own, AcceptPoint.remaining]
  | refuse ha =>
    simp [remaining, ha, Label.own, AcceptPoint.remaining]
  | @test pipe id t todo doomed thread ha ht =>
    have hdoomed :
        (if thread.isFinished then t :: doomed else doomed).length ≤ doomed.length + 1 := by
      split <;> simp
    simp [remaining, ha, Label.own, AcceptPoint.remaining]
    omega
  | swept ha =>
    simp [remaining, ha, Label.own, AcceptPoint.remaining]
  | spawn ha =>
    simp [remaining, ha, Label.own, AcceptPoint.remaining, ConnectionThread.remaining,
      Worker.remaining]
    omega
  | create ha =>
    simp [remaining, ha, Label.own, AcceptPoint.remaining]
  | createFails ha =>
    simp [remaining, ha, Label.own, AcceptPoint.remaining]
  | connect ha =>
    simp [remaining, ha, Label.own, AcceptPoint.remaining]
  | @connectFails pipe opened ha =>
    cases opened <;> simp [remaining, ha, Label.own, AcceptPoint.remaining]
  | opened ha now =>
    simp [remaining, ha, Label.own, AcceptPoint.remaining, Listener.perform]
  | @join pipe id t todo doomed ha hmem ht =>
    have hmem' : t ∈ s.workers :=
      (h.tracked.sweep pipe id todo doomed ha).2.1 t (List.mem_append_right _ hmem)
    have hlen := List.length_erase_of_mem hmem
    have hpos := List.length_pos_of_mem hmem
    have hlen' := List.length_erase_of_mem hmem'
    have hpos' := List.length_pos_of_mem hmem'
    simp [remaining, ha, Label.own, AcceptPoint.remaining]
    omega
  | @closes t thread input ht hphase hpoint =>
    have hlt : ConnectionThread.remaining { thread with phase := .closed } < thread.remaining := by
      simp [ConnectionThread.remaining, hphase]
    exact remaining_update ht hlt
  | @works t thread input worker ht hphase hpoint hfound hw =>
    have hrunning : ∀ running, input = .proceed running → running = false := by
      rintro running rfl
      simpa [found, hr] using hfound
    have hlt := Worker.remaining_step (h.placed t thread ht).1 hrunning hw
    exact remaining_update ht (by simp [ConnectionThread.remaining, hphase, hlt])
  | finishes ht hphase =>
    exact remaining_update ht (by simp [ConnectionThread.remaining, hphase])
  | exits ht hphase =>
    exact remaining_update ht (by simp [ConnectionThread.remaining, hphase])
  | @call t thread call worker now ht hphase hcall hw =>
    have hlt := Worker.remaining_step (h.placed t thread ht).1 (by simp) hw
    have hlt' : ConnectionThread.remaining { thread with worker } < thread.remaining := by
      simp [ConnectionThread.remaining, hphase, hlt]
    exact remaining_update (s := s.perform (call.op thread.connectionId now)) ht hlt'
  | tick now => exact Nat.le_refl _
  | setEnabled enabled => exact Nat.le_refl _

/-! ### Progress -/

/-- The accept thread is behind its test of `running_` and needs a client to come back. -/
def Offering (s : Listener) : Bool :=
  match s.acceptThread with
  | some .create | some (.connect _ false) => true
  | _ => false

/-- The last attempt to wake the accept thread does not fail while that needs a client. -/
def Patient (s : Listener) (l : Label) : Prop :=
  match l, s.owner with
  | .wake false, .waking attempt => attempt + 1 < wakeAttempts ∨ s.Offering = false
  | _, _ => True

instance (l : Label) : Decidable (s.Patient l) := by
  unfold Patient
  split <;> infer_instance

def Able (s : Listener) : Prop :=
  ∃ l : Label, l.own = true ∧ s.Patient l ∧ (s.step l).isSome = true

theorem able_of_thread {t : ℕ} {thread : ConnectionThread} (ht : s.threads[t]? = some thread)
    (hphase : thread.phase ≠ .exited) : Able s := by
  have hidle : s.found .nothing = true := rfl
  cases hp : thread.phase with
  | serving =>
    cases hpoint : thread.worker.point with
    | loop | scan | cleanup =>
      refine ⟨.thread t (.proceed s.running), rfl, trivial, ?_⟩
      simp [Listener.step, ht, found, moveThread, hp, hpoint, Worker.step]
    | read =>
      refine ⟨.thread t .nothing, rfl, trivial, ?_⟩
      simp [Listener.step, ht, hidle, moveThread, hp, hpoint, Worker.step]
    | apply | fail | close =>
      refine ⟨.call t 0, rfl, trivial, ?_⟩
      simp [Listener.step, ht, hp, hpoint, Worker.step, Worker.call]
    | returned =>
      refine ⟨.thread t .nothing, rfl, trivial, ?_⟩
      simp [Listener.step, ht, hidle, moveThread, hp, hpoint]
  | closed | finished =>
    refine ⟨.thread t .nothing, rfl, trivial, ?_⟩
    simp [Listener.step, ht, hidle, moveThread, hp]
  | exited => exact absurd hp hphase

/-- Joining a listed worker returns, or waits for a thread that goes on. -/
theorem able_of_worker (h : Sound s) {t : ℕ} (ht : t ∈ s.workers)
    (hjoin : s.hasExited t = true → Able s) : Able s := by
  obtain ⟨thread, hthread⟩ : ∃ thread, s.threads[t]? = some thread :=
    ⟨_, List.getElem?_eq_getElem (h.tracked.lt t ht)⟩
  by_cases hphase : thread.phase = .exited
  · exact hjoin (by simp [hasExited, hthread, hphase])
  · exact able_of_thread hthread hphase

/-- The accept thread only ever waits for a client. -/
theorem able_of_accept (h : Sound s) {point : AcceptPoint} (ha : s.acceptThread = some point)
    (hexited : point ≠ .exited) (hconnect : ∀ pipe, point ≠ .connect pipe false) : Able s := by
  cases point with
  | loop | sleep | failed | check | refuse | spawn =>
    refine ⟨.proceed, rfl, trivial, ?_⟩
    simp [Listener.step, ha, Listener.proceed]
  | create =>
    refine ⟨.create true, rfl, trivial, ?_⟩
    simp [Listener.step, ha]
  | connect pipe opened =>
    cases opened with
    | true =>
      refine ⟨.connect true, rfl, trivial, ?_⟩
      simp [Listener.step, ha]
    | false => exact absurd rfl (hconnect pipe)
  | opening pipe =>
    refine ⟨.opened 0, rfl, trivial, ?_⟩
    simp [Listener.step, ha]
  | sweep pipe id todo doomed =>
    obtain ⟨-, hmem, -⟩ := h.tracked.sweep pipe id todo doomed ha
    cases todo with
    | cons t todo =>
      have hthread := List.getElem?_eq_getElem (h.tracked.lt t (hmem t (by simp)))
      refine ⟨.proceed, rfl, trivial, ?_⟩
      simp [Listener.step, ha, Listener.proceed, hthread]
    | nil =>
      cases doomed with
      | nil =>
        refine ⟨.proceed, rfl, trivial, ?_⟩
        simp [Listener.step, ha, Listener.proceed]
      | cons t doomed =>
        refine able_of_worker h (hmem t (by simp)) fun hjoin => ⟨.join t, rfl, trivial, ?_⟩
        simp [Listener.step, ha, hjoin]
  | exited => exact absurd rfl hexited

/-- The owner waits for an accept thread that waits for a client. -/
def Blocked (s : Listener) : Prop :=
  s.owner = .joining ∧ ∃ pipe, s.acceptThread = some (.connect pipe false)

theorem able_of_waking (h : Sound s) {attempt : ℕ} (ho : s.owner = .waking attempt) : Able s := by
  have hc := h.controlled
  simp only [Controlled, ho] at hc
  obtain ⟨-, point, ha⟩ := hc
  cases hoffer : s.Offering with
  | false =>
    refine ⟨.wake false, rfl, ?_, ?_⟩
    · simp [Patient, ho, hoffer]
    · simp only [Listener.step, ho, Listener.wake, Bool.false_eq_true, if_false]
      split <;> rfl
  | true =>
    simp only [Offering] at hoffer
    split at hoffer
    case h_1 hcreate => exact able_of_accept h hcreate (by simp) (by simp)
    case h_2 pipe hconnect =>
      refine ⟨.wake true, rfl, ?_, ?_⟩
      · simp [Patient]
      · simp [Listener.step, ho, Listener.wake, hconnect]
    case h_3 => cases hoffer

theorem able_or_blocked (h : Sound s) (hstop : s.Stopping) : Able s ∨ Blocked s := by
  have hc := h.controlled
  cases ho : s.owner with
  | idle => simp [Stopping, ho] at hstop
  | launch => simp [Stopping, ho] at hstop
  | waking attempt => exact .inl (able_of_waking h ho)
  | joining =>
    simp only [Controlled, ho] at hc
    obtain ⟨-, point, ha⟩ := hc
    by_cases hexited : point = .exited
    · refine .inl ⟨.joinAccept, rfl, trivial, ?_⟩
      simp [Listener.step, ho, ha, hexited]
    · by_cases hconnect : ∃ pipe, point = .connect pipe false
      · obtain ⟨pipe, rfl⟩ := hconnect
        exact .inr ⟨ho, pipe, ha⟩
      · exact .inl (able_of_accept h ha hexited (not_exists.mp hconnect))
  | clearing =>
    cases hw : s.workers with
    | nil =>
      refine .inl ⟨.joinWorker, rfl, trivial, ?_⟩
      simp [Listener.step, ho, hw]
    | cons t workers =>
      have hmem : t ∈ s.workers := by simp [hw]
      refine .inl (able_of_worker h hmem fun hjoin => ⟨.joinWorker, rfl, trivial, ?_⟩)
      simp [Listener.step, ho, hw, hjoin]

theorem Sound.stuck_iff (h : Sound s) (hstop : s.Stopping) :
    (∀ l : Label, l.own = true → s.step l = none) ↔
      Blocked s ∧ ∀ thread ∈ s.threads, thread.phase = .exited := by
  constructor
  · intro hstuck
    have hable : ¬ Able s := by
      rintro ⟨l, hown, -, hsome⟩
      simp [hstuck l hown] at hsome
    refine ⟨(able_or_blocked h hstop).resolve_left hable, fun thread hmem => ?_⟩
    obtain ⟨t, ht⟩ := List.getElem?_of_mem hmem
    by_contra hphase
    exact hable (able_of_thread ht hphase)
  · rintro ⟨⟨ho, pipe, ha⟩, hexited⟩ l hown
    rw [Option.eq_none_iff_forall_ne_some]
    intro s' hs
    cases moves_of_step hs with
    | startAgain | start | stopAgain | stop | tick | setEnabled | client | connectFails =>
      cases hown
    | launch ho' => simp [ho] at ho'
    | wake ho' => simp [ho] at ho'
    | wakeAgain ho' => simp [ho] at ho'
    | wakeLast ho' => simp [ho] at ho'
    | joinWorker ho' => simp [ho] at ho'
    | cleared ho' => simp [ho] at ho'
    | joinAccept ho' ha' => simp [ha] at ha'
    | loop ha' | sleep ha' | failed ha' | check ha' | refuse ha' | test ha' | swept ha'
    | spawn ha' | create ha' | createFails ha' | connect ha' | opened ha' | join ha' =>
      simp [ha] at ha'
    | closes ht hphase => simp [hexited _ (List.mem_of_getElem? ht)] at hphase
    | works ht hphase => simp [hexited _ (List.mem_of_getElem? ht)] at hphase
    | finishes ht hphase => simp [hexited _ (List.mem_of_getElem? ht)] at hphase
    | exits ht hphase => simp [hexited _ (List.mem_of_getElem? ht)] at hphase
    | call ht hphase => simp [hexited _ (List.mem_of_getElem? ht)] at hphase

/-! ### Runs -/

/-- The accept thread comes back to its test without a client from where the owner joins it. -/
structure Attended (s : Listener) : Prop where
  sound : Sound s
  stops : s.owner ≠ .launch
  joining : s.owner = .joining → s.Offering = false

theorem offering_step (hr : s.running = false) (ho : s.Offering = false) (hs : Moves s l s') :
    s'.Offering = false := by
  cases hs with
  | create ha | createFails ha => simp [Offering, ha] at ho
  | loop ha => simp [Offering, hr]
  | check ha => simp [Offering, hr]
  | launch | wake | joinAccept | client | sleep | failed | refuse | test | swept | spawn | connect
  | connectFails | opened | join => rfl
  | _ => exact ho

theorem Attended.step (h : Attended s) (hstop : s.Stopping) (hpatient : s.Patient l)
    (hs : s.step l = some s') : Attended s' := by
  have hmoves := moves_of_step hs
  have hr := h.sound.controlled.stopping hstop
  have hoffer := fun ho => offering_step hr ho hmoves
  refine ⟨h.sound.step hs, ?_, ?_⟩
  · cases hmoves with
    | startAgain ho hr => simp [Stopping, ho] at hstop
    | start ho hr => simp [Stopping, ho] at hstop
    | stopAgain ho hr => simp [Stopping, ho] at hstop
    | stop | launch | wake | wakeAgain | wakeLast | joinAccept | cleared => simp
    | _ => exact h.stops
  · intro ho'
    cases hmoves with
    | wake ho ha => rfl
    | wakeLast ho hle =>
      simp only [Patient, ho] at hpatient
      exact hpatient.resolve_left (by omega)
    | startAgain ho hr => simp [ho] at ho'
    | stopAgain ho hr => simp [ho] at ho'
    | start | stop | launch | wakeAgain | joinAccept | cleared => cases ho'
    | _ => exact hoffer (h.joining ho')

structure Returns (s : Listener) (labels : List Label) (s' : Listener) : Prop where
  /-- The server takes a bounded number of steps, in whichever order and however often others
  call the privacy state in between. -/
  bounded : labels.countP Label.own + s'.remaining ≤ s.remaining
  /-- As long as `stop` has not returned, the server can go on. -/
  able : s'.owner = .idle ∨ Able s'

theorem returns_of_run {timeout : ℤ} {labels labels' : List Label}
    (hrun : Transition.run Listener.step (init timeout) labels = some s)
    (hwaking : s.owner = .waking 0)
    (halong : Transition.Along Listener.step (fun s l => s.Stopping ∧ s.Patient l) s labels')
    (hrun' : Transition.run Listener.step s labels' = some s') : Returns s labels' s' := by
  have hs : Attended s := ⟨run_sound hrun, by simp [hwaking], by simp [hwaking]⟩
  constructor
  case bounded =>
    refine Transition.countP_le_of_along (I := Attended) ?_ hs halong hrun'
    intro s l t h hl hstep
    exact ⟨h.step hl.1 hl.2 hstep, remaining_step h.sound hl.1 (moves_of_step hstep)⟩
  case able =>
    have hs' : Attended s' :=
      Transition.run_along (fun _ _ _ h hl hstep => h.step hl.1 hl.2 hstep) hs halong hrun'
    by_cases hstop : s'.Stopping
    · refine .inr ((able_or_blocked hs'.sound hstop).resolve_right ?_)
      rintro ⟨ho, pipe, ha⟩
      simpa [Offering, ha] using hs'.joining ho
    · left
      have hstops := hs'.stops
      cases ho : s'.owner <;> simp [Stopping, ho] at hstop hstops ⊢

theorem returns_stopped : stopped.owner = .idle ∧ Returns served stopping stopped :=
  ⟨by decide +kernel, returns_of_run (Option.some_get _).symm (by decide +kernel)
    (by decide +kernel) (Option.some_get _).symm⟩

/-- In `stop`, the server has no step left if and only if it waits for a client: every other
thread is gone, and the attempts to wake the accept thread came before its last instance. -/
theorem stuck_iff_of_run {timeout : ℤ} {labels : List Label}
    (hrun : Transition.run Listener.step (init timeout) labels = some s) (hstop : s.Stopping) :
    (∀ l : Label, l.own = true → s.step l = none) ↔
      Blocked s ∧ ∀ thread ∈ s.threads, thread.phase = .exited :=
  (run_sound hrun).stuck_iff hstop

def late : List Label :=
  [.start, .launch, .proceed, .stop] ++ List.replicate wakeAttempts (.wake false) ++ [.create true]

def stuck : Listener := (Transition.run Listener.step (init 1500) late).get (by decide +kernel)

theorem stuck_iff_stuck :
    Blocked stuck ∧ ∀ l : Label, l.own = true → stuck.step l = none := by
  have hblocked : Blocked stuck := ⟨by decide +kernel, 0, by decide +kernel⟩
  exact ⟨hblocked, (stuck_iff_of_run (Option.some_get _).symm (by decide +kernel)).mpr
    ⟨hblocked, by decide +kernel⟩⟩

end Listener

end PrivacyGuard
