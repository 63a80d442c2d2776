import PrivacyGuard.Pipe.Listener

/-! # Starting and stopping the server

One inversion of the steps of all threads, and from it the custody of the pipe handles, the
use of `workers_`, what is left behind `stop`, and that `stop` returns.
-/

namespace PrivacyGuard

namespace Listener

inductive Moves (s : Listener) : Label → Listener → Prop
  | startAgain (ho : s.owner = .idle) (hr : s.running = true) : Moves s .start s
  | start (ho : s.owner = .idle) (hr : s.running = false) :
      Moves s .start { s with running := true, owner := .launch }
  | stopAgain (ho : s.owner = .idle) (hr : s.running = false) : Moves s .stop s
  | stop (ho : s.owner = .idle) (hr : s.running = true) :
      Moves s .stop { s with running := false, owner := .waking 0 }
  | launch (ho : s.owner = .launch) (ha : s.acceptThread = none) :
      Moves s .launch { s with owner := .idle, acceptThread := some .loop }
  | wake {attempt pipe : ℕ} (ho : s.owner = .waking attempt)
      (ha : s.acceptThread = some (.connect pipe false)) :
      Moves s (.wake true) { s with acceptThread := some (.connect pipe true), owner := .joining }
  | wakeAgain {attempt : ℕ} (ho : s.owner = .waking attempt) (hlt : attempt + 1 < wakeAttempts) :
      Moves s (.wake false) { s with owner := .waking (attempt + 1) }
  | wakeLast {attempt : ℕ} (ho : s.owner = .waking attempt) (hle : wakeAttempts ≤ attempt + 1) :
      Moves s (.wake false) { s with owner := .joining }
  | joinAccept (ho : s.owner = .joining) (ha : s.acceptThread = some .exited) :
      Moves s .joinAccept { s with owner := .clearing, acceptThread := none }
  | joinWorker (ho : s.owner = .clearing) {t : ℕ} {workers : List ℕ} (hw : s.workers = t :: workers)
      (ht : s.hasExited t = true) : Moves s .joinWorker { s with workers }
  | cleared (ho : s.owner = .clearing) (hw : s.workers = []) :
      Moves s .joinWorker { s with owner := .idle }
  | client {pipe : ℕ} (ha : s.acceptThread = some (.connect pipe false)) :
      Moves s .client { s with acceptThread := some (.connect pipe true) }
  | loop (ha : s.acceptThread = some .loop) :
      Moves s .proceed { s with acceptThread := some (if s.running then .create else .exited) }
  | sleep (ha : s.acceptThread = some .sleep) :
      Moves s .proceed { s with acceptThread := some .loop }
  | failed {pipe : ℕ} (ha : s.acceptThread = some (.failed pipe)) :
      Moves s .proceed { s with acceptThread := some .loop, closed := pipe :: s.closed }
  | check {pipe : ℕ} (ha : s.acceptThread = some (.check pipe)) :
      Moves s .proceed
        { s with acceptThread := some (if s.running then .opening pipe else .refuse pipe) }
  | refuse {pipe : ℕ} (ha : s.acceptThread = some (.refuse pipe)) :
      Moves s .proceed { s with acceptThread := some .exited, closed := pipe :: s.closed }
  | test {pipe id t : ℕ} {todo doomed : List ℕ} {thread : ConnectionThread}
      (ha : s.acceptThread = some (.sweep pipe id (t :: todo) doomed))
      (ht : s.threads[t]? = some thread) :
      Moves s .proceed
        { s with
          acceptThread :=
            some (.sweep pipe id todo (if thread.isFinished then t :: doomed else doomed)) }
  | swept {pipe id : ℕ} (ha : s.acceptThread = some (.sweep pipe id [] [])) :
      Moves s .proceed { s with acceptThread := some (.spawn pipe id) }
  | spawn {pipe id : ℕ} (ha : s.acceptThread = some (.spawn pipe id)) :
      Moves s .proceed
        { s with
          acceptThread := some .loop
          threads := s.threads ++ [{ pipe, connectionId := id }]
          workers := s.workers ++ [s.threads.length] }
  | create (ha : s.acceptThread = some .create) :
      Moves s (.create true)
        { s with acceptThread := some (.connect s.pipes false), pipes := s.pipes + 1 }
  | createFails (ha : s.acceptThread = some .create) :
      Moves s (.create false) { s with acceptThread := some .sleep }
  | connect {pipe : ℕ} (ha : s.acceptThread = some (.connect pipe true)) :
      Moves s (.connect true) { s with acceptThread := some (.check pipe) }
  | connectFails {pipe : ℕ} {opened : Bool} (ha : s.acceptThread = some (.connect pipe opened)) :
      Moves s (.connect false) { s with acceptThread := some (.failed pipe) }
  | opened {pipe : ℕ} (ha : s.acceptThread = some (.opening pipe)) (now : ℤ) :
      Moves s (.opened now)
        { s.perform (.connectionOpened now) with
          acceptThread := some (.sweep pipe (s.privacyState.connectionOpened now).2 s.workers []) }
  | join {pipe id t : ℕ} {todo doomed : List ℕ}
      (ha : s.acceptThread = some (.sweep pipe id todo doomed)) (hmem : t ∈ doomed)
      (ht : s.hasExited t = true) :
      Moves s (.join t)
        { s with
          acceptThread := some (.sweep pipe id todo (doomed.erase t))
          workers := s.workers.erase t }
  | closes {t : ℕ} {thread : ConnectionThread} {input : Input} (ht : s.threads[t]? = some thread)
      (hphase : thread.phase = .serving) (hpoint : thread.worker.point = .returned) :
      Moves s (.thread t input)
        { s.update t { thread with phase := .closed } with closed := thread.pipe :: s.closed }
  | works {t : ℕ} {thread : ConnectionThread} {input : Input} {worker : Worker}
      (ht : s.threads[t]? = some thread) (hphase : thread.phase = .serving)
      (hpoint : thread.worker.point ≠ .returned) (hfound : s.found input = true)
      (hs : thread.worker.step input = some worker) :
      Moves s (.thread t input) (s.update t { thread with worker })
  | finishes {t : ℕ} {thread : ConnectionThread} {input : Input} (ht : s.threads[t]? = some thread)
      (hphase : thread.phase = .closed) :
      Moves s (.thread t input) (s.update t { thread with phase := .finished })
  | exits {t : ℕ} {thread : ConnectionThread} {input : Input} (ht : s.threads[t]? = some thread)
      (hphase : thread.phase = .finished) :
      Moves s (.thread t input) (s.update t { thread with phase := .exited })
  | call {t : ℕ} {thread : ConnectionThread} {call : Call} {worker : Worker} {now : ℤ}
      (ht : s.threads[t]? = some thread) (hphase : thread.phase = .serving)
      (hcall : thread.worker.call = some call)
      (hs : thread.worker.step (.reply
        (s.privacyState.perform (call.op thread.connectionId now)).2.isAccepted) = some worker) :
      Moves s (.call t now)
        ((s.perform (call.op thread.connectionId now)).update t { thread with worker })
  | tick (now : ℤ) : Moves s (.tick now) (s.perform (.tick now))
  | setEnabled (enabled : Bool) : Moves s (.setEnabled enabled) (s.perform (.setEnabled enabled))

variable {s s' : Listener} {l : Label}

theorem moves_of_proceed {point : AcceptPoint} (ha : s.acceptThread = some point)
    (hs : s.proceed point = some s') : Moves s .proceed s' := by
  cases point with
  | loop => exact Option.some.inj hs ▸ .loop ha
  | create => cases hs
  | sleep => exact Option.some.inj hs ▸ .sleep ha
  | connect pipe opened => cases hs
  | failed pipe => exact Option.some.inj hs ▸ .failed ha
  | check pipe => exact Option.some.inj hs ▸ .check ha
  | refuse pipe => exact Option.some.inj hs ▸ .refuse ha
  | opening pipe => cases hs
  | sweep pipe id todo doomed =>
    cases todo with
    | nil =>
      cases doomed with
      | nil => exact Option.some.inj hs ▸ .swept ha
      | cons t doomed => cases hs
    | cons t todo =>
      simp only [Listener.proceed] at hs
      split at hs
      case h_1 thread ht => exact Option.some.inj hs ▸ .test ha ht
      case h_2 => cases hs
  | spawn pipe id => exact Option.some.inj hs ▸ .spawn ha
  | exited => cases hs

theorem moves_of_thread {t : ℕ} {thread : ConnectionThread} {input : Input}
    (ht : s.threads[t]? = some thread) (hfound : s.found input = true)
    (hs : s.moveThread t thread input = some s') : Moves s (.thread t input) s' := by
  unfold moveThread at hs
  split at hs
  case h_1 hphase =>
    split at hs
    case isTrue hpoint => exact Option.some.inj hs ▸ .closes ht hphase hpoint
    case isFalse hpoint =>
      obtain ⟨worker, hw, rfl⟩ := Option.map_eq_some_iff.mp hs
      exact .works ht hphase hpoint hfound hw
  case h_2 hphase => exact Option.some.inj hs ▸ .finishes ht hphase
  case h_3 hphase => exact Option.some.inj hs ▸ .exits ht hphase
  case h_4 => cases hs

theorem moves_of_step (hs : s.step l = some s') : Moves s l s' := by
  cases l with
  | start =>
    obtain ⟨ho, hs⟩ := Option.ite_none_right_eq_some.mp hs
    obtain rfl := Option.some.inj hs
    unfold Listener.start
    cases hr : s.running with
    | true => exact .startAgain ho hr
    | false => exact .start ho hr
  | stop =>
    obtain ⟨ho, hs⟩ := Option.ite_none_right_eq_some.mp hs
    obtain rfl := Option.some.inj hs
    unfold Listener.stop
    cases hr : s.running with
    | true => exact .stop ho hr
    | false => exact .stopAgain ho hr
  | launch =>
    obtain ⟨⟨ho, ha⟩, hs⟩ := Option.ite_none_right_eq_some.mp hs
    exact Option.some.inj hs ▸ .launch ho ha
  | wake connected =>
    simp only [Listener.step] at hs
    split at hs
    case h_2 => cases hs
    case h_1 attempt ho =>
      unfold Listener.wake at hs
      cases connected with
      | true =>
        simp only [if_true] at hs
        split at hs
        case h_1 pipe ha => exact Option.some.inj hs ▸ .wake ho ha
        case h_2 => cases hs
      | false =>
        simp only [Bool.false_eq_true, if_false] at hs
        split at hs
        case isTrue hlt => exact Option.some.inj hs ▸ .wakeAgain ho hlt
        case isFalse hle => exact Option.some.inj hs ▸ .wakeLast ho (by omega)
  | joinAccept =>
    obtain ⟨⟨ho, ha⟩, hs⟩ := Option.ite_none_right_eq_some.mp hs
    exact Option.some.inj hs ▸ .joinAccept ho ha
  | joinWorker =>
    obtain ⟨ho, hs⟩ := Option.ite_none_right_eq_some.mp hs
    split at hs
    case h_1 hw => exact Option.some.inj hs ▸ .cleared ho hw
    case h_2 t workers hw =>
      obtain ⟨ht, hs⟩ := Option.ite_none_right_eq_some.mp hs
      exact Option.some.inj hs ▸ .joinWorker ho hw ht
  | client =>
    simp only [Listener.step] at hs
    split at hs
    case h_1 pipe ha => exact Option.some.inj hs ▸ .client ha
    case h_2 => cases hs
  | proceed =>
    obtain ⟨point, ha, hs⟩ := Option.bind_eq_some_iff.mp hs
    exact moves_of_proceed ha hs
  | create created =>
    obtain ⟨ha, hs⟩ := Option.ite_none_right_eq_some.mp hs
    cases created with
    | true => exact Option.some.inj hs ▸ .create ha
    | false => exact Option.some.inj hs ▸ .createFails ha
  | connect connected =>
    simp only [Listener.step] at hs
    split at hs
    case h_2 => cases hs
    case h_1 pipe opened ha =>
      cases connected with
      | true =>
        obtain ⟨rfl, hs⟩ := Option.ite_none_right_eq_some.mp hs
        exact Option.some.inj hs ▸ .connect ha
      | false => exact Option.some.inj hs ▸ .connectFails ha
  | opened now =>
    simp only [Listener.step] at hs
    split at hs
    case h_1 pipe ha => exact Option.some.inj hs ▸ .opened ha now
    case h_2 => cases hs
  | join t =>
    simp only [Listener.step] at hs
    split at hs
    case h_2 => cases hs
    case h_1 pipe id todo doomed ha =>
      obtain ⟨⟨hmem, ht⟩, hs⟩ := Option.ite_none_right_eq_some.mp hs
      exact Option.some.inj hs ▸ .join ha hmem ht
  | thread t input =>
    simp only [Listener.step] at hs
    split at hs
    case h_2 => cases hs
    case h_1 thread ht =>
      obtain ⟨hfound, hs⟩ := Option.ite_none_right_eq_some.mp hs
      exact moves_of_thread ht hfound hs
  | call t now =>
    simp only [Listener.step] at hs
    split at hs
    case h_2 => cases hs
    case h_1 thread ht =>
      split at hs
      case h_2 => cases hs
      case h_1 call hphase hcall =>
        obtain ⟨worker, hw, rfl⟩ := Option.map_eq_some_iff.mp hs
        exact .call ht hphase hcall hw
  | tick now => exact Option.some.inj hs ▸ .tick now
  | setEnabled enabled => exact Option.some.inj hs ▸ .setEnabled enabled

/-! ### Pipe handles -/

def held (s : Listener) : List ℕ :=
  (s.acceptThread.bind AcceptPoint.handle).toList ++ s.threads.filterMap ConnectionThread.handle

/-- Every pipe that was created has one holder, or has been closed once. -/
def Accounted (s : Listener) : Prop := Custody.Accounts s.held s.closed s.pipes

theorem Accounted.congr (h : Accounted s)
    (haccept : s'.acceptThread.bind AcceptPoint.handle = s.acceptThread.bind AcceptPoint.handle)
    (hthreads : s'.threads = s.threads) (hclosed : s'.closed = s.closed)
    (hpipes : s'.pipes = s.pipes) : Accounted s' := by
  have hheld : s'.held = s.held := by rw [held, held, haccept, hthreads]
  rw [Accounted, hheld, hclosed, hpipes]
  exact h

theorem Accounted.close (h : Accounted s) {point : AcceptPoint} {pipe : ℕ}
    (ha : s.acceptThread = some point) (hpoint : point.handle = some pipe)
    {point' : AcceptPoint} (hpoint' : point'.handle = none) :
    Accounted { s with acceptThread := some point', closed := pipe :: s.closed } := by
  have hheld : s.held = pipe :: s.threads.filterMap ConnectionThread.handle := by
    simp [held, ha, hpoint]
  rw [Accounted, hheld] at h
  simpa [Accounted, held, hpoint'] using Custody.Accounts.close h

theorem Accounted.update (h : Accounted s) {t : ℕ} {thread thread' : ConnectionThread}
    (ht : s.threads[t]? = some thread) (hhandle : thread'.handle = thread.handle) :
    Accounted (s.update t thread') := by
  have hheld : (s.update t thread').held = s.held := by
    simp only [held, Listener.update, Custody.filterMap_set ht hhandle]
  rw [Accounted, hheld]
  exact h

theorem Accounted.step (h : Accounted s) (hs : Moves s l s') : Accounted s' := by
  cases hs with
  | startAgain ho hr => exact h
  | start ho hr => exact h
  | stopAgain ho hr => exact h
  | stop ho hr => exact h
  | launch ho ha => exact h.congr (by rw [ha]; rfl) rfl rfl rfl
  | wake ho ha => exact h.congr (by rw [ha]; rfl) rfl rfl rfl
  | wakeAgain ho hlt => exact h
  | wakeLast ho hle => exact h
  | joinAccept ho ha => exact h.congr (by rw [ha]; rfl) rfl rfl rfl
  | joinWorker ho hw ht => exact h
  | cleared ho hw => exact h
  | client ha => exact h.congr (by rw [ha]; rfl) rfl rfl rfl
  | loop ha => exact h.congr (by rw [ha]; cases s.running <;> rfl) rfl rfl rfl
  | sleep ha => exact h.congr (by rw [ha]; rfl) rfl rfl rfl
  | failed ha => exact h.close ha rfl rfl
  | check ha => exact h.congr (by rw [ha]; cases s.running <;> rfl) rfl rfl rfl
  | refuse ha => exact h.close ha rfl rfl
  | test ha ht => exact h.congr (by rw [ha]; rfl) rfl rfl rfl
  | swept ha => exact h.congr (by rw [ha]; rfl) rfl rfl rfl
  | @spawn pipe id ha =>
    -- The handle passes from the accept thread to the new thread.
    refine Custody.Accounts.transfer h ?_
    have hnew : ConnectionThread.handle { pipe, connectionId := id } = some pipe := rfl
    simp [held, ha, AcceptPoint.handle, List.filterMap_append, hnew]
  | create ha =>
    have hheld : s.held = s.threads.filterMap ConnectionThread.handle := by
      simp [held, ha, AcceptPoint.handle]
    rw [Accounted, hheld] at h
    simpa [Accounted, held, AcceptPoint.handle] using Custody.Accounts.create h
  | createFails ha => exact h.congr (by rw [ha]; rfl) rfl rfl rfl
  | connect ha => exact h.congr (by rw [ha]; rfl) rfl rfl rfl
  | connectFails ha => exact h.congr (by rw [ha]; rfl) rfl rfl rfl
  | opened ha now => exact h.congr (by rw [ha]; rfl) rfl rfl rfl
  | join ha hmem ht => exact h.congr (by rw [ha]; rfl) rfl rfl rfl
  | @closes t thread input ht hphase hpoint =>
    have hhandle : thread.handle = some thread.pipe := by simp [ConnectionThread.handle, hphase]
    have hperm := Custody.perm_filterMap_set (b := { thread with phase := .closed }) ht hhandle rfl
    refine Custody.Accounts.close (Custody.Accounts.transfer h ?_)
    exact List.perm_middle.symm.trans (hperm.symm.append_left _)
  | works ht hphase hpoint hfound hs => exact h.update ht rfl
  | finishes ht hphase => exact h.update ht (by simp [ConnectionThread.handle, hphase])
  | exits ht hphase => exact h.update ht (by simp [ConnectionThread.handle, hphase])
  | @call t thread call worker now ht hphase hcall hs =>
    have h' : Accounted (s.perform (call.op thread.connectionId now)) := h
    exact h'.update ht rfl
  | tick now => exact h
  | setEnabled enabled => exact h

/-! ### The owner and the accept thread -/

def Controlled (s : Listener) : Prop :=
  match s.owner with
  | .idle =>
    if s.running then ∃ point, s.acceptThread = some point ∧ point.leaving = false
    else s.acceptThread = none ∧ s.workers = []
  | .launch => s.running = true ∧ s.acceptThread = none ∧ s.workers = []
  | .waking _ => s.running = false ∧ ∃ point, s.acceptThread = some point
  | .joining => s.running = false ∧ ∃ point, s.acceptThread = some point
  | .clearing => s.running = false ∧ s.acceptThread = none

/-- The accept thread moves on, and stays in its loop while `running_` is true. -/
theorem Controlled.accept (h : Controlled s) {point point' : AcceptPoint}
    (ha : s.acceptThread = some point) (howner : s'.owner = s.owner)
    (hrunning : s'.running = s.running) (ha' : s'.acceptThread = some point')
    (hleaving : s.running = true → point.leaving = false → point'.leaving = false) :
    Controlled s' := by
  unfold Controlled at h ⊢
  rw [howner, hrunning]
  cases ho : s.owner with
  | idle =>
    simp only [ho] at h ⊢
    split at h
    case isTrue hr =>
      obtain ⟨point₀, ha₀, hpoint⟩ := h
      obtain rfl := Option.some.inj (ha.symm.trans ha₀)
      rw [if_pos hr]
      exact ⟨point', ha', hleaving hr hpoint⟩
    case isFalse hr => simp [ha] at h
  | launch => simp [ho, ha] at h
  | waking attempt =>
    simp only [ho] at h ⊢
    exact ⟨h.1, point', ha'⟩
  | joining =>
    simp only [ho] at h ⊢
    exact ⟨h.1, point', ha'⟩
  | clearing => simp [ho, ha] at h

theorem Controlled.congr (h : Controlled s) (howner : s'.owner = s.owner)
    (hrunning : s'.running = s.running) (haccept : s'.acceptThread = s.acceptThread)
    (hworkers : s'.workers = s.workers) : Controlled s' := by
  unfold Controlled at h ⊢
  rw [howner, hrunning, haccept, hworkers]
  exact h

theorem Controlled.step (h : Controlled s) (hs : Moves s l s') : Controlled s' := by
  cases hs with
  | startAgain ho hr => exact h
  | start ho hr =>
    simp only [Controlled, ho, hr, Bool.false_eq_true, if_false] at h
    exact ⟨rfl, h⟩
  | stopAgain ho hr => exact h
  | stop ho hr =>
    simp only [Controlled, ho, hr, if_true] at h
    obtain ⟨point, ha, -⟩ := h
    exact ⟨rfl, point, ha⟩
  | launch ho ha =>
    simp only [Controlled, ho] at h
    simp [Controlled, h.1, AcceptPoint.leaving]
  | wake ho ha =>
    simp only [Controlled, ho] at h
    exact ⟨h.1, _, rfl⟩
  | wakeAgain ho hlt =>
    simp only [Controlled, ho] at h
    exact h
  | wakeLast ho hle =>
    simp only [Controlled, ho] at h
    exact h
  | joinAccept ho ha =>
    simp only [Controlled, ho] at h
    exact ⟨h.1, rfl⟩
  | joinWorker ho hw ht =>
    simp only [Controlled, ho] at h ⊢
    exact h
  | cleared ho hw =>
    simp only [Controlled, ho] at h
    simp [Controlled, h.1, h.2, hw]
  | client ha => exact h.accept ha rfl rfl rfl fun _ _ => rfl
  | loop ha =>
    refine h.accept ha rfl rfl rfl fun hr _ => ?_
    simp [hr, AcceptPoint.leaving]
  | sleep ha => exact h.accept ha rfl rfl rfl fun _ _ => rfl
  | failed ha => exact h.accept ha rfl rfl rfl fun _ _ => rfl
  | check ha =>
    refine h.accept ha rfl rfl rfl fun hr _ => ?_
    simp [hr, AcceptPoint.leaving]
  | refuse ha => exact h.accept ha rfl rfl rfl (by simp [AcceptPoint.leaving])
  | test ha ht => exact h.accept ha rfl rfl rfl fun _ _ => rfl
  | swept ha => exact h.accept ha rfl rfl rfl fun _ _ => rfl
  | spawn ha => exact h.accept ha rfl rfl rfl fun _ _ => rfl
  | create ha => exact h.accept ha rfl rfl rfl fun _ _ => rfl
  | createFails ha => exact h.accept ha rfl rfl rfl fun _ _ => rfl
  | connect ha => exact h.accept ha rfl rfl rfl fun _ _ => rfl
  | connectFails ha => exact h.accept ha rfl rfl rfl fun _ _ => rfl
  | opened ha now => exact h.accept ha rfl rfl rfl fun _ _ => rfl
  | join ha hmem ht => exact h.accept ha rfl rfl rfl fun _ _ => rfl
  | closes ht hphase hpoint => exact h.congr rfl rfl rfl rfl
  | works ht hphase hpoint hfound hs => exact h.congr rfl rfl rfl rfl
  | finishes ht hphase => exact h.congr rfl rfl rfl rfl
  | exits ht hphase => exact h.congr rfl rfl rfl rfl
  | call ht hphase hcall hs => exact h.congr rfl rfl rfl rfl
  | tick now => exact h.congr rfl rfl rfl rfl
  | setEnabled enabled => exact h.congr rfl rfl rfl rfl

/-! ### The list of workers -/

/-- `workers_` lists every thread that may still run, and a sweep works on a part of it. -/
structure Tracked (s : Listener) : Prop where
  nodup : s.workers.Nodup
  lt : ∀ t ∈ s.workers, t < s.threads.length
  alive : ∀ t thread, s.threads[t]? = some thread → thread.phase ≠ .exited → t ∈ s.workers
  sweep : ∀ pipe id todo doomed, s.acceptThread = some (.sweep pipe id todo doomed) →
    (todo ++ doomed).Nodup ∧ (∀ t ∈ todo ++ doomed, t ∈ s.workers) ∧
      ∀ t ∈ doomed, ∃ thread, s.threads[t]? = some thread ∧ thread.isFinished = true

theorem exited_of_hasExited {t : ℕ} (h : s.hasExited t = true) {thread : ConnectionThread}
    (ht : s.threads[t]? = some thread) : thread.phase = .exited := by
  simpa [hasExited, ht] using h

theorem Tracked.accept (h : Tracked s)
    (haccept : ∀ pipe id todo doomed, s'.acceptThread ≠ some (.sweep pipe id todo doomed))
    (hthreads : s'.threads = s.threads) (hworkers : s'.workers = s.workers) : Tracked s' where
  nodup := hworkers ▸ h.nodup
  lt := by
    rw [hworkers, hthreads]
    exact h.lt
  alive := by
    rw [hworkers, hthreads]
    exact h.alive
  sweep pipe id todo doomed ha := absurd ha (haccept pipe id todo doomed)

theorem Tracked.congr (h : Tracked s) (haccept : s'.acceptThread = s.acceptThread)
    (hthreads : s'.threads = s.threads) (hworkers : s'.workers = s.workers) : Tracked s' where
  nodup := hworkers ▸ h.nodup
  lt := by
    rw [hworkers, hthreads]
    exact h.lt
  alive := by
    rw [hworkers, hthreads]
    exact h.alive
  sweep := by
    rw [haccept, hthreads, hworkers]
    exact h.sweep

theorem Tracked.update (h : Tracked s) {t : ℕ} {thread thread' : ConnectionThread}
    (ht : s.threads[t]? = some thread)
    (hexited : thread.phase = .exited → thread'.phase = .exited)
    (hfinished : thread.isFinished = true → thread'.isFinished = true) :
    Tracked (s.update t thread') where
  nodup := h.nodup
  lt u hu := by
    simpa [Listener.update] using h.lt u hu
  alive u thread₀ hu hphase := by
    simp only [Listener.update, List.getElem?_set] at hu
    split at hu
    case isTrue heq =>
      subst heq
      refine h.alive t thread ht fun he => hphase ?_
      obtain ⟨-, hu⟩ := Option.ite_none_right_eq_some.mp hu
      obtain rfl := Option.some.inj hu
      exact hexited he
    case isFalse => exact h.alive u thread₀ hu hphase
  sweep pipe id todo doomed ha := by
    obtain ⟨hnodup, hmem, hdoomed⟩ := h.sweep pipe id todo doomed ha
    refine ⟨hnodup, hmem, fun u hu => ?_⟩
    obtain ⟨thread₀, hthread, hfin⟩ := hdoomed u hu
    by_cases heq : t = u
    · subst heq
      obtain rfl := Option.some.inj (ht.symm.trans hthread)
      exact ⟨thread', List.getElem?_set_self (List.getElem?_eq_some_iff.mp ht).1, hfinished hfin⟩
    · exact ⟨thread₀, (List.getElem?_set_ne heq).trans hthread, hfin⟩

theorem Tracked.spawn (h : Tracked s) (pipe id : ℕ) :
    Tracked { s with
      acceptThread := some .loop
      threads := s.threads ++ [{ pipe, connectionId := id }]
      workers := s.workers ++ [s.threads.length] } where
  nodup := by
    refine List.nodup_append.mpr ⟨h.nodup, List.nodup_singleton _, ?_⟩
    rintro t ht u hu rfl
    have := h.lt t ht
    have := List.mem_singleton.mp hu
    omega
  lt t ht := by
    rw [List.length_append, List.length_singleton]
    rcases List.mem_append.mp ht with ht | ht
    · have := h.lt t ht
      omega
    · have := List.mem_singleton.mp ht
      omega
  alive t thread ht hphase := by
    rw [List.getElem?_append] at ht
    split at ht
    case isTrue hlt => exact List.mem_append_left _ (h.alive t thread ht hphase)
    case isFalse hge =>
      have hlt := (List.getElem?_eq_some_iff.mp ht).1
      rw [List.length_singleton] at hlt
      exact List.mem_append_right _ (List.mem_singleton.mpr (by omega))
  sweep _ _ _ _ ha := by cases ha

theorem Tracked.step (h : Tracked s) (hc : Controlled s) (hs : Moves s l s') : Tracked s' := by
  cases hs with
  | startAgain ho hr => exact h
  | start ho hr => exact h.congr rfl rfl rfl
  | stopAgain ho hr => exact h
  | stop ho hr => exact h.congr rfl rfl rfl
  | launch ho ha => exact h.accept (by simp) rfl rfl
  | wake ho ha => exact h.accept (by simp) rfl rfl
  | wakeAgain ho hlt => exact h.congr rfl rfl rfl
  | wakeLast ho hle => exact h.congr rfl rfl rfl
  | joinAccept ho ha => exact h.accept (by simp) rfl rfl
  | @joinWorker ho t workers hw ht =>
    have hnone : s.acceptThread = none := by
      simp only [Controlled, ho] at hc
      exact hc.2
    have hnodup := h.nodup
    rw [hw, List.nodup_cons] at hnodup
    refine ⟨hnodup.2, fun u hu => h.lt u (hw ▸ List.mem_cons_of_mem t hu), ?_, by simp [hnone]⟩
    intro u thread hu hphase
    have hmem := h.alive u thread hu hphase
    rw [hw] at hmem
    rcases List.mem_cons.mp hmem with rfl | hmem
    · exact absurd (exited_of_hasExited ht hu) hphase
    · exact hmem
  | cleared ho hw => exact h.congr rfl rfl rfl
  | client ha => exact h.accept (by simp) rfl rfl
  | loop ha => exact h.accept (by cases s.running <;> simp) rfl rfl
  | sleep ha => exact h.accept (by simp) rfl rfl
  | failed ha => exact h.accept (by simp) rfl rfl
  | check ha => exact h.accept (by cases s.running <;> simp) rfl rfl
  | refuse ha => exact h.accept (by simp) rfl rfl
  | @test pipe id t todo doomed thread ha ht =>
    obtain ⟨hnodup, hmem, hdoomed⟩ := h.sweep pipe id _ doomed ha
    refine ⟨h.nodup, h.lt, h.alive, ?_⟩
    rintro _ _ _ _ ⟨⟩
    rw [List.cons_append, List.nodup_cons] at hnodup
    split
    case isTrue hfinished =>
      refine ⟨List.nodup_middle.mpr (List.nodup_cons.mpr hnodup), fun u hu => hmem u ?_, ?_⟩
      · exact List.perm_middle.mem_iff.mp hu
      · intro u hu
        rcases List.mem_cons.mp hu with rfl | hu
        · exact ⟨thread, ht, hfinished⟩
        · exact hdoomed u hu
    case isFalse =>
      exact ⟨hnodup.2, fun u hu => hmem u (List.mem_cons_of_mem t hu), hdoomed⟩
  | swept ha => exact h.accept (by simp) rfl rfl
  | spawn ha => exact h.spawn _ _
  | create ha => exact h.accept (by simp) rfl rfl
  | createFails ha => exact h.accept (by simp) rfl rfl
  | connect ha => exact h.accept (by simp) rfl rfl
  | connectFails ha => exact h.accept (by simp) rfl rfl
  | opened ha now =>
    refine ⟨h.nodup, h.lt, h.alive, ?_⟩
    rintro _ _ _ _ ⟨⟩
    rw [List.append_nil]
    exact ⟨h.nodup, fun t ht => ht, by simp⟩
  | @join pipe id t todo doomed ha hmem ht =>
    obtain ⟨hnodup, hsub, hdoomed⟩ := h.sweep pipe id todo doomed ha
    have hperm : (todo ++ doomed).Perm (t :: (todo ++ doomed.erase t)) :=
      ((List.perm_cons_erase hmem).append_left todo).trans List.perm_middle
    have hnodup' := hperm.nodup_iff.mp hnodup
    rw [List.nodup_cons] at hnodup'
    refine ⟨h.nodup.erase t, fun u hu => h.lt u (List.mem_of_mem_erase hu), ?_, ?_⟩
    · intro u thread hu hphase
      refine (List.mem_erase_of_ne ?_).mpr (h.alive u thread hu hphase)
      rintro rfl
      exact hphase (exited_of_hasExited ht hu)
    · rintro _ _ _ _ ⟨⟩
      refine ⟨hnodup'.2, fun u hu => ?_, fun u hu => hdoomed u (List.mem_of_mem_erase hu)⟩
      have hne : u ≠ t := by
        rintro rfl
        exact hnodup'.1 hu
      exact (List.mem_erase_of_ne hne).mpr (hsub u (hperm.mem_iff.mpr (List.mem_cons_of_mem t hu)))
  | @closes t thread input ht hphase hpoint =>
    have h' : Tracked (s.update t { thread with phase := .closed }) :=
      h.update ht (by simp [hphase]) (by simp [ConnectionThread.isFinished, hphase])
    exact h'.congr rfl rfl rfl
  | works ht hphase hpoint hfound hs => exact h.update ht (by simp [hphase]) id
  | finishes ht hphase =>
    exact h.update ht (by simp [hphase]) (by simp [ConnectionThread.isFinished, hphase])
  | exits ht hphase => exact h.update ht (fun _ => rfl) fun _ => rfl
  | @call t thread call worker now ht hphase hcall hs =>
    have h' : Tracked (s.perform (call.op thread.connectionId now)) := h.congr rfl rfl rfl
    exact h'.update ht (by simp [hphase]) id
  | tick now => exact h.congr rfl rfl rfl
  | setEnabled enabled => exact h.congr rfl rfl rfl

/-! ### Runs -/

structure Sound (s : Listener) : Prop where
  accounted : Accounted s
  controlled : Controlled s
  tracked : Tracked s
  placed : ∀ (t : ℕ) (thread : ConnectionThread), s.threads[t]? = some thread → thread.Placed

theorem sound_init (timeout : ℤ) : Sound (init timeout) where
  accounted := Custody.accounts_nil
  controlled := ⟨rfl, rfl⟩
  tracked :=
    { nodup := List.nodup_nil
      lt := by simp [init]
      alive := by simp [init]
      sweep := by simp [init] }
  placed := by simp [init]

theorem placed_update {threads : List ConnectionThread}
    (h : ∀ (t : ℕ) (thread : ConnectionThread), threads[t]? = some thread → thread.Placed)
    {t : ℕ} {thread' : ConnectionThread} (hplaced : thread'.Placed) :
    ∀ (u : ℕ) (thread : ConnectionThread),
      (threads.set t thread')[u]? = some thread → thread.Placed := by
  intro u thread hu
  rcases List.mem_or_eq_of_mem_set (List.mem_of_getElem? hu) with hmem | rfl
  · obtain ⟨j, hj⟩ := List.getElem?_of_mem hmem
    exact h j thread hj
  · exact hplaced

theorem Sound.step (h : Sound s) (hs : s.step l = some s') : Sound s' := by
  have hmoves := moves_of_step hs
  refine ⟨h.accounted.step hmoves, h.controlled.step hmoves,
    h.tracked.step h.controlled hmoves, ?_⟩
  cases hmoves with
  | spawn ha =>
    intro t thread ht
    rcases List.mem_append.mp (List.mem_of_getElem? ht) with hmem | hmem
    · obtain ⟨j, hj⟩ := List.getElem?_of_mem hmem
      exact h.placed j thread hj
    · obtain rfl := List.mem_singleton.mp hmem
      exact ⟨Worker.placed_init, by simp⟩
  | @closes t thread input ht hphase hpoint =>
    exact placed_update h.placed ⟨(h.placed t thread ht).1, fun _ => hpoint⟩
  | @works t thread input worker ht hphase hpoint hfound hw =>
    exact placed_update h.placed ⟨(h.placed t thread ht).1.step hw, by simp [hphase]⟩
  | @finishes t thread input ht hphase =>
    obtain ⟨hplaced, hpoint⟩ := h.placed t thread ht
    exact placed_update h.placed ⟨hplaced, fun _ => hpoint (by simp [hphase])⟩
  | @exits t thread input ht hphase =>
    obtain ⟨hplaced, hpoint⟩ := h.placed t thread ht
    exact placed_update h.placed ⟨hplaced, fun _ => hpoint (by simp [hphase])⟩
  | @call t thread call worker now ht hphase hcall hw =>
    exact placed_update h.placed ⟨(h.placed t thread ht).1.step hw, by simp [hphase]⟩
  | _ => exact h.placed

theorem run_sound {timeout : ℤ} {labels : List Label}
    (hrun : Transition.run Listener.step (init timeout) labels = some s) : Sound s :=
  Transition.run_invariant (fun _ _ _ h hs => Sound.step h hs) (sound_init timeout) hrun

structure Disciplined (s : Listener) : Prop where
  /-- No handle is held by two threads. -/
  holders : s.held.Nodup
  closedOnce : s.closed.Nodup
  /-- No handle is used once it is closed. -/
  used : ∀ pipe ∈ s.held, pipe ∉ s.closed
  /-- No handle is lost. -/
  kept : ∀ pipe < s.pipes, pipe ∈ s.held ∨ pipe ∈ s.closed
  /-- The owner touches `workers_` only where there is no accept thread. -/
  exclusive : s.owner = .clearing → s.acceptThread = none
  /-- Every thread that may still run can be joined, and once. -/
  joinable : s.workers.Nodup ∧
    ∀ t thread, s.threads[t]? = some thread → thread.phase ≠ .exited → t ∈ s.workers

theorem Sound.disciplined (h : Sound s) : Disciplined s where
  holders := Custody.Accounts.nodup_held h.accounted
  closedOnce := Custody.Accounts.nodup_closed h.accounted
  used _ hp := Custody.Accounts.notMem_closed h.accounted hp
  kept _ hp := (Custody.Accounts.mem_iff h.accounted).mpr hp
  exclusive ho := by
    have hc := h.controlled
    simp only [Controlled, ho] at hc
    exact hc.2
  joinable := ⟨h.tracked.nodup, h.tracked.alive⟩

/-- In every interleaving of the owner, the accept thread and the connection threads. -/
theorem disciplined_of_run {timeout : ℤ} {labels : List Label}
    (hrun : Transition.run Listener.step (init timeout) labels = some s) : Disciplined s :=
  (run_sound hrun).disciplined

def accepting : List Label :=
  [.start, .launch, .proceed, .create true, .client, .connect true, .proceed, .opened 0, .proceed,
    .proceed, .thread 0 (.proceed true), .proceed, .create true, .client, .thread 0 .ended,
    .connect true, .thread 0 (.proceed true), .proceed, .call 0 10, .opened 20,
    .thread 0 .nothing, .thread 0 .nothing, .proceed, .thread 0 .nothing, .join 0]

def accepted : Listener :=
  (Transition.run Listener.step (init 1500) accepting).get (by decide +kernel)

theorem disciplined_accepted : accepted.held = [1] ∧ Disciplined accepted :=
  ⟨by decide +kernel, disciplined_of_run (Option.some_get _).symm⟩

/-! ### Behind `stop` -/

/-- The labels of callers, which are no steps of the threads of the server. -/
def Label.outside : Label → Bool
  | .start | .stop | .tick _ | .setEnabled _ => true
  | _ => false

structure Quiet (s : Listener) : Prop where
  acceptThread : s.acceptThread = none
  exited : ∀ thread ∈ s.threads, thread.phase = .exited
  closed : s.closed.Perm (List.range s.pipes)
  /-- No thread can take a step, so nobody of the server calls the privacy state. -/
  refused : ∀ l : Label, l.outside = false → s.step l = none

theorem Sound.quiet (h : Sound s) (ho : s.owner = .idle) (hr : s.running = false) : Quiet s := by
  have hc := h.controlled
  simp only [Controlled, ho, hr, Bool.false_eq_true, if_false] at hc
  obtain ⟨hnone, hworkers⟩ := hc
  have hexited : ∀ (t : ℕ) (thread : ConnectionThread), s.threads[t]? = some thread →
      thread.phase = .exited := by
    intro t thread ht
    by_contra hphase
    simpa [hworkers] using h.tracked.alive t thread ht hphase
  have hmem : ∀ thread ∈ s.threads, thread.phase = .exited := by
    intro thread hmem
    obtain ⟨t, ht⟩ := List.getElem?_of_mem hmem
    exact hexited t thread ht
  constructor
  case acceptThread => exact hnone
  case exited => exact hmem
  case closed =>
    have hheld : s.held = [] := by
      simp only [held, hnone, Option.bind_none, Option.toList_none, List.nil_append,
        List.filterMap_eq_nil_iff]
      intro thread hthread
      simp [ConnectionThread.handle, hmem thread hthread]
    have ha := h.accounted
    rw [Accounted, hheld] at ha
    exact Custody.Accounts.closed_perm ha
  case refused =>
    intro l hl
    rw [Option.eq_none_iff_forall_ne_some]
    intro s' hs
    cases moves_of_step hs with
    | startAgain | start | stopAgain | stop | tick | setEnabled => cases hl
    | launch ho' => simp [ho] at ho'
    | wake ho' => simp [ho] at ho'
    | wakeAgain ho' => simp [ho] at ho'
    | wakeLast ho' => simp [ho] at ho'
    | joinAccept ho' => simp [ho] at ho'
    | joinWorker ho' => simp [ho] at ho'
    | cleared ho' => simp [ho] at ho'
    | closes ht hphase => simp [hexited _ _ ht] at hphase
    | works ht hphase => simp [hexited _ _ ht] at hphase
    | finishes ht hphase => simp [hexited _ _ ht] at hphase
    | exits ht hphase => simp [hexited _ _ ht] at hphase
    | call ht hphase => simp [hexited _ _ ht] at hphase
    | client ha | loop ha | sleep ha | failed ha | check ha | refuse ha | test ha | swept ha
    | spawn ha | create ha | createFails ha | connect ha | connectFails ha | opened ha
    | join ha => simp [hnone] at ha

/-- Once `stop` has returned, and until the next `start`. -/
theorem still_of_run {timeout : ℤ} {labels : List Label}
    (hrun : Transition.run Listener.step (init timeout) labels = some s) (ho : s.owner = .idle)
    (hr : s.running = false) : Quiet s :=
  (run_sound hrun).quiet ho hr

def serving : List Label :=
  [.start, .launch, .proceed, .create true, .client, .connect true, .proceed, .opened 0, .proceed,
    .proceed, .proceed, .create true, .thread 0 (.proceed true), .stop]

def stopping : List Label :=
  [.wake true, .connect true, .proceed, .thread 0 .nothing, .proceed, .joinAccept, .tick 20,
    .thread 0 (.proceed false), .thread 0 (.proceed false), .thread 0 .nothing,
    .thread 0 .nothing, .thread 0 .nothing, .joinWorker, .joinWorker]

def served : Listener := (Transition.run Listener.step (init 1500) serving).get (by decide +kernel)

def stopped : Listener := (Transition.run Listener.step served stopping).get (by decide +kernel)

theorem still_stopped : stopped.pipes = 2 ∧ Quiet stopped :=
  ⟨by decide +kernel, still_of_run
    (Transition.run_append.mpr ⟨served, (Option.some_get _).symm, (Option.some_get _).symm⟩)
    (by decide +kernel) (by decide +kernel)⟩

end Listener

end PrivacyGuard
