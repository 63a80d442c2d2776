import PrivacyGuard.Foundations.Custody
import PrivacyGuard.Pipe.Lifecycle

/-! # The threads of the pipe server

The owner starts and stops the server, the accept thread creates the pipe instances and
starts a thread for each connection, and connection threads serve their pipes. A step is
one action of one thread. The answers of Windows are inputs of the steps.
-/

namespace PrivacyGuard

def wakeAttempts : ℕ := 10

inductive OwnerPoint
  | idle
  /-- About to create the accept thread. -/
  | launch
  /-- In `wake_accept_thread`, behind a number of failed attempts. -/
  | waking (attempt : ℕ)
  /-- Joining the accept thread. -/
  | joining
  /-- In `workers_.clear()`, which joins one worker after the other. -/
  | clearing
  deriving DecidableEq, Repr

inductive AcceptPoint
  /-- The test of the accept loop. -/
  | loop
  /-- About to create a pipe instance. -/
  | create
  /-- Sleeping after the creation has failed. -/
  | sleep
  /-- In `ConnectNamedPipe`; a client may have opened the instance. -/
  | connect (pipe : ℕ) (opened : Bool)
  /-- Connecting has failed; about to close the instance. -/
  | failed (pipe : ℕ)
  /-- The second test of `running_`. -/
  | check (pipe : ℕ)
  /-- About to close the instance and to leave the loop. -/
  | refuse (pipe : ℕ)
  /-- About to call `connection_opened`. -/
  | opening (pipe : ℕ)
  /-- In `remove_completed_workers`, with the workers still to be tested, and those found
  finished and still to be joined. -/
  | sweep (pipe connectionId : ℕ) (todo doomed : List ℕ)
  /-- About to start the thread of the connection. -/
  | spawn (pipe connectionId : ℕ)
  | exited
  deriving DecidableEq, Repr

def AcceptPoint.handle : AcceptPoint → Option ℕ
  | .loop | .create | .sleep | .exited => none
  | .connect pipe _ => some pipe
  | .failed pipe => some pipe
  | .check pipe => some pipe
  | .refuse pipe => some pipe
  | .opening pipe => some pipe
  | .sweep pipe _ _ _ => some pipe
  | .spawn pipe _ => some pipe

/-- The accept thread has found `running_` false and does not come back to its loop. -/
def AcceptPoint.leaving : AcceptPoint → Bool
  | .refuse _ | .exited => true
  | _ => false

/-- What a connection thread does around `process_connection`. -/
inductive Phase
  /-- In `process_connection`, whose last action closes the pipe. -/
  | serving
  /-- About to set `finished`. -/
  | closed
  /-- About to exit. -/
  | finished
  | exited
  deriving DecidableEq, Repr

structure ConnectionThread where
  pipe : ℕ
  connectionId : ℕ
  worker : Worker := {}
  phase : Phase := .serving
  deriving DecidableEq, Repr

/-- The server object, its threads, and the pipe instances by the order of their creation.
Threads are named by the order of their start; `workers` are those in `workers_`. -/
structure Listener where
  privacyState : PrivacyState
  running : Bool := false
  owner : OwnerPoint := .idle
  /-- The accept thread while it is joinable. -/
  acceptThread : Option AcceptPoint := none
  threads : List ConnectionThread := []
  workers : List ℕ := []
  pipes : ℕ := 0
  /-- The pipe handles closed so far, newest first. -/
  closed : List ℕ := []
  /-- The calls on the privacy state so far, newest first. -/
  log : List Record := []

namespace ConnectionThread

def isFinished (t : ConnectionThread) : Bool :=
  match t.phase with
  | .finished | .exited => true
  | _ => false

def handle (t : ConnectionThread) : Option ℕ :=
  match t.phase with
  | .serving => some t.pipe
  | _ => none

/-- The thread runs `process_connection` to its end before it goes on. -/
def Placed (t : ConnectionThread) : Prop :=
  t.worker.Placed ∧ (t.phase ≠ .serving → t.worker.point = .returned)

end ConnectionThread

namespace Listener

inductive Label
  /-- The owner calls `start` or `stop`. -/
  | start
  | stop
  | launch
  | wake (connected : Bool)
  | joinAccept
  /-- The owner joins the first of the workers, or returns behind the last. -/
  | joinWorker
  /-- A client opens the instance that the accept thread offers. -/
  | client
  /-- A local move of the accept thread. -/
  | proceed
  | create (created : Bool)
  | connect (connected : Bool)
  | opened (now : ℤ)
  /-- The accept thread joins a finished worker. -/
  | join (t : ℕ)
  /-- A move of a connection thread on an input; its calls are separate. -/
  | thread (t : ℕ) (input : Input)
  | call (t : ℕ) (now : ℤ)
  /-- Calls of others. -/
  | tick (now : ℤ)
  | setEnabled (enabled : Bool)
  deriving DecidableEq

def Label.opens : Label → ℕ
  | .opened _ => 1
  | _ => 0

def init (livenessTimeout : ℤ) : Listener := { privacyState := .init livenessTimeout }

def perform (s : Listener) (op : Op) : Listener :=
  { s with
    privacyState := (s.privacyState.perform op).1
    log := .of s.privacyState op :: s.log }

/-- Starting is idempotent so OBS lifecycle callbacks cannot duplicate listeners. -/
def start (s : Listener) : Listener :=
  if s.running then s else { s with running := true, owner := .launch }

/-- Wake the blocking accept call before joining all background workers. -/
def stop (s : Listener) : Listener :=
  if s.running then { s with running := false, owner := .waking 0 } else s

/-- A short-lived client releases `ConnectNamedPipe` during plugin shutdown. -/
def wake (s : Listener) (attempt : ℕ) (connected : Bool) : Option Listener :=
  if connected then
    match s.acceptThread with
    | some (.connect pipe false) =>
      some { s with acceptThread := some (.connect pipe true), owner := .joining }
    | _ => none
  else if attempt + 1 < wakeAttempts then some { s with owner := .waking (attempt + 1) }
  else some { s with owner := .joining }

def proceed (s : Listener) (point : AcceptPoint) : Option Listener :=
  match point with
  | .loop => some { s with acceptThread := some (if s.running then .create else .exited) }
  | .sleep => some { s with acceptThread := some .loop }
  | .failed pipe => some { s with acceptThread := some .loop, closed := pipe :: s.closed }
  | .check pipe =>
    some { s with acceptThread := some (if s.running then .opening pipe else .refuse pipe) }
  | .refuse pipe => some { s with acceptThread := some .exited, closed := pipe :: s.closed }
  | .sweep pipe connectionId (t :: todo) doomed =>
    match s.threads[t]? with
    | some thread =>
      let doomed := if thread.isFinished then t :: doomed else doomed
      some { s with acceptThread := some (.sweep pipe connectionId todo doomed) }
    | none => none
  | .sweep pipe connectionId [] [] =>
    some { s with acceptThread := some (.spawn pipe connectionId) }
  | .spawn pipe connectionId =>
    some { s with
      acceptThread := some .loop
      threads := s.threads ++ [{ pipe, connectionId }]
      workers := s.workers ++ [s.threads.length] }
  | _ => none

def update (s : Listener) (t : ℕ) (thread : ConnectionThread) : Listener :=
  { s with threads := s.threads.set t thread }

def moveThread (s : Listener) (t : ℕ) (thread : ConnectionThread) (input : Input) :
    Option Listener :=
  match thread.phase with
  | .serving =>
    if thread.worker.point = .returned then
      some { s.update t { thread with phase := .closed } with closed := thread.pipe :: s.closed }
    else (thread.worker.step input).map fun worker => s.update t { thread with worker }
  | .closed => some (s.update t { thread with phase := .finished })
  | .finished => some (s.update t { thread with phase := .exited })
  | .exited => none

def hasExited (s : Listener) (t : ℕ) : Bool :=
  match s.threads[t]? with
  | some thread => decide (thread.phase = .exited)
  | none => false

def found (s : Listener) : Input → Bool
  | .proceed running => decide (running = s.running)
  | .reply _ => false
  | _ => true

def step (s : Listener) : Label → Option Listener
  | .start => if s.owner = .idle then some s.start else none
  | .stop => if s.owner = .idle then some s.stop else none
  | .launch =>
    if s.owner = .launch ∧ s.acceptThread = none then
      some { s with owner := .idle, acceptThread := some .loop }
    else none
  | .wake connected =>
    match s.owner with
    | .waking attempt => s.wake attempt connected
    | _ => none
  | .joinAccept =>
    if s.owner = .joining ∧ s.acceptThread = some .exited then
      some { s with owner := .clearing, acceptThread := none }
    else none
  | .joinWorker =>
    if s.owner = .clearing then
      match s.workers with
      | [] => some { s with owner := .idle }
      | t :: workers => if s.hasExited t then some { s with workers } else none
    else none
  | .client =>
    match s.acceptThread with
    | some (.connect pipe false) => some { s with acceptThread := some (.connect pipe true) }
    | _ => none
  | .proceed => s.acceptThread.bind s.proceed
  | .create created =>
    if s.acceptThread = some .create then
      if created then
        some { s with acceptThread := some (.connect s.pipes false), pipes := s.pipes + 1 }
      else some { s with acceptThread := some .sleep }
    else none
  | .connect connected =>
    match s.acceptThread with
    | some (.connect pipe opened) =>
      if connected then
        if opened then some { s with acceptThread := some (.check pipe) } else none
      else some { s with acceptThread := some (.failed pipe) }
    | _ => none
  | .opened now =>
    match s.acceptThread with
    | some (.opening pipe) =>
      some { s.perform (.connectionOpened now) with
        acceptThread := some (.sweep pipe (s.privacyState.connectionOpened now).2 s.workers []) }
    | _ => none
  | .join t =>
    match s.acceptThread with
    | some (.sweep pipe connectionId todo doomed) =>
      if t ∈ doomed ∧ s.hasExited t = true then
        some { s with
          acceptThread := some (.sweep pipe connectionId todo (doomed.erase t))
          workers := s.workers.erase t }
      else none
    | _ => none
  | .thread t input =>
    match s.threads[t]? with
    | some thread => if s.found input then s.moveThread t thread input else none
    | none => none
  | .call t now =>
    match s.threads[t]? with
    | some thread =>
      match thread.phase, thread.worker.call with
      | .serving, some call =>
        let op := call.op thread.connectionId now
        (thread.worker.step (.reply (s.privacyState.perform op).2.isAccepted)).map fun worker =>
          (s.perform op).update t { thread with worker }
      | _, _ => none
    | none => none
  | .tick now => some (s.perform (.tick now))
  | .setEnabled enabled => some (s.perform (.setEnabled enabled))

end Listener

end PrivacyGuard
