import PrivacyGuard.Protocol.Frame

/-! # Connection workers

`process_connection` serves one pipe: it buffers the bytes it reads, applies every
complete frame to the privacy state and removes its entry at the end. A worker
moves from one program point to the next on an input: the value of `running_`,
what its pipe offers, or the reply to the call it makes.
-/

namespace PrivacyGuard

/-- Windows transport limit of one read. -/
def pipeBufferSize : ℕ := 4096

inductive Call
  | helloReceived (clientId : Bytes)
  | stateReceived (sequence : UInt64) (sensitive : Bool)
  | goodbyeReceived
  | protocolError
  | connectionClosed
  deriving DecidableEq, Repr

def Frame.call (frame : Frame) : Call :=
  match frame.kind with
  | .hello => .helloReceived frame.clientId
  | .state => .stateReceived frame.sequence frame.sensitive
  | .goodbye => .goodbyeReceived

def Call.op (connectionId : ℕ) (now : ℤ) : Call → Op
  | .helloReceived clientId => .helloReceived connectionId clientId now
  | .stateReceived sequence sensitive => .stateReceived connectionId sequence sensitive now
  | .goodbyeReceived => .goodbyeReceived connectionId
  | .protocolError => .protocolError connectionId
  | .connectionClosed => .connectionClosed connectionId

inductive FrameResult
  | continues
  | goodbye
  | invalid
  deriving DecidableEq, Repr

/-- The result of `apply_frame`, from the reply of the privacy state. -/
def applyFrame (frame : Frame) (accepted : Bool) : FrameResult :=
  match frame.kind with
  | .hello => if accepted then .continues else .invalid
  | .state => if accepted then .continues else .invalid
  | .goodbye => if accepted then .goodbye else .invalid

inductive Point
  /-- The test of the read loop. -/
  | loop
  /-- The body of the read loop, about to peek at the pipe. -/
  | read
  /-- The test of the extraction loop. -/
  | scan
  /-- About to apply the frame of the line that ends at a newline. -/
  | apply (frame : Frame) (newline : ℕ)
  /-- About to call `protocol_error` in `fail_protocol`. -/
  | fail
  /-- Behind the read loop. -/
  | cleanup
  /-- About to call `connection_closed`. -/
  | close
  | returned
  deriving DecidableEq, Repr

structure Worker where
  pending : Bytes := []
  graceful : Bool := false
  stateEntryActive : Bool := true
  point : Point := .loop
  deriving DecidableEq, Repr

inductive Input
  /-- Local computation, under a value of `running_`. -/
  | proceed (running : Bool)
  /-- Nothing is available on the pipe. -/
  | nothing
  | bytes (chunk : Bytes)
  /-- Peeking or reading fails. -/
  | ended
  /-- The privacy state returns from the call. -/
  | reply (accepted : Bool)
  deriving DecidableEq, Repr

namespace Worker

def call (w : Worker) : Option Call :=
  match w.point with
  | .apply frame _ => some frame.call
  | .fail => some .protocolError
  | .close => some .connectionClosed
  | _ => none

/-- Look for a complete line and parse it; behind the last one, check the buffer. -/
def scanPending (w : Worker) : Worker :=
  match w.pending.idxOf? newline with
  | some position =>
    match parseFrame (w.pending.take position) with
    | some frame => { w with point := .apply frame position }
    | none => { w with point := .fail }
  | none =>
    -- Reject an oversized partial frame even when it followed valid frames.
    if !w.graceful && decide (maxFrameSize < w.pending.length) then { w with point := .fail }
    else { w with point := .loop }

/-- Go on after `apply_frame`. -/
def applied (w : Worker) (position : ℕ) : FrameResult → Worker
  | .invalid => { w with point := .fail }
  | .continues => { w with pending := w.pending.drop (position + 1), point := .scan }
  | .goodbye =>
    { pending := w.pending.drop (position + 1), graceful := true, stateEntryActive := false
      point := .loop }

def step (w : Worker) : Input → Option Worker
  | .proceed running =>
    match w.point with
    | .loop => some { w with point := if running && !w.graceful then .read else .cleanup }
    | .scan => some w.scanPending
    | .cleanup =>
      some { w with point := if w.stateEntryActive && running then .close else .returned }
    | _ => none
  | .nothing => if w.point = .read then some { w with point := .loop } else none
  | .bytes chunk =>
    if w.point = .read ∧ chunk ≠ [] ∧ chunk.length ≤ pipeBufferSize then
      some { w with pending := w.pending ++ chunk, point := .scan }
    else none
  | .ended => if w.point = .read then some { w with point := .cleanup } else none
  | .reply accepted =>
    match w.point with
    | .apply frame position => some (w.applied position (applyFrame frame accepted))
    | .fail => some { w with graceful := true, stateEntryActive := false, point := .loop }
    | .close => some { w with point := .returned }
    | _ => none

inductive Moves (w : Worker) : Input → Worker → Prop
  | loop (hp : w.point = .loop) (running : Bool) :
      Moves w (.proceed running)
        { w with point := if running && !w.graceful then .read else .cleanup }
  | scan (hp : w.point = .scan) (running : Bool) : Moves w (.proceed running) w.scanPending
  | cleanup (hp : w.point = .cleanup) (running : Bool) :
      Moves w (.proceed running)
        { w with point := if w.stateEntryActive && running then .close else .returned }
  | nothing (hp : w.point = .read) : Moves w .nothing { w with point := .loop }
  | bytes (hp : w.point = .read) {chunk : Bytes} (hne : chunk ≠ [])
      (hlen : chunk.length ≤ pipeBufferSize) :
      Moves w (.bytes chunk) { w with pending := w.pending ++ chunk, point := .scan }
  | ended (hp : w.point = .read) : Moves w .ended { w with point := .cleanup }
  | apply {frame : Frame} {position : ℕ} (hp : w.point = .apply frame position)
      (accepted : Bool) :
      Moves w (.reply accepted) (w.applied position (applyFrame frame accepted))
  | fail (hp : w.point = .fail) (accepted : Bool) :
      Moves w (.reply accepted)
        { w with graceful := true, stateEntryActive := false, point := .loop }
  | close (hp : w.point = .close) (accepted : Bool) :
      Moves w (.reply accepted) { w with point := .returned }

theorem moves_of_step {w w' : Worker} {input : Input} (h : w.step input = some w') :
    Moves w input w' := by
  cases input with
  | proceed running =>
    cases hp : w.point <;> simp only [step, hp, reduceCtorEq] at h
    case loop => exact Option.some.inj h ▸ .loop hp running
    case scan => exact Option.some.inj h ▸ .scan hp running
    case cleanup => exact Option.some.inj h ▸ .cleanup hp running
  | nothing =>
    obtain ⟨hp, hw⟩ := Option.ite_none_right_eq_some.mp h
    exact Option.some.inj hw ▸ .nothing hp
  | bytes chunk =>
    obtain ⟨⟨hp, hne, hlen⟩, hw⟩ := Option.ite_none_right_eq_some.mp h
    exact Option.some.inj hw ▸ .bytes hp hne hlen
  | ended =>
    obtain ⟨hp, hw⟩ := Option.ite_none_right_eq_some.mp h
    exact Option.some.inj hw ▸ .ended hp
  | reply accepted =>
    cases hp : w.point <;> simp only [step, hp, reduceCtorEq] at h
    case apply frame position => exact Option.some.inj h ▸ .apply hp accepted
    case fail => exact Option.some.inj h ▸ .fail hp accepted
    case close => exact Option.some.inj h ▸ .close hp accepted

end Worker

/-! ### One connection on its own -/

/-- A worker with the reads its pipe will deliver before the end of the stream and the
calls it has made, newest first. -/
structure Session where
  worker : Worker := {}
  reads : List Bytes
  calls : List Call := []
  deriving DecidableEq, Repr

namespace Session

/-- Move the worker; it stays where it is on an input it does not take. -/
def advance (s : Session) (input : Input) : Session :=
  { s with worker := (s.worker.step input).getD s.worker }

/-- One step of `process_connection` with `running_` true. The privacy state accepts or
rejects a call depending on all calls so far. -/
def step (accepts : List Call → Bool) (s : Session) : Session :=
  match s.worker.call with
  | some call => { s with calls := call :: s.calls }.advance (.reply (accepts (call :: s.calls)))
  | none =>
    match s.worker.point, s.reads with
    | .read, chunk :: reads => { s with reads }.advance (.bytes chunk)
    | .read, [] => s.advance .ended
    | _, _ => s.advance (.proceed true)

end Session

end PrivacyGuard
