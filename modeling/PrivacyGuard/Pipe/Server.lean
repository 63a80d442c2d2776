import PrivacyGuard.Foundations.Transition
import PrivacyGuard.Pipe.Framing
import PrivacyGuard.State.Basic

/-! # The pipe server

Connection workers, the accept loop, the tick callback and the settings dialog share
one privacy state. A step of the server is one critical section of the state or one
local move of a worker, in any interleaving.
-/

namespace PrivacyGuard

/-- The connection by itself, before any failure. -/
def PrivacyState.alone (id : ℕ) (s : PrivacyState) : PrivacyState :=
  { s with
    clients := s.clients.filter fun e => decide (e.1 = id)
    disconnectedClients := 0
    untrustedFailureLatched := false }

/-- A completed call with the states around it. -/
structure Record where
  before : PrivacyState
  op : Op
  reply : Reply
  after : PrivacyState

namespace Record

def of (s : PrivacyState) (op : Op) : Record :=
  { before := s, op, reply := (s.perform op).2, after := (s.perform op).1 }

def opens (id : ℕ) (r : Record) : Bool := decide (r.reply = .opened id)

def removes (id : ℕ) (r : Record) : Bool :=
  (r.before.clients.lookup id).isSome && !(r.after.clients.lookup id).isSome

/-- What the call adds to `disconnectedClients` for the connection. -/
def counted (id : ℕ) (r : Record) : ℕ := ((r.before.alone id).perform r.op).1.disconnectedClients

/-- The call sets the latch for the connection. -/
def latched (id : ℕ) (r : Record) : Bool :=
  ((r.before.alone id).perform r.op).1.untrustedFailureLatched

/-- The failures that the call records for the connection. -/
def failures (id : ℕ) (r : Record) : ℕ := r.counted id + (r.latched id).toNat

/-- The counter and the latch change by what the call records for the connections. -/
structure Accounted (r : Record) : Prop where
  count : r.after.disconnectedClients ≤
    r.before.disconnectedClients + (r.before.clients.keys.map fun id => r.counted id).sum
  latch : r.after.untrustedFailureLatched = true →
    r.before.untrustedFailureLatched = true ∨ ∃ id, r.latched id = true

def goodbye (id : ℕ) (r : Record) : Bool :=
  decide (r.op = .goodbyeReceived id) && decide (r.reply = .accepted true)

end Record

def Op.targets (id : ℕ) : Op → Bool
  | .helloReceived connectionId _ _ => decide (connectionId = id)
  | .stateReceived connectionId _ _ _ => decide (connectionId = id)
  | .goodbyeReceived connectionId => decide (connectionId = id)
  | .protocolError connectionId => decide (connectionId = id)
  | .connectionClosed connectionId => decide (connectionId = id)
  | _ => false

def Reply.isAccepted : Reply → Bool
  | .accepted result => result
  | _ => false

/-- The shared state, the workers with their connection ids in the order of their start,
and the calls completed so far, newest first. -/
structure Server where
  privacyState : PrivacyState
  running : Bool := true
  workers : List (ℕ × Worker) := []
  log : List Record := []

namespace Server

inductive Label
  | accept (now : ℤ)
  /-- Local computation of a worker. -/
  | proceed (slot : ℕ)
  /-- What the pipe of a worker offers when it peeks. -/
  | nothing (slot : ℕ)
  | bytes (slot : ℕ) (chunk : Bytes)
  | ended (slot : ℕ)
  /-- The critical section a worker is about to enter. -/
  | call (slot : ℕ) (now : ℤ)
  | tick (now : ℤ)
  | setEnabled (enabled : Bool)
  | stop
  deriving DecidableEq

def Label.opens : Label → ℕ
  | .accept _ => 1
  | _ => 0

def start (livenessTimeout : ℤ) : Server := { privacyState := .init livenessTimeout }

def perform (s : Server) (op : Op) : Server :=
  { s with
    privacyState := (s.privacyState.perform op).1
    log := .of s.privacyState op :: s.log }

def move (s : Server) (slot : ℕ) (input : Input) : Option Server :=
  match s.workers[slot]? with
  | some (id, w) => (w.step input).map fun w => { s with workers := s.workers.set slot (id, w) }
  | none => none

def step (s : Server) : Label → Option Server
  | .accept now =>
    if s.running then
      let id := (s.privacyState.connectionOpened now).2
      some { s.perform (.connectionOpened now) with workers := s.workers ++ [(id, {})] }
    else none
  | .proceed slot => s.move slot (.proceed s.running)
  | .nothing slot => s.move slot .nothing
  | .bytes slot chunk => s.move slot (.bytes chunk)
  | .ended slot => s.move slot .ended
  | .call slot now =>
    match s.workers[slot]? with
    | some (id, w) =>
      match w.call with
      | some call =>
        let op := call.op id now
        (s.perform op).move slot (.reply (s.privacyState.perform op).2.isAccepted)
      | none => none
    | none => none
  | .tick now => some (s.perform (.tick now))
  | .setEnabled enabled => some (s.perform (.setEnabled enabled))
  | .stop => some { s with running := false }

end Server

end PrivacyGuard
