import PrivacyGuard.Foundations.KeyedList

/-! # The privacy state machine

`PrivacyState` aggregates every pipe connection into one protection mode. Each
operation below is one critical section of the class, so a run of the shared
object is a sequence of operations. The traversal order of the client map is the
order of the entries; the 64-bit identifiers and counters are natural numbers that
wrap explicitly, and times are ticks of the steady clock.
-/

namespace PrivacyGuard

abbrev Bytes := List UInt8

def wordSize : ℕ := 2 ^ 64

def increment (n : ℕ) : ℕ := (n + 1) % wordSize

/-- Effective protection state consumed by the display controller. -/
inductive Mode
  | disabled
  | awaitingConnection
  | safe
  | sensitive
  | disconnected
  deriving DecidableEq, Repr

/-- Protocol state tracked independently for each pipe connection. -/
structure Client where
  clientId : Bytes := []
  lastSequence : Option UInt64 := none
  sensitive : Option Bool := none
  lastUpdate : ℤ
  helloReceived : Bool := false
  deriving DecidableEq, Repr

abbrev Entry := Σ _ : ℕ, Client

abbrev Clients := AList fun _ : ℕ => Client

structure PrivacyState where
  clients : Clients := ∅
  disconnectedClients : ℕ := 0
  livenessTimeout : ℤ
  nextConnectionId : ℕ := 1
  enabled : Bool := true
  untrustedFailureLatched : Bool := false
  deriving DecidableEq

namespace PrivacyState

/-- A failed client that had published is counted; any other failure is latched. -/
def recordConnectionFailure (s : PrivacyState) (client : Client) : PrivacyState :=
  if client.sensitive.isSome then
    { s with disconnectedClients := increment s.disconnectedClients }
  else
    { s with untrustedFailureLatched := true }

/-- Strictly increasing sequences reject replayed or reordered messages. -/
def acceptSequence (client : Client) (sequence : UInt64) : Client × Bool :=
  match client.lastSequence with
  | some last =>
    if sequence ≤ last then (client, false)
    else ({ client with lastSequence := some sequence }, true)
  | none => ({ client with lastSequence := some sequence }, true)

/-- Re-enabling requires every client to publish a fresh explicit state. -/
def setEnabled (s : PrivacyState) (enabled : Bool) : PrivacyState :=
  if s.enabled = enabled then s
  else if enabled then
    { s with
      enabled := enabled
      disconnectedClients := 0
      untrustedFailureLatched := false
      clients := s.clients.mapVal fun _ client => { client with sensitive := none } }
  else { s with enabled := enabled }

/-- New clients remain awaiting until HELLO and STATE both arrive. -/
def connectionOpened (s : PrivacyState) (now : ℤ) : PrivacyState × ℕ :=
  let connectionId := s.nextConnectionId
  -- `emplace` leaves an entry that is already there untouched.
  let clients :=
    if connectionId ∈ s.clients then s.clients
    else s.clients.insert connectionId { lastUpdate := now }
  ({ s with clients := clients, nextConnectionId := increment connectionId }, connectionId)

/-- Some other live connection completed its handshake under this identity. -/
def duplicateIdentity (s : PrivacyState) (connectionId : ℕ) (clientId : Bytes) : Bool :=
  s.clients.entries.any fun e =>
    e.1 ≠ connectionId && e.2.helloReceived && e.2.clientId == clientId

def helloReceived (s : PrivacyState) (connectionId : ℕ) (clientId : Bytes)
    (now : ℤ) : PrivacyState × Bool :=
  match s.clients.lookup connectionId with
  | none => (s, false)
  | some current =>
    if current.helloReceived then (s, false)
    else if s.duplicateIdentity connectionId clientId then (s, false)
    else
      let current := { current with clientId, helloReceived := true, lastUpdate := now }
      ({ s with clients := s.clients.replace connectionId current }, true)

def stateReceived (s : PrivacyState) (connectionId : ℕ) (sequence : UInt64)
    (sensitive : Bool) (now : ℤ) : PrivacyState × Bool :=
  match s.clients.lookup connectionId with
  | none => (s, false)
  | some current =>
    if !current.helloReceived then (s, false)
    else
      match acceptSequence current sequence with
      | (_, false) => (s, false)
      | (current, true) =>
        let initialState := !current.sensitive.isSome
        let current := { current with sensitive := some sensitive, lastUpdate := now }
        ({ s with
            clients := s.clients.replace connectionId current
            -- A fresh, explicit state after a failure is the recovery signal.
            untrustedFailureLatched := false
            disconnectedClients :=
              if initialState && decide (0 < s.disconnectedClients) then
                s.disconnectedClients - 1
              else s.disconnectedClients }, true)

def goodbyeReceived (s : PrivacyState) (connectionId : ℕ) : PrivacyState × Bool :=
  match s.clients.lookup connectionId with
  | none => (s, false)
  | some current =>
    if !current.helloReceived then (s, false)
    else ({ s with clients := s.clients.erase connectionId }, true)

/-- The shared body of `protocolError` and `connectionClosed`. -/
def removeFailed (s : PrivacyState) (connectionId : ℕ) : PrivacyState :=
  match s.clients.lookup connectionId with
  | none => s
  | some current =>
    { s.recordConnectionFailure current with clients := s.clients.erase connectionId }

def protocolError (s : PrivacyState) (connectionId : ℕ) : PrivacyState :=
  s.removeFailed connectionId

def connectionClosed (s : PrivacyState) (connectionId : ℕ) : PrivacyState :=
  s.removeFailed connectionId

def expired (s : PrivacyState) (now : ℤ) (client : Client) : Bool :=
  decide (now - client.lastUpdate > s.livenessTimeout)

/-- One iteration of the erasing loop of `tick`. -/
def tickEntry (now : ℤ) (s : PrivacyState) (e : Entry) : PrivacyState :=
  if s.expired now e.2 then
    { s.recordConnectionFailure e.2 with clients := s.clients.erase e.1 }
  else s

/-- Clients that stop publishing state are removed and counted as disconnected. -/
def tick (s : PrivacyState) (now : ℤ) : PrivacyState :=
  s.clients.entries.foldl (tickEntry now) s

/-- The aggregation loop of `mode`, with the sensitivity found so far. -/
def aggregate : Bool → List Entry → Mode
  | anySensitive, [] => if anySensitive then .sensitive else .safe
  | anySensitive, e :: rest =>
    match e.2.helloReceived, e.2.sensitive with
    | true, some flag => aggregate (anySensitive || flag) rest
    | _, _ => .awaitingConnection

/-- Any uncertain client state wins over safe output. -/
def mode (s : PrivacyState) : Mode :=
  if !s.enabled then .disabled
  else if s.untrustedFailureLatched || decide (0 < s.disconnectedClients) then .disconnected
  else if s.clients.entries.isEmpty then .awaitingConnection
  else aggregate false s.clients.entries

end PrivacyState

inductive Op
  | connectionOpened (now : ℤ)
  | helloReceived (connectionId : ℕ) (clientId : Bytes) (now : ℤ)
  | stateReceived (connectionId : ℕ) (sequence : UInt64) (sensitive : Bool)
      (now : ℤ)
  | goodbyeReceived (connectionId : ℕ)
  | protocolError (connectionId : ℕ)
  | connectionClosed (connectionId : ℕ)
  | tick (now : ℤ)
  | setEnabled (enabled : Bool)
  deriving DecidableEq, Repr

inductive Reply
  | done
  | opened (connectionId : ℕ)
  | accepted (result : Bool)
  deriving DecidableEq, Repr

abbrev Event := Op × Reply

namespace PrivacyState

def perform (s : PrivacyState) : Op → PrivacyState × Reply
  | .connectionOpened now =>
    let (s', connectionId) := s.connectionOpened now
    (s', .opened connectionId)
  | .helloReceived connectionId clientId now =>
    let (s', result) := s.helloReceived connectionId clientId now
    (s', .accepted result)
  | .stateReceived connectionId sequence sensitive now =>
    let (s', result) := s.stateReceived connectionId sequence sensitive now
    (s', .accepted result)
  | .goodbyeReceived connectionId =>
    let (s', result) := s.goodbyeReceived connectionId
    (s', .accepted result)
  | .protocolError connectionId => (s.protocolError connectionId, .done)
  | .connectionClosed connectionId => (s.connectionClosed connectionId, .done)
  | .tick now => (s.tick now, .done)
  | .setEnabled enabled => (s.setEnabled enabled, .done)

def init (livenessTimeout : ℤ) : PrivacyState := { livenessTimeout }

/-- Perform a list of calls in order, collecting the completed calls, newest first. -/
def execFrom (s : PrivacyState) (h : List Event) : List Op → PrivacyState × List Event
  | [] => (s, h)
  | op :: ops => execFrom (s.perform op).1 ((op, (s.perform op).2) :: h) ops

def exec (livenessTimeout : ℤ) (ops : List Op) : PrivacyState × List Event :=
  execFrom (init livenessTimeout) [] ops

end PrivacyState

def opens : Op → ℕ
  | .connectionOpened _ => 1
  | _ => 0

def openings (ops : List Op) : ℕ := (ops.map opens).sum

end PrivacyGuard
