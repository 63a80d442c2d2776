import PrivacyGuard.Extension.Frames
import PrivacyGuard.Foundations.Transition

/-! # The pipe client

`PipeClient` owns the connection of the extension to the plugin: it creates sockets,
writes frames on them, and keeps a refresh interval and a reconnect timeout. The
runtime calls its methods and delivers the events of sockets and timers one at a
time. Sockets are named by the order of their creation, timers by their handles.
-/

namespace PrivacyGuard

/-- Whether a socket is still connecting, is `open`, or neither. -/
inductive ReadyState
  | opening
  | opened
  | closed
  deriving DecidableEq, Repr

inductive ConnectionState
  | connected
  | disconnected
  deriving DecidableEq, Repr

structure Socket where
  readyState : ReadyState := .opening
  /-- The texts written on the socket, in order. -/
  written : List Bytes := []
  connectEmitted : Bool := false
  closeEmitted : Bool := false
  /-- The client has ended or destroyed the socket. -/
  released : Bool := false
  deriving DecidableEq, Repr

/-- From this number on, adding one to a JavaScript number has no effect. -/
def incrementLimit : ℕ := 2 ^ 53

/-- `++` on a JavaScript number that holds a natural number. -/
def incrementNumber (n : ℕ) : ℕ := if n < incrementLimit then n + 1 else n

/-- The fields of the client, the sockets it has created, the timers that are running with
the sockets their callbacks captured, and the states it has announced, newest first. -/
structure PipeClient where
  clientId : Bytes
  uuid : Uuid clientId
  socket : Option ℕ := none
  stateRefreshTimer : Option ℕ := none
  reconnectTimer : Option ℕ := none
  sequence : ℕ := 0
  latestStatus : PrivacyStatus := .sensitive
  disposed : Bool := false
  sockets : List Socket := []
  intervals : List (ℕ × ℕ) := []
  timeouts : List ℕ := []
  nextHandle : ℕ := 0
  connectionStates : List ConnectionState := []
  deriving DecidableEq

namespace PipeClient

def readyState (c : PipeClient) (k : ℕ) : ReadyState :=
  match c.sockets[k]? with
  | some socket => socket.readyState
  | none => .closed

def updateSocket (c : PipeClient) (k : ℕ) (f : Socket → Socket) : PipeClient :=
  { c with sockets := c.sockets.modify k f }

def write (c : PipeClient) (k : ℕ) (text : Bytes) : PipeClient :=
  c.updateSocket k fun socket => { socket with written := socket.written ++ [text] }

def destroy (c : PipeClient) (k : ℕ) : PipeClient :=
  c.updateSocket k fun socket => { socket with readyState := .closed, released := true }

/-- `socket.end(text)`. -/
def endWith (c : PipeClient) (k : ℕ) (text : Bytes) : PipeClient :=
  (c.write k text).destroy k

/-- `socket.write(stateFrame(++this.#sequence, this.#latestStatus))`. -/
def writeState (c : PipeClient) (k : ℕ) : PipeClient :=
  let sequence := incrementNumber c.sequence
  write { c with sequence } k (stateFrame sequence c.latestStatus)

/-- Only one socket may be connecting or connected at a time. -/
def connect (c : PipeClient) : PipeClient :=
  if c.disposed || c.socket.isSome then c
  else { c with sockets := c.sockets ++ [{}], socket := some c.sockets.length }

/-- Cache every state so a reconnect immediately receives the latest result. -/
def publish (c : PipeClient) (status : PrivacyStatus) : PipeClient :=
  let c := { c with latestStatus := status }
  match c.socket with
  | some k => if c.readyState k = .opened then c.writeState k else c
  | none => c

def clearStateRefresh (c : PipeClient) : PipeClient :=
  match c.stateRefreshTimer with
  | some handle =>
    { c with
      intervals := c.intervals.filter fun interval => decide (interval.1 ≠ handle)
      stateRefreshTimer := none }
  | none => c

def clearReconnect (c : PipeClient) : PipeClient :=
  match c.reconnectTimer with
  | some handle =>
    { c with
      timeouts := c.timeouts.filter fun timeout => decide (timeout ≠ handle)
      reconnectTimer := none }
  | none => c

def clearTimers (c : PipeClient) : PipeClient := c.clearStateRefresh.clearReconnect

/-- A graceful GOODBYE lets OBS remove this client without latching a failure. -/
def dispose (c : PipeClient) : PipeClient :=
  let c : PipeClient := clearTimers { c with disposed := true }
  let c : PipeClient :=
    match c.socket with
    | some k => if c.readyState k = .opened then c.endWith k goodbyeFrame else c.destroy k
    | none => c
  { c with socket := none }

/-- Connections superseded while their asynchronous event was pending are ignored. -/
def handleConnected (c : PipeClient) (k : ℕ) : PipeClient :=
  if c.socket ≠ some k ∨ c.disposed = true then c.destroy k
  else
    let c := { c with connectionStates := .connected :: c.connectionStates }
    let c := (c.write k (helloFrame c.clientId)).writeState k
    { c with
      stateRefreshTimer := some c.nextHandle
      intervals := (c.nextHandle, k) :: c.intervals
      nextHandle := c.nextHandle + 1 }

/-- Unexpected disconnects are retried until the extension is disposed. -/
def handleClosed (c : PipeClient) (k : ℕ) : PipeClient :=
  if c.socket ≠ some k then c
  else
    let c : PipeClient := clearStateRefresh { c with socket := none }
    let c := { c with connectionStates := .disconnected :: c.connectionStates }
    if c.disposed then c
    else
      { c with
        reconnectTimer := some c.nextHandle
        timeouts := c.nextHandle :: c.timeouts
        nextHandle := c.nextHandle + 1 }

/-- The callback of the refresh interval, for the socket it captured. -/
def refresh (c : PipeClient) (k : ℕ) : PipeClient :=
  if c.readyState k = .opened then c.writeState k else c

inductive ClientEvent
  | connect
  | publish (status : PrivacyStatus)
  | dispose
  /-- A socket emits `connect`. -/
  | connected (k : ℕ)
  /-- An open socket is ended by its peer or fails. -/
  | ended (k : ℕ)
  /-- A socket emits `close`. -/
  | closed (k : ℕ)
  | refreshFires (handle : ℕ)
  | reconnectFires (handle : ℕ)
  deriving DecidableEq, Repr

def step (c : PipeClient) : ClientEvent → Option PipeClient
  | .connect => some c.connect
  | .publish status => some (c.publish status)
  | .dispose => some c.dispose
  | .connected k =>
    match c.sockets[k]? with
    | some socket =>
      if socket.connectEmitted then none
      else
        let c := c.updateSocket k fun socket =>
          { socket with
            connectEmitted := true
            readyState := if socket.readyState = .opening then .opened else socket.readyState }
        some (c.handleConnected k)
    | none => none
  | .ended k =>
    if c.readyState k = .opened then
      some (c.updateSocket k fun socket => { socket with readyState := .closed })
    else none
  | .closed k =>
    match c.sockets[k]? with
    | some socket =>
      if socket.closeEmitted then none
      else
        let c := c.updateSocket k fun socket =>
          { socket with readyState := .closed, closeEmitted := true }
        some (c.handleClosed k)
    | none => none
  | .refreshFires handle =>
    match c.intervals.find? fun interval => decide (interval.1 = handle) with
    | some (_, k) => some (c.refresh k)
    | none => none
  | .reconnectFires handle =>
    if handle ∈ c.timeouts then some (connect { c with timeouts := c.timeouts.erase handle })
    else none

end PipeClient

end PrivacyGuard
