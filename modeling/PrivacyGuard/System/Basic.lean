import PrivacyGuard.Extension.Conversation
import PrivacyGuard.Pipe.Server

/-! # Clients and server

Any number of clients share one server. The connection of a socket is a first-in
first-out channel of bytes to its worker. Clients, workers and ticks interleave freely.
-/

namespace PrivacyGuard

/-- The socket that a worker serves, and the number of bytes it has read. -/
structure Channel where
  client : ℕ
  socket : ℕ
  delivered : ℕ := 0
  deriving DecidableEq, Repr

/-- The server, the clients, and the channels of the workers in the order of their start. -/
structure System where
  server : Server
  clients : List PipeClient
  channels : List Channel := []

namespace System

inductive Label
  | client (i : ℕ) (event : PipeClient.ClientEvent)
  /-- The server accepts the connection of a socket. -/
  | accept (i k : ℕ) (now : ℤ)
  /-- A worker reads the next bytes. -/
  | read (slot length : ℕ)
  | server (label : Server.Label)
  deriving DecidableEq

def Label.opens : Label → ℕ
  | .accept _ _ _ => 1
  | _ => 0

def start (livenessTimeout : ℤ) (clientIds : List { clientId : Bytes // Uuid clientId }) :
    System where
  server := .start livenessTimeout
  clients := clientIds.map fun clientId => .create clientId.1 clientId.2

def written (clients : List PipeClient) (channel : Channel) : List Bytes :=
  match clients[channel.client]? with
  | some c =>
    match c.sockets[channel.socket]? with
    | some socket => socket.written
    | none => []
  | none => []

def unread (s : System) (channel : Channel) : Bytes :=
  (written s.clients channel).flatten.drop channel.delivered

def step (s : System) : Label → Option System
  | .client i event =>
    match s.clients[i]? with
    | some c => (c.step event).map fun c => { s with clients := s.clients.set i c }
    | none => none
  | .accept i k now =>
    match s.clients[i]? with
    | some c =>
      -- A socket is connected to one pipe instance.
      if k < c.sockets.length ∧ ∀ channel ∈ s.channels, channel.client = i → channel.socket ≠ k then
        (s.server.step (.accept now)).map fun server =>
          { s with server, channels := s.channels ++ [{ client := i, socket := k }] }
      else none
    | none => none
  | .read slot length =>
    match s.channels[slot]? with
    | some channel =>
      let chunk := (s.unread channel).take length
      (s.server.step (.bytes slot chunk)).map fun server =>
        { s with
          server
          channels := s.channels.set slot
            { channel with delivered := channel.delivered + chunk.length } }
    | none => none
  | .server (.accept _) => none
  | .server (.bytes _ _) => none
  | .server label => (s.server.step label).map fun server => { s with server }

inductive Local (running : Bool) (slot : ℕ) : Server.Label → Input → Prop
  | proceed : Local running slot (.proceed slot) (.proceed running)
  | nothing : Local running slot (.nothing slot) .nothing
  | ended : Local running slot (.ended slot) .ended

inductive Moves (s : System) : Label → System → Prop
  | client {i : ℕ} {event : PipeClient.ClientEvent} {c c' : PipeClient}
      (hc : s.clients[i]? = some c) (hstep : c.step event = some c') :
      Moves s (.client i event) { s with clients := s.clients.set i c' }
  | accept {i k : ℕ} {c : PipeClient} (hc : s.clients[i]? = some c) (hk : k < c.sockets.length)
      (now : ℤ) :
      Moves s (.accept i k now)
        { s with
          server :=
            { s.server.perform (.connectionOpened now) with
              workers :=
                s.server.workers ++ [((s.server.privacyState.connectionOpened now).2, {})] }
          channels := s.channels ++ [{ client := i, socket := k }] }
  | read {slot length id : ℕ} {channel : Channel} {w w' : Worker}
      (hchannel : s.channels[slot]? = some channel)
      (hworker : s.server.workers[slot]? = some (id, w))
      (hstep : w.step (.bytes ((s.unread channel).take length)) = some w') :
      Moves s (.read slot length)
        { s with
          server := { s.server with workers := s.server.workers.set slot (id, w') }
          channels := s.channels.set slot
            { channel with
              delivered := channel.delivered + ((s.unread channel).take length).length } }
  | worker {slot id : ℕ} {label : Server.Label} {input : Input} {w w' : Worker}
      (hlocal : Local s.server.running slot label input)
      (hworker : s.server.workers[slot]? = some (id, w)) (hstep : w.step input = some w') :
      Moves s (.server label)
        { s with server := { s.server with workers := s.server.workers.set slot (id, w') } }
  | call {slot id : ℕ} {call : Call} {w w' : Worker}
      (hworker : s.server.workers[slot]? = some (id, w)) (hcall : w.call = some call) (now : ℤ)
      (hstep : w.step
        (.reply (s.server.privacyState.perform (call.op id now)).2.isAccepted) = some w') :
      Moves s (.server (.call slot now))
        { s with
          server :=
            { s.server.perform (call.op id now) with
              workers := s.server.workers.set slot (id, w') } }
  | tick (now : ℤ) : Moves s (.server (.tick now)) { s with server := s.server.perform (.tick now) }
  | setEnabled (enabled : Bool) :
      Moves s (.server (.setEnabled enabled))
        { s with server := s.server.perform (.setEnabled enabled) }
  | stop : Moves s (.server .stop) { s with server := { s.server with running := false } }

theorem moves_of_local {s t : System} {slot : ℕ} {label : Server.Label} {input : Input}
    (hlocal : Local s.server.running slot label input)
    (hs : (s.server.move slot input).map (fun server => { s with server }) = some t) :
    Moves s (.server label) t := by
  obtain ⟨server, hmove, rfl⟩ := Option.map_eq_some_iff.mp hs
  unfold Server.move at hmove
  split at hmove
  case h_2 => cases hmove
  case h_1 id w hworker =>
    obtain ⟨w', hstep, rfl⟩ := Option.map_eq_some_iff.mp hmove
    exact .worker hlocal hworker hstep

theorem moves_of_step {s t : System} {label : Label} (hs : s.step label = some t) :
    Moves s label t := by
  cases label with
  | client i event =>
    simp only [System.step] at hs
    split at hs
    case h_2 => cases hs
    case h_1 c hc =>
      obtain ⟨c', hstep, rfl⟩ := Option.map_eq_some_iff.mp hs
      exact .client hc hstep
  | accept i k now =>
    simp only [System.step] at hs
    split at hs
    case h_2 => cases hs
    case h_1 c hc =>
      obtain ⟨⟨hk, -⟩, hs⟩ := Option.ite_none_right_eq_some.mp hs
      obtain ⟨server, hserver, rfl⟩ := Option.map_eq_some_iff.mp hs
      obtain ⟨-, hserver⟩ := Option.ite_none_right_eq_some.mp hserver
      obtain rfl := Option.some.inj hserver
      exact .accept hc hk now
  | read slot length =>
    simp only [System.step] at hs
    split at hs
    case h_2 => cases hs
    case h_1 channel hchannel =>
      obtain ⟨server, hmove, rfl⟩ := Option.map_eq_some_iff.mp hs
      simp only [Server.step, Server.move] at hmove
      split at hmove
      case h_2 => cases hmove
      case h_1 id w hworker =>
        obtain ⟨w', hstep, rfl⟩ := Option.map_eq_some_iff.mp hmove
        exact .read hchannel hworker hstep
  | server label =>
    cases label with
    | accept now => cases hs
    | bytes slot chunk => cases hs
    | proceed slot => exact moves_of_local .proceed hs
    | nothing slot => exact moves_of_local .nothing hs
    | ended slot => exact moves_of_local .ended hs
    | call slot now =>
      obtain ⟨server, hcalls, rfl⟩ := Option.map_eq_some_iff.mp hs
      simp only [Server.step] at hcalls
      split at hcalls
      case h_2 => cases hcalls
      case h_1 id w hworker =>
        split at hcalls
        case h_2 => cases hcalls
        case h_1 call hcall =>
          simp only [Server.move, Server.perform, hworker] at hcalls
          obtain ⟨w', hstep, rfl⟩ := Option.map_eq_some_iff.mp hcalls
          exact .call hworker hcall now hstep
    | tick now =>
      obtain rfl := Option.some.inj hs
      exact .tick now
    | setEnabled enabled =>
      obtain rfl := Option.some.inj hs
      exact .setEnabled enabled
    | stop =>
      obtain rfl := Option.some.inj hs
      exact .stop

/-- A live connection of an open socket whose bytes have all been read and applied. -/
structure Settled (s : System) (c : PipeClient) (client : Client) : Prop where
  exists_channel : ∃ (slot : ℕ) (channel : Channel) (id : ℕ) (w : Worker) (socket : Socket),
    s.channels[slot]? = some channel ∧ s.server.workers[slot]? = some (id, w) ∧
      s.clients[channel.client]? = some c ∧ c.sockets[channel.socket]? = some socket ∧
      s.server.privacyState.clients.lookup id = some client ∧
      socket.readyState = .opened ∧ s.unread channel = [] ∧ w.pending = []

/-- The privacy state records what the clients last announced. -/
structure Agrees (s : System) : Prop where
  recorded : ∀ c client, s.Settled c client →
    client.sensitive = none ∨ client.sensitive = some (decide (c.latestStatus = .sensitive))
  safe : s.server.privacyState.mode = .safe → ∀ c client, s.Settled c client →
    c.latestStatus = .safe

end System

end PrivacyGuard
