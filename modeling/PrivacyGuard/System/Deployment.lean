import PrivacyGuard.Pipe.Refinement
import PrivacyGuard.System.Release

/-! # The threads of the server among the windows

The whole plugin with the accept thread and the connection threads in place of the server. A
socket opens the instance that the accept thread offers some steps before its connection is
opened. Until `stop` is called, every run is one of the broadcast.
-/

namespace PrivacyGuard

open Utf16

/-- The instance of the accept thread is open, and has no connection yet. -/
def AcceptPoint.taken : AcceptPoint → Bool
  | .connect _ opened => opened
  | .check _ | .opening _ => true
  | _ => false

structure Deployment where
  windows : List Window
  listener : Listener
  /-- The client and the socket that have opened an instance last. -/
  peer : Option (ℕ × ℕ) := none
  channels : List Channel := []
  display : Display
  tickPoint : TickPoint := .idle

namespace Deployment

inductive Label
  | window (i : ℕ) (event : Window.Event)
  /-- A socket opens the instance that the accept thread offers. -/
  | client (i k : ℕ)
  /-- A connection thread reads the next bytes. -/
  | read (t length : ℕ)
  /-- A step of a thread that reads nothing, or a call of the settings dialog. -/
  | listener (label : Listener.Label)
  | tick (now : ℤ)
  | mode
  | forward
  | display (label : Display.Label)

def Label.opens : Label → ℕ
  | .listener label => label.opens
  | _ => 0

def Label.requests : Label → ℕ
  | .forward => 1
  | .display label => label.requests
  | _ => 0

/-- The steps of the listener that are not steps of somebody else. -/
def ofThreads : Listener.Label → Bool
  | .client => false
  | .tick _ => false
  | .thread _ (.bytes _) => false
  | _ => true

def start (livenessTimeout : ℤ) (clientIds : List { clientId : Bytes // Uuid clientId })
    (watermarkAvailable : Bool) : Deployment where
  windows := (Broadcast.start livenessTimeout clientIds watermarkAvailable).windows
  listener := .init livenessTimeout
  display := .start watermarkAvailable

def unread (s : Deployment) (channel : Channel) : Bytes :=
  (System.written (s.windows.map Window.client) channel).flatten.drop channel.delivered

def step (d : CaseData) (s : Deployment) : Label → Option Deployment
  | .window i event =>
    match s.windows[i]? with
    | some w => (w.step d event).map fun w => { s with windows := s.windows.set i w }
    | none => none
  | .client i k =>
    match s.windows[i]? with
    | some w =>
      -- A socket is connected to one pipe instance.
      if k < w.client.sockets.length ∧
          ∀ channel ∈ s.channels, channel.client = i → channel.socket ≠ k then
        (s.listener.step .client).map fun listener => { s with listener, peer := some (i, k) }
      else none
    | none => none
  | .read t length =>
    match s.channels[t]?, s.listener.threads[t]? with
    | some channel, some thread =>
      if thread.phase = .serving ∧ thread.worker.point = .read then
        let chunk := (s.unread channel).take length
        (s.listener.step (.thread t (.bytes chunk))).map fun listener =>
          { s with
            listener
            channels := s.channels.set t
              { channel with delivered := channel.delivered + chunk.length } }
      else none
    | _, _ => none
  | .listener (.opened now) =>
    (s.listener.step (.opened now)).map fun listener =>
      { s with
        listener
        channels := s.channels ++ s.peer.toList.map fun peer =>
          { client := peer.1, socket := peer.2 } }
  | .listener label =>
    if ofThreads label then (s.listener.step label).map fun listener => { s with listener }
    else none
  | .tick now =>
    if s.tickPoint = .idle then
      (s.listener.step (.tick now)).map fun listener => { s with listener, tickPoint := .ticked }
    else none
  | .mode =>
    if s.tickPoint = .ticked then
      some { s with tickPoint := .read s.listener.privacyState.mode }
    else none
  | .forward =>
    match s.tickPoint with
    | .read currentMode =>
      some { s with display := s.display.tickPrivacyState currentMode, tickPoint := .idle }
    | _ => none
  | .display (.tick _) => none
  | .display label => (s.display.step label).map fun display => { s with display }

/-- The broadcast that the threads make up. -/
def broadcast (s : Deployment) : Broadcast where
  windows := s.windows
  server := s.listener.server
  channels := s.channels
  display := s.display
  tickPoint := s.tickPoint

/-! ### The socket behind an instance -/

/-- A socket that exists and has no connection yet. -/
def Offers (s : Deployment) (peer : ℕ × ℕ) : Prop :=
  (∃ w, s.windows[peer.1]? = some w ∧ peer.2 < w.client.sockets.length) ∧
    ∀ channel ∈ s.channels, channel.client = peer.1 → channel.socket ≠ peer.2

structure Sound (s : Deployment) : Prop where
  unstopped : s.listener.Unstopped
  peer : ∀ point, s.listener.acceptThread = some point → point.taken = true →
    ∃ peer, s.peer = some peer ∧ s.Offers peer

variable {d : CaseData} {s s' : Deployment} {l : Label}

theorem sound_start (timeout : ℤ) (clientIds : List { clientId : Bytes // Uuid clientId })
    (watermarkAvailable : Bool) : Sound (start timeout clientIds watermarkAvailable) :=
  ⟨Listener.unstopped_init timeout, fun point hpoint => by cases hpoint⟩

/-- Until `stop` is called, only a socket takes an instance. -/
theorem taken_of_moves {t t' : Listener} {label : Listener.Label} (h : t.Unstopped)
    (hclient : label ≠ .client) (hs : Listener.Moves t label t') {point : AcceptPoint}
    (hpoint : t'.acceptThread = some point) (htaken : point.taken = true) :
    ∃ point, t.acceptThread = some point ∧ point.taken = true := by
  have howner := h.owner
  cases hs with
  | wake ho => simp [ho] at howner
  | client ha => exact absurd rfl hclient
  | connect ha => exact ⟨_, ha, rfl⟩
  | check ha => exact ⟨_, ha, rfl⟩
  | joinAccept ho ha => cases hpoint
  | loop ha =>
    obtain rfl := Option.some.inj hpoint
    split at htaken <;> cases htaken
  | launch | sleep | failed | refuse | create | createFails | connectFails | swept | spawn | test
  | opened | join =>
    obtain rfl := Option.some.inj hpoint
    cases htaken
  | startAgain | start | stopAgain | stop | wakeAgain | wakeLast | joinWorker | cleared | closes
  | works | finishes | exits | call | tick | setEnabled => exact ⟨point, hpoint, htaken⟩

theorem Sound.listener (h : Sound s) {label : Listener.Label} {listener : Listener}
    (hstop : label ≠ .stop) (hclient : label ≠ .client)
    (hs : Listener.Moves s.listener label listener) (hlistener : s'.listener = listener)
    (hpeer : s'.peer = s.peer) (hwindows : s'.windows = s.windows)
    (hchannels : ∀ channel ∈ s'.channels, ∃ channel' ∈ s.channels,
      channel'.client = channel.client ∧ channel'.socket = channel.socket) : Sound s' := by
  refine ⟨hlistener ▸ h.unstopped.step hstop hs, fun point hpoint htaken => ?_⟩
  rw [hlistener] at hpoint
  obtain ⟨point', hpoint', htaken'⟩ := taken_of_moves h.unstopped hclient hs hpoint htaken
  obtain ⟨peer, hpeer', ⟨w, hw, hk⟩, hfree⟩ := h.peer point' hpoint' htaken'
  refine ⟨peer, hpeer.trans hpeer', ⟨w, hwindows ▸ hw, hk⟩, fun channel hmem hc hsocket => ?_⟩
  obtain ⟨channel', hmem', hclient', hsocket'⟩ := hchannels channel hmem
  exact hfree channel' hmem' (hclient'.trans hc) (hsocket'.trans hsocket)

theorem Sound.window (h : Sound s) {i : ℕ} {w w' : Window} (hi : s.windows[i]? = some w)
    {event : Window.Event} (hs : w.step d event = some w') :
    Sound { s with windows := s.windows.set i w' } := by
  refine ⟨h.unstopped, fun point hpoint htaken => ?_⟩
  obtain ⟨peer, hpeer, ⟨v, hv, hk⟩, hfree⟩ := h.peer point hpoint htaken
  refine ⟨peer, hpeer, ?_, hfree⟩
  by_cases hpeeri : i = peer.1
  · subst hpeeri
    obtain rfl := Option.some.inj (hi.symm.trans hv)
    obtain ⟨es, hes⟩ := Window.client_run hs
    obtain ⟨socket, hsocket, -⟩ :=
      (PipeClient.grows_of_run hes).sockets _ _ (List.getElem?_eq_getElem hk)
    refine ⟨w', List.getElem?_set_self (List.getElem?_eq_some_iff.mp hi).1, ?_⟩
    exact (List.getElem?_eq_some_iff.mp hsocket).1
  · exact ⟨v, by rwa [List.getElem?_set_ne hpeeri], hk⟩

/-! ### One step -/

def Label.weight (l : Label) : ℕ × ℕ := (l.opens, l.requests)

def weight (l : Broadcast.Label) : ℕ × ℕ := (l.opens, l.requests)

/-- A step is one of the broadcast with the same weight, or none. -/
def Simulates (d : CaseData) (s s' : Deployment) (l : Label) : Prop :=
  (s'.broadcast = s.broadcast ∧ l.weight = 0) ∨
    ∃ l', weight l' = l.weight ∧ s.broadcast.step d l' = some s'.broadcast

theorem client_step (h : Sound s) {i k : ℕ} (hs : s.step d (.client i k) = some s') :
    Sound s' ∧ Simulates d s s' (.client i k) := by
  simp only [Deployment.step] at hs
  split at hs
  case h_2 => cases hs
  case h_1 w hi =>
    obtain ⟨⟨hk, hfree⟩, hs⟩ := Option.ite_none_right_eq_some.mp hs
    obtain ⟨listener, hlistener, rfl⟩ := Option.map_eq_some_iff.mp hs
    have hmoves := Listener.moves_of_step hlistener
    refine ⟨⟨h.unstopped.step (by simp) hmoves, fun _ _ _ => ⟨(i, k), rfl, ⟨w, hi, hk⟩, hfree⟩⟩, ?_⟩
    rcases Listener.server_step h.unstopped (by simp) hmoves with ⟨hserver, -⟩ | ⟨l', hserves, -⟩
    · exact .inl ⟨by simp only [broadcast, hserver], rfl⟩
    · cases hserves

theorem read_step (h : Sound s) {t length : ℕ} (hs : s.step d (.read t length) = some s') :
    Sound s' ∧ Simulates d s s' (.read t length) := by
  simp only [Deployment.step] at hs
  split at hs
  case h_2 => cases hs
  case h_1 channel thread hchannel hthread =>
    obtain ⟨⟨hphase, hpoint⟩, hs⟩ := Option.ite_none_right_eq_some.mp hs
    obtain ⟨listener, hlistener, rfl⟩ := Option.map_eq_some_iff.mp hs
    have hmoves := Listener.moves_of_step hlistener
    constructor
    · refine h.listener (by simp) (by simp) hmoves rfl rfl rfl fun channel' hmem => ?_
      rcases List.mem_or_eq_of_mem_set hmem with hmem | rfl
      · exact ⟨channel', hmem, rfl, rfl⟩
      · exact ⟨channel, List.mem_of_getElem? hchannel, rfl, rfl⟩
    · right
      refine ⟨.system (.read t length), rfl, ?_⟩
      cases hmoves with
      | closes ht _ hreturned =>
        obtain rfl := Option.some.inj (hthread.symm.trans ht)
        simp [hpoint] at hreturned
      | finishes ht hclosed =>
        obtain rfl := Option.some.inj (hthread.symm.trans ht)
        simp [hphase] at hclosed
      | exits ht hfinished =>
        obtain rfl := Option.some.inj (hthread.symm.trans ht)
        simp [hphase] at hfinished
      | works ht _ _ _ hw =>
        have hmove := Listener.server_move ht hw
        have hchannel' : s.broadcast.system.channels[t]? = some channel := hchannel
        have hstep : s.broadcast.system.server.step
            (.bytes t ((s.broadcast.system.unread channel).take length)) = some _ := hmove
        simp only [Broadcast.step, Broadcast.ofPlugin, if_true, Broadcast.serve, System.step,
          hchannel', hstep, Option.map_some]
        rfl

/-- The steps of the server that its threads take alone. -/
inductive Alone : Server.Label → Prop
  | proceed (slot : ℕ) : Alone (.proceed slot)
  | nothing (slot : ℕ) : Alone (.nothing slot)
  | ended (slot : ℕ) : Alone (.ended slot)
  | call (slot : ℕ) (now : ℤ) : Alone (.call slot now)
  | setEnabled (enabled : Bool) : Alone (.setEnabled enabled)

theorem serve_step {label : Server.Label} (hl : Alone label) {listener : Listener}
    (hs : s.listener.server.step label = some listener.server) :
    s.broadcast.step d (.system (.server label)) = some (broadcast { s with listener }) := by
  have hstep : s.broadcast.system.server.step label = some listener.server := hs
  cases hl <;>
    simp only [Broadcast.step, Broadcast.ofPlugin, if_true, Broadcast.serve, System.step, hstep,
      Option.map_some] <;> rfl

theorem opened_step (h : Sound s) {now : ℤ} (hs : s.step d (.listener (.opened now)) = some s') :
    Sound s' ∧ Simulates d s s' (.listener (.opened now)) := by
  obtain ⟨listener, hlistener, rfl⟩ := Option.map_eq_some_iff.mp hs
  have hmoves := Listener.moves_of_step hlistener
  have hunstopped := h.unstopped.step (by simp) hmoves
  have hserves := Listener.server_step h.unstopped (by simp) hmoves
  cases hmoves with
  | @opened pipe ha =>
    obtain ⟨peer, hpeer, ⟨w, hw, hk⟩, hfree⟩ := h.peer _ ha rfl
    constructor
    · refine ⟨hunstopped, fun point hpoint htaken => ?_⟩
      obtain rfl := Option.some.inj hpoint
      cases htaken
    · right
      refine ⟨.system (.accept peer.1 peer.2 now), rfl, ?_⟩
      rcases hserves with ⟨-, hopens⟩ | ⟨l', hserves, hstep⟩
      · cases hopens
      · cases hserves
        have hclient : s.broadcast.system.clients[peer.1]? = some w.client := by
          simp [Broadcast.system, broadcast, hw]
        have hstep' : s.broadcast.system.server.step (.accept now) = some _ := hstep
        simp only [Broadcast.step, Broadcast.ofPlugin, if_true, Broadcast.serve, System.step,
          hclient, hstep', Option.map_some]
        rw [if_pos ⟨hk, hfree⟩]
        simp [broadcast, hpeer]
        rfl

theorem listener_step (h : Sound s) {label : Listener.Label} (hstop : label ≠ .stop)
    (hopened : ∀ now, label ≠ .opened now) (hs : s.step d (.listener label) = some s') :
    Sound s' ∧ Simulates d s s' (.listener label) := by
  have hmap : ofThreads label = true ∧
      (s.listener.step label).map (fun listener => { s with listener }) = some s' := by
    cases label with
    | opened now => exact absurd rfl (hopened now)
    | _ => exact Option.ite_none_right_eq_some.mp hs
  obtain ⟨halone, hs⟩ := hmap
  obtain ⟨listener, hlistener, rfl⟩ := Option.map_eq_some_iff.mp hs
  have hmoves := Listener.moves_of_step hlistener
  constructor
  · refine h.listener hstop ?_ hmoves rfl rfl rfl fun channel hmem => ⟨channel, hmem, rfl, rfl⟩
    rintro rfl
    cases halone
  · rcases Listener.server_step h.unstopped hstop hmoves with
      ⟨hserver, hopens⟩ | ⟨l', hserves, hstep⟩
    · exact .inl ⟨by simp only [broadcast, hserver], by simp [Label.weight, Label.opens,
        Label.requests, hopens]⟩
    · right
      cases hserves with
      | opened now => exact absurd rfl (hopened now)
      | bytes t chunk => cases halone
      | tick now => cases halone
      | proceed t running => exact ⟨_, rfl, serve_step (.proceed t) hstep⟩
      | nothing t => exact ⟨_, rfl, serve_step (.nothing t) hstep⟩
      | ended t => exact ⟨_, rfl, serve_step (.ended t) hstep⟩
      | call t now => exact ⟨_, rfl, serve_step (.call t now) hstep⟩
      | setEnabled enabled => exact ⟨_, rfl, serve_step (.setEnabled enabled) hstep⟩

theorem simulates (h : Sound s) (hstop : l ≠ .listener .stop) (hs : s.step d l = some s') :
    Sound s' ∧ Simulates d s s' l := by
  cases l with
  | window i event =>
    simp only [Deployment.step] at hs
    split at hs
    case h_2 => cases hs
    case h_1 w hi =>
      obtain ⟨w', hw, rfl⟩ := Option.map_eq_some_iff.mp hs
      refine ⟨h.window hi hw, .inr ⟨.window i event, rfl, ?_⟩⟩
      simp [Broadcast.step, broadcast, hi, hw]
  | client i k => exact client_step h hs
  | read t length => exact read_step h hs
  | listener label =>
    cases label with
    | opened now => exact opened_step h hs
    | stop => exact absurd rfl hstop
    | _ => exact listener_step h (by simp) (by simp) hs
  | tick now =>
    obtain ⟨hpoint, hs⟩ := Option.ite_none_right_eq_some.mp hs
    obtain ⟨listener, hlistener, rfl⟩ := Option.map_eq_some_iff.mp hs
    have hmoves := Listener.moves_of_step hlistener
    constructor
    · exact h.listener (by simp) (by simp) hmoves rfl rfl rfl
        fun channel hmem => ⟨channel, hmem, rfl, rfl⟩
    · obtain rfl := Option.some.inj hlistener
      refine .inr ⟨.tick now, rfl, ?_⟩
      exact (if_pos hpoint).trans rfl
  | mode =>
    obtain ⟨hpoint, hs⟩ := Option.ite_none_right_eq_some.mp hs
    obtain rfl := Option.some.inj hs
    refine ⟨⟨h.unstopped, h.peer⟩, .inr ⟨.mode, rfl, ?_⟩⟩
    exact (if_pos hpoint).trans rfl
  | forward =>
    simp only [Deployment.step] at hs
    split at hs
    case h_2 => cases hs
    case h_1 currentMode hpoint =>
      obtain rfl := Option.some.inj hs
      refine ⟨⟨h.unstopped, h.peer⟩, .inr ⟨.forward, rfl, ?_⟩⟩
      simp only [Broadcast.step, broadcast, hpoint]
  | display label =>
    have hmap : (s.display.step label).map (fun display => { s with display }) = some s' := by
      cases label with
      | tick mode => cases hs
      | _ => exact hs
    have hne : ∀ mode, label ≠ .tick mode := by
      rintro mode rfl
      cases hs
    obtain ⟨display, hdisplay, rfl⟩ := Option.map_eq_some_iff.mp hmap
    refine ⟨⟨h.unstopped, h.peer⟩, .inr ⟨.display label, rfl, ?_⟩⟩
    have hbroadcast : s.broadcast.step d (.display label) =
        (s.display.step label).map fun display => { s.broadcast with display } := by
      cases label with
      | tick mode => exact absurd rfl (hne mode)
      | _ => rfl
    rw [hbroadcast, hdisplay]
    rfl

/-! ### Runs -/

theorem sum_weight (ls : List Label) :
    (ls.map Label.weight).sum = ((ls.map Label.opens).sum, (ls.map Label.requests).sum) := by
  induction ls with
  | nil => rfl
  | cons l ls ih => simp [Label.weight, ih]

theorem sum_weight_broadcast (ls : List Broadcast.Label) :
    (ls.map weight).sum =
      ((ls.map Broadcast.Label.opens).sum, (ls.map Broadcast.Label.requests).sum) := by
  induction ls with
  | nil => rfl
  | cons l ls ih => simp [weight, ih]

/-- A run of the threads is a run of the broadcast. -/
theorem exists_broadcast_run {timeout : ℤ}
    {clientIds : List { clientId : Bytes // Uuid clientId }} {watermarkAvailable : Bool}
    {labels : List Label} (hstop : .listener .stop ∉ labels)
    (hrun : Transition.run (step d) (start timeout clientIds watermarkAvailable) labels = some s) :
    ∃ labels' : List Broadcast.Label,
      (labels'.map Broadcast.Label.opens).sum = (labels.map Label.opens).sum ∧
      (labels'.map Broadcast.Label.requests).sum = (labels.map Label.requests).sum ∧
      Transition.run (Broadcast.step d) (.start timeout clientIds watermarkAvailable) labels' =
        some s.broadcast := by
  have hadmitted : ∀ l ∈ labels, l ≠ .listener .stop := by
    rintro l hl rfl
    exact hstop hl
  have hsim : ∀ s l t, Sound s → l ≠ .listener .stop → s.step d l = some t →
      Sound t ∧ ((t.broadcast = s.broadcast ∧ l.weight = 0) ∨
        ∃ l', True ∧ weight l' = l.weight ∧ s.broadcast.step d l' = some t.broadcast) := by
    intro s l t h hl hs
    obtain ⟨hsound, hsame | ⟨l', hl'⟩⟩ := simulates h hl hs
    · exact ⟨hsound, .inl hsame⟩
    · exact ⟨hsound, .inr ⟨l', trivial, hl'⟩⟩
  obtain ⟨labels', -, hsum, hrun'⟩ :=
    Transition.exists_run_of_simulation (Q := fun _ => True) broadcast Label.weight weight hsim
      (sound_start timeout clientIds watermarkAvailable) hadmitted hrun
  rw [sum_weight, sum_weight_broadcast, Prod.mk.injEq] at hsum
  exact ⟨labels', hsum.1, hsum.2, hrun'⟩

/-- The output is guarded in every interleaving of the threads with the windows, the callback
and the display. -/
theorem upheld_of_run {timeout : ℤ} {clientIds : List { clientId : Bytes // Uuid clientId }}
    {watermarkAvailable : Bool} {labels : List Label} (hstop : .listener .stop ∉ labels)
    (hn : (labels.map Label.opens).sum < wordSize)
    (hm : (labels.map Label.requests).sum < wordSize)
    (hrun : Transition.run (step d) (start timeout clientIds watermarkAvailable) labels = some s) :
    s.broadcast.Guards d := by
  obtain ⟨labels', hopens, hrequests, hrun'⟩ := exists_broadcast_run hstop hrun
  have hsound := Broadcast.run_sound (by rwa [hopens]) (by rwa [hrequests]) hrun'
  exact hsound.guards

def connecting : List Label :=
  [.window 0 (.configure { rules := some (.array [dotenv.object]) }),
    .window 0 (.show [utf16 "C:/project/main.ts"]), .listener .start, .listener .launch,
    .listener .proceed, .window 0 .activate, .listener (.create true), .client 0 0,
    .listener (.connect true), .window 0 (.client (.connected 0)), .listener .proceed,
    .listener (.opened 0), .listener .proceed, .listener .proceed,
    .listener (.thread 0 (.proceed true)), .read 0 4096, .listener (.thread 0 (.proceed true)),
    .listener (.call 0 10), .listener (.thread 0 (.proceed true)), .listener (.call 0 20),
    .listener .proceed, .listener (.thread 0 (.proceed true)), .tick 30, .mode, .forward,
    .display (.apply 0 {})]

def connected : Deployment :=
  (Transition.run (step greek) (start 2000 Broadcast.oneWindow true) connecting).get
    (by decide +kernel)

theorem upheld_connected : connected.broadcast.Open ∧ connected.listener.threads.length = 1 ∧
    connected.broadcast.Guards greek :=
  ⟨⟨by decide +kernel, by decide +kernel⟩, by decide +kernel,
    upheld_of_run (by simp [connecting]) (by decide) (by decide) (Option.some_get _).symm⟩

end Deployment

end PrivacyGuard
