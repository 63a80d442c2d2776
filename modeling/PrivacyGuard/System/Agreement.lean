import PrivacyGuard.Pipe.Lifecycle
import PrivacyGuard.System.Basic
import PrivacyGuard.System.Delivery

/-! # Agreement of clients and server

What the privacy state records for a connection is what the client of an open socket
last announced, once the channel is empty. A worker works through the texts of its
channel in order, and only its STATE frames change what is recorded.
-/

namespace PrivacyGuard

namespace System

/-! ### What has been reported for a connection -/

def textFlag (text : Bytes) : Option Bool :=
  match parseFrame text.dropLast with
  | some frame => if frame.kind = .state then some frame.sensitive else none
  | none => none

def lastFlag (texts : List Bytes) : Option Bool := texts.reverse.findSome? textFlag

theorem lastFlag_concat (texts : List Bytes) (text : Bytes) :
    lastFlag (texts ++ [text]) = (textFlag text).or (lastFlag texts) := by
  rw [lastFlag, List.reverse_concat, List.findSome?_cons]
  cases textFlag text <;> rfl

theorem textFlag_of_spells {text : Bytes} {frame : Frame} (h : Spells text frame) :
    textFlag text = if frame.kind = .state then some frame.sensitive else none := by
  rw [textFlag, h.parses]

theorem lastFlag_text {clientId : Bytes} (hu : Uuid clientId) {ms : List Message}
    (hfits : ∀ m ∈ ms, m.Fits) :
    lastFlag (ms.map (Message.text clientId)) =
      (lastStatus ms).map fun status => decide (status = .sensitive) := by
  induction ms using List.reverseRecOn with
  | nil => rfl
  | append_singleton ms m ih =>
    rw [List.map_append, List.map_singleton, lastFlag_concat,
      ih fun m hm => hfits m (List.mem_append_left _ hm),
      textFlag_of_spells (Message.spells hu (hfits m (by simp)))]
    cases m <;> simp [Message.frame, lastStatus]

/-- The record of a live connection has the flag of the last STATE, or none. -/
def Reports (s : PrivacyState) (id : ℕ) (texts : List Bytes) : Prop :=
  ∀ client, s.clients.lookup id = some client →
    client.sensitive = none ∨ client.sensitive = lastFlag texts

open PrivacyState (Counted)

variable {n id : ℕ} {p : PrivacyState} {op : Op} {texts : List Bytes} {text : Bytes} {frame : Frame}

/-- Only a STATE of the connection changes the flag, other than by emptying it. -/
theorem Reports.perform (h : Reports p id texts) (hc : Counted n p) (hn : n + opens op < wordSize)
    (hid : id ≤ n) (hop : ∀ sequence sensitive now, op ≠ .stateReceived id sequence sensitive now) :
    Reports (p.perform op).1 id texts := by
  intro client hclient
  cases PrivacyState.perform_client hclient with
  | kept hl => exact h client hl
  | opened now op_eq id_eq =>
    subst op_eq
    have := hc.next_eq hn
    omega
  | greeted c clientId now op_eq hl _ _ record =>
    subst record
    exact h c hl
  | published c sequence sensitive now op_eq => exact absurd op_eq (hop _ _ _)
  | rearmed c op_eq _ hl record =>
    subst record
    exact Or.inl rfl

theorem perform_of_refused {now : ℤ} (h : (p.perform (frame.call.op id now)).2.isAccepted = false) :
    (p.perform (frame.call.op id now)).1 = p := by
  cases hkind : frame.kind <;> simp only [Frame.call, hkind, Call.op] at h ⊢
  case hello =>
    rcases p.helloReceived_cases id frame.clientId now with hp | ⟨c, -, -, -, hp⟩ <;>
      simp [PrivacyState.perform, hp, Reply.isAccepted] at h ⊢
  case state =>
    rcases p.stateReceived_cases id frame.sequence frame.sensitive now with
      hp | ⟨c, -, -, -, hp⟩ <;>
      simp [PrivacyState.perform, hp, Reply.isAccepted] at h ⊢
  case goodbye =>
    rcases p.goodbyeReceived_cases id with hp | ⟨c, -, -, hp⟩ <;>
      simp [PrivacyState.perform, hp, Reply.isAccepted] at h ⊢

theorem Reports.accept (h : Reports p id texts) (hspells : Spells text frame) {now : ℤ}
    (haccepted : (p.perform (frame.call.op id now)).2.isAccepted = true) :
    Reports (p.perform (frame.call.op id now)).1 id (texts ++ [text]) := by
  intro client hclient
  rw [lastFlag_concat, textFlag_of_spells hspells]
  cases hkind : frame.kind <;> simp only [Frame.call, hkind, Call.op] at haccepted hclient ⊢
  case hello =>
    rcases p.helloReceived_cases id frame.clientId now with hp | ⟨c, hl, -, -, hp⟩
    · simp [PrivacyState.perform, hp, Reply.isAccepted] at haccepted
    · simp only [PrivacyState.perform, hp] at hclient
      rw [AList.lookup_replace (AList.lookup_isSome.mp (by simp [hl]))] at hclient
      obtain rfl := Option.some.inj hclient
      simpa [Client.greet] using h c hl
  case state =>
    rcases p.stateReceived_cases id frame.sequence frame.sensitive now with hp | ⟨c, hl, -, -, hp⟩
    · simp [PrivacyState.perform, hp, Reply.isAccepted] at haccepted
    · simp only [PrivacyState.perform, hp, PrivacyState.publishState] at hclient
      rw [AList.lookup_replace (AList.lookup_isSome.mp (by simp [hl]))] at hclient
      obtain rfl := Option.some.inj hclient
      exact Or.inr (by simp [Client.publish])
  case goodbye =>
    have hgone := (PrivacyState.goodbye_lookup_self haccepted).1
    rw [hgone] at hclient
    cases hclient

/-! ### The invariant -/

/-- The worker of a channel has applied a part of the texts, and no more is reported. -/
structure Served (clients : List PipeClient) (p : PrivacyState) (slot : ℕ) (channel : Channel)
    (id : ℕ) (w : Worker) : Prop where
  id_eq : id = slot + 1
  connected : ∃ c socket, clients[channel.client]? = some c ∧
    c.sockets[channel.socket]? = some socket
  delivered_le : channel.delivered ≤ (written clients channel).flatten.length
  reports : ∃ done todo, written clients channel = done ++ todo ∧
    w.Fed todo ((written clients channel).flatten.drop channel.delivered) ∧ Reports p id done

structure Sound (n : ℕ) (s : System) : Prop where
  counted : Counted n s.server.privacyState
  clients : ∀ c ∈ s.clients, c.Orderly
  workers : s.server.workers.length = n
  channels : s.channels.length = n
  served : ∀ (slot : ℕ) (channel : Channel) (id : ℕ) (w : Worker),
    s.channels[slot]? = some channel → s.server.workers[slot]? = some (id, w) →
      Served s.clients s.server.privacyState slot channel id w

variable {s t : System} {slot : ℕ} {channel channel' : Channel} {w w' : Worker}

theorem Served.perform {clients : List PipeClient} (h : Served clients p slot channel id w)
    (hc : Counted n p) (hn : n + opens op < wordSize) (hslot : slot < n)
    (hop : ∀ sequence sensitive now, op ≠ .stateReceived id sequence sensitive now) :
    Served clients (p.perform op).1 slot channel id w := by
  obtain ⟨done, todo, htexts, hfed, hreports⟩ := h.reports
  have hid : id ≤ n := by
    have := h.id_eq
    omega
  exact ⟨h.id_eq, h.connected, h.delivered_le, done, todo, htexts, hfed,
    hreports.perform hc hn hid hop⟩

theorem Sound.lt (h : Sound n s) (hslot : s.server.workers[slot]? = some (id, w)) : slot < n :=
  h.workers ▸ (List.getElem?_eq_some_iff.mp hslot).1

theorem Sound.perform (h : Sound n s) (hn : n < wordSize) (hopens : opens op = 0)
    (hop : ∀ id sequence sensitive now, op ≠ .stateReceived id sequence sensitive now) :
    Sound n { s with server := s.server.perform op } where
  counted := by
    have hc := h.counted.perform op (by omega)
    rwa [hopens] at hc
  clients := h.clients
  workers := h.workers
  channels := h.channels
  served slot channel id w hchannel hworker :=
    (h.served slot channel id w hchannel hworker).perform h.counted (by omega) (h.lt hworker)
      (hop id)

theorem Sound.update (h : Sound n s) {p : PrivacyState} (hc : Counted n p)
    (hworker : s.server.workers[slot]? = some (id, w))
    (hothers : ∀ other channel id w, other ≠ slot → s.channels[other]? = some channel →
      s.server.workers[other]? = some (id, w) → Served s.clients p other channel id w)
    (hserved : Served s.clients p slot channel' id w')
    (hclients : t.clients = s.clients) (hp : t.server.privacyState = p)
    (hworkers : t.server.workers = s.server.workers.set slot (id, w'))
    (hchannels : t.channels = s.channels.set slot channel') : Sound n t where
  counted := hp ▸ hc
  clients := hclients ▸ h.clients
  workers := by rw [hworkers, List.length_set, h.workers]
  channels := by rw [hchannels, List.length_set, h.channels]
  served other channel id' w' hchannel hworker' := by
    rw [hclients, hp]
    rw [hchannels] at hchannel
    rw [hworkers] at hworker'
    by_cases hother : slot = other
    · subst hother
      have hslot := h.lt hworker
      rw [List.getElem?_set_self (by rw [h.channels]; exact hslot)] at hchannel
      rw [List.getElem?_set_self (by rw [h.workers]; exact hslot)] at hworker'
      obtain rfl := Option.some.inj hchannel
      obtain ⟨rfl, rfl⟩ := Prod.mk.inj (Option.some.inj hworker')
      exact hserved
    · rw [List.getElem?_set_ne hother] at hchannel hworker'
      exact hothers other channel id' w' (Ne.symm hother) hchannel hworker'

theorem set_getElem? {α : Type*} {l : List α} {i : ℕ} {a : α} (h : l[i]? = some a) :
    l.set i a = l := by
  obtain ⟨hi, rfl⟩ := List.getElem?_eq_some_iff.mp h
  exact List.set_getElem_self hi

theorem Sound.exists_channel (h : Sound n s) (hworker : s.server.workers[slot]? = some (id, w)) :
    ∃ channel, s.channels[slot]? = some channel :=
  ⟨_, List.getElem?_eq_getElem (by rw [h.channels]; exact h.lt hworker)⟩

theorem Sound.move (h : Sound n s) {input : Input} {server : Server}
    (hs : s.server.move slot input = some server)
    (hbytes : ∀ chunk, input ≠ .bytes chunk) (hreply : ∀ accepted, input ≠ .reply accepted) :
    Sound n { s with server } := by
  unfold Server.move at hs
  split at hs
  case h_2 => cases hs
  case h_1 id w hworker =>
    obtain ⟨w', hstep, rfl⟩ := Option.map_eq_some_iff.mp hs
    obtain ⟨channel, hchannel⟩ := h.exists_channel hworker
    have hold := h.served slot channel id w hchannel hworker
    obtain ⟨done, todo, htexts, hfed, hreports⟩ := hold.reports
    have hfed' := hfed.step hstep hbytes fun accepted he => absurd he (hreply accepted)
    exact h.update h.counted hworker (fun other channel id w _ => h.served other channel id w)
      ⟨hold.id_eq, hold.connected, hold.delivered_le, done, todo, htexts, hfed', hreports⟩
      rfl rfl rfl (set_getElem? hchannel).symm

theorem Sound.read (h : Sound n s) {length : ℕ} (hs : s.step (.read slot length) = some t) :
    Sound n t := by
  simp only [System.step] at hs
  split at hs
  case h_2 => cases hs
  case h_1 channel hchannel =>
    obtain ⟨server, hmove, rfl⟩ := Option.map_eq_some_iff.mp hs
    simp only [Server.step, Server.move] at hmove
    split at hmove
    case h_2 => cases hmove
    case h_1 id w hworker =>
      obtain ⟨w', hstep, rfl⟩ := Option.map_eq_some_iff.mp hmove
      have hold := h.served slot channel id w hchannel hworker
      obtain ⟨done, todo, htexts, hfed, hreports⟩ := hold.reports
      cases Worker.moves_of_step hstep with
      | bytes hp hne hlen =>
        have hchunk : (s.unread channel).take length <+: s.unread channel := List.take_prefix _ _
        have hlen := hchunk.length_le
        have hdelivered := hold.delivered_le
        simp only [System.unread, List.length_drop] at hchunk hlen
        refine h.update h.counted hworker (fun other channel id w _ => h.served other channel id w)
          (show Served _ _ slot { channel with delivered := channel.delivered + _ } id _ from
            ⟨hold.id_eq, hold.connected, ?_, done, todo, htexts, ?_, hreports⟩) rfl rfl rfl rfl
        · simp only [written, System.unread] at hlen hdelivered ⊢
          omega
        · rw [List.prefix_append_drop hchunk] at hfed
          have hread := hfed.read
          rwa [List.drop_drop] at hread

theorem opens_call (call : Call) (id : ℕ) (now : ℤ) : opens (call.op id now) = 0 := by
  cases call <;> rfl

theorem Served.call {clients : List PipeClient} (h : Served clients p slot channel id w)
    (hc : Counted n p) (hn : n < wordSize) (hslot : slot < n) {call : Call}
    (hcall : w.call = some call) {now : ℤ}
    (hs : w.step (.reply (p.perform (call.op id now)).2.isAccepted) = some w') :
    Served clients (p.perform (call.op id now)).1 slot channel id w' := by
  obtain ⟨done, todo, htexts, hfed, hreports⟩ := h.reports
  have hquiet : (∀ sequence sensitive, call ≠ .stateReceived sequence sensitive) →
      (∀ frame position, w.point ≠ .apply frame position) →
      Served clients (p.perform (call.op id now)).1 slot channel id w' := by
    intro hstate hpoint
    have hop : ∀ sequence sensitive now',
        call.op id now ≠ .stateReceived id sequence sensitive now' := by
      intro sequence sensitive now'
      cases call <;> simp [Call.op] at hstate ⊢
    obtain ⟨-, -, -, done, todo, htexts, hfed, hreports⟩ :=
      h.perform hc (by rw [opens_call]; exact hn) hslot hop
    refine ⟨h.id_eq, h.connected, h.delivered_le, done, todo, htexts, ?_, hreports⟩
    exact hfed.step hs (by simp) fun _ _ frame position hp => absurd hp (hpoint frame position)
  cases hmoves : Worker.moves_of_step hs with
  | @apply frame position hp =>
    obtain rfl : frame.call = call := by simpa [Worker.call, hp] using hcall
    cases haccepted : (p.perform (frame.call.op id now)).2.isAccepted with
    | true =>
      have hresult : applyFrame frame true ≠ .invalid := by
        cases hkind : frame.kind <;> simp [applyFrame, hkind]
      obtain ⟨text, later, rfl, hspells, hfed'⟩ := hfed.applied hp hresult
      exact ⟨h.id_eq, h.connected, h.delivered_le, done ++ [text], later, by simpa using htexts,
        hfed', hreports.accept hspells haccepted⟩
    | false =>
      have hresult : applyFrame frame false = .invalid := by
        cases hkind : frame.kind <;> simp [applyFrame, hkind]
      rw [perform_of_refused haccepted]
      refine ⟨h.id_eq, h.connected, h.delivered_le, done, todo, htexts, ?_, hreports⟩
      rw [hresult]
      exact hfed.congr rfl (by simp [Worker.applied])
  | fail hp =>
    obtain rfl : Call.protocolError = call := by simpa [Worker.call, hp] using hcall
    exact hquiet (by simp) (by simp [hp])
  | close hp =>
    obtain rfl : Call.connectionClosed = call := by simpa [Worker.call, hp] using hcall
    exact hquiet (by simp) (by simp [hp])

theorem Sound.call (h : Sound n s) (hn : n < wordSize) {now : ℤ} {server : Server}
    (hs : s.server.step (.call slot now) = some server) : Sound n { s with server } := by
  simp only [Server.step] at hs
  split at hs
  case h_2 => cases hs
  case h_1 id w hworker =>
    split at hs
    case h_2 => cases hs
    case h_1 call hcall =>
      simp only [Server.move, Server.perform, hworker] at hs
      obtain ⟨w', hstep, rfl⟩ := Option.map_eq_some_iff.mp hs
      obtain ⟨channel, hchannel⟩ := h.exists_channel hworker
      have hold := h.served slot channel id w hchannel hworker
      have hc := h.counted.perform (call.op id now) (by rw [opens_call]; omega)
      rw [opens_call] at hc
      refine h.update hc hworker (fun other channel' id' w₀ hother hchannel' hworker' => ?_)
        (hold.call h.counted hn (h.lt hworker) hcall hstep) rfl rfl rfl (set_getElem? hchannel).symm
      have hserved := h.served other channel' id' w₀ hchannel' hworker'
      refine hserved.perform h.counted (by rw [opens_call]; exact hn) (h.lt hworker') ?_
      intro sequence sensitive now' hop
      have hid : id = id' := by cases call <;> simp_all [Call.op]
      have := hserved.id_eq
      have := hold.id_eq
      omega

/-! ### Clients and new connections -/

theorem written_of_eq {clients : List PipeClient} {c : PipeClient} {socket : Socket}
    (hc : clients[channel.client]? = some c) (hs : c.sockets[channel.socket]? = some socket) :
    written clients channel = socket.written := by
  simp [written, hc, hs]

theorem spells_of_orderly {c : PipeClient} (h : c.Orderly) {k : ℕ} {socket : Socket}
    (hs : c.sockets[k]? = some socket) : ∀ text ∈ socket.written, ∃ frame, Spells text frame := by
  obtain ⟨ms, hms⟩ := h.talks k socket hs
  intro text htext
  rw [hms.written] at htext
  obtain ⟨m, hm, rfl⟩ := List.mem_map.mp htext
  exact ⟨_, Message.spells c.uuid (hms.fits m hm)⟩

theorem Sound.client (h : Sound n s) {i : ℕ} {c c' : PipeClient} (hi : s.clients[i]? = some c)
    {event : PipeClient.ClientEvent} (hs : c.step event = some c') :
    Sound n { s with clients := s.clients.set i c' } := by
  have horderly := (h.clients c (List.mem_of_getElem? hi)).step hs
  constructor
  case counted => exact h.counted
  case workers => exact h.workers
  case channels => exact h.channels
  case clients =>
    intro d hd
    rcases List.mem_or_eq_of_mem_set hd with hd | rfl
    · exact h.clients d hd
    · exact horderly
  case served =>
    intro slot channel id w hchannel hworker
    have hold := h.served slot channel id w hchannel hworker
    obtain ⟨d, socket, hd, hsocket⟩ := hold.connected
    by_cases hclient : i = channel.client
    · subst hclient
      obtain rfl := Option.some.inj (hi.symm.trans hd)
      obtain ⟨socket', hsocket', more, hmore⟩ := (PipeClient.grows_step hs).sockets _ socket hsocket
      have hd' : (s.clients.set channel.client c')[channel.client]? = some c' :=
        List.getElem?_set_self (List.getElem?_eq_some_iff.mp hi).1
      have hwritten := written_of_eq hd hsocket
      have hwritten' : written (s.clients.set channel.client c') channel =
          written s.clients channel ++ more := by
        rw [written_of_eq hd' hsocket', hwritten, hmore]
      obtain ⟨done, todo, htexts, hfed, hreports⟩ := hold.reports
      have hle := hold.delivered_le
      refine ⟨hold.id_eq, ⟨c', socket', hd', hsocket'⟩, ?_, done, todo ++ more, ?_, ?_, hreports⟩
      · rw [hwritten', List.flatten_append, List.length_append]
        omega
      · rw [hwritten', htexts, List.append_assoc]
      · rw [hwritten', List.flatten_append, List.drop_append_of_le_length hle]
        refine hfed.append fun text htext => spells_of_orderly horderly hsocket' text ?_
        rw [← hmore]
        exact List.mem_append_right _ htext
    · have hsame : written (s.clients.set i c') channel = written s.clients channel := by
        simp only [written, List.getElem?_set_ne hclient]
      refine ⟨hold.id_eq, ⟨d, socket, ?_, hsocket⟩, hsame ▸ hold.delivered_le, ?_⟩
      · rwa [List.getElem?_set_ne hclient]
      · rw [hsame]
        exact hold.reports

theorem lookup_opened (now : ℤ) (h : p.clients.lookup p.nextConnectionId = none) :
    (p.perform (.connectionOpened now)).1.clients.lookup p.nextConnectionId =
      some { lastUpdate := now } := by
  simp only [PrivacyState.perform, PrivacyState.connectionOpened_of_fresh h, AList.lookup_insert]

theorem served_opened {clients : List PipeClient} {i k : ℕ} {c : PipeClient} {socket : Socket}
    (hc : clients[i]? = some c) (horderly : c.Orderly) (hs : c.sockets[k]? = some socket)
    (hid : id = slot + 1)
    (hentry : ∀ client, p.clients.lookup id = some client → client.sensitive = none) :
    Served clients p slot { client := i, socket := k } id {} := by
  have hwritten : written clients { client := i, socket := k } = socket.written :=
    written_of_eq hc hs
  refine ⟨hid, ⟨c, socket, hc, hs⟩, Nat.zero_le _, [], socket.written, hwritten, ?_,
    fun client hl => Or.inl (hentry client hl)⟩
  rw [hwritten]
  exact ⟨spells_of_orderly horderly hs, rfl, by simp⟩

theorem Sound.accept (h : Sound n s) (hn : n + 1 < wordSize) {i k : ℕ} {now : ℤ}
    (hs : s.step (.accept i k now) = some t) : Sound (n + 1) t := by
  simp only [System.step] at hs
  split at hs
  case h_2 => cases hs
  case h_1 c hc =>
    obtain ⟨⟨hk, -⟩, hs⟩ := Option.ite_none_right_eq_some.mp hs
    obtain ⟨server, hserver, rfl⟩ := Option.map_eq_some_iff.mp hs
    obtain ⟨-, hserver⟩ := Option.ite_none_right_eq_some.mp hserver
    obtain rfl := Option.some.inj hserver
    have hnext := h.counted.next_eq hn
    constructor
    case counted => exact h.counted.perform (.connectionOpened now) hn
    case clients => exact h.clients
    case workers => simp [h.workers]
    case channels => simp [h.channels]
    case served =>
      intro slot channel id w hchannel hworker
      simp only [Server.perform] at hworker ⊢
      rcases Nat.lt_trichotomy slot n with hlt | rfl | hgt
      · rw [List.getElem?_append_left (by rw [h.channels]; exact hlt)] at hchannel
        rw [List.getElem?_append_left (by rw [h.workers]; exact hlt)] at hworker
        exact (h.served slot channel id w hchannel hworker).perform h.counted hn hlt (by simp)
      · rw [List.getElem?_append_right (by rw [h.channels]), h.channels, Nat.sub_self] at hchannel
        rw [List.getElem?_append_right (by rw [h.workers]), h.workers, Nat.sub_self] at hworker
        obtain rfl := Option.some.inj hchannel
        obtain ⟨rfl, rfl⟩ := Prod.mk.inj (Option.some.inj hworker)
        have hsocket : c.sockets[k]? = some c.sockets[k] := List.getElem?_eq_getElem hk
        refine served_opened hc (h.clients c (List.mem_of_getElem? hc)) hsocket hnext ?_
        intro client hclient
        have hopened := lookup_opened now (h.counted.next_fresh hn)
        obtain rfl := Option.some.inj (hopened.symm.trans hclient)
        rfl
      · have := (List.getElem?_eq_some_iff.mp hchannel).1
        simp only [List.length_append, h.channels, List.length_singleton] at this
        omega

theorem Sound.step (h : Sound n s) {label : Label} (hn : n + label.opens < wordSize)
    (hs : s.step label = some t) : Sound (n + label.opens) t := by
  cases label with
  | client i event =>
    simp only [System.step] at hs
    split at hs
    case h_2 => cases hs
    case h_1 c hc =>
      obtain ⟨c', hstep, rfl⟩ := Option.map_eq_some_iff.mp hs
      exact h.client hc hstep
  | accept i k now => exact h.accept hn hs
  | read slot length => exact h.read hs
  | server label =>
    cases label with
    | accept now => cases hs
    | bytes slot chunk => cases hs
    | proceed slot =>
      obtain ⟨server, hstep, rfl⟩ := Option.map_eq_some_iff.mp hs
      exact h.move hstep (by simp) (by simp)
    | nothing slot =>
      obtain ⟨server, hstep, rfl⟩ := Option.map_eq_some_iff.mp hs
      exact h.move hstep (by simp) (by simp)
    | ended slot =>
      obtain ⟨server, hstep, rfl⟩ := Option.map_eq_some_iff.mp hs
      exact h.move hstep (by simp) (by simp)
    | call slot now =>
      obtain ⟨server, hstep, rfl⟩ := Option.map_eq_some_iff.mp hs
      exact h.call hn hstep
    | tick now =>
      obtain rfl := Option.some.inj hs
      exact h.perform hn rfl (by simp)
    | setEnabled enabled =>
      obtain rfl := Option.some.inj hs
      exact h.perform hn rfl (by simp)
    | stop =>
      obtain rfl := Option.some.inj hs
      exact ⟨h.counted, h.clients, h.workers, h.channels, h.served⟩

theorem sound_start (timeout : ℤ) (clientIds : List { clientId : Bytes // Uuid clientId }) :
    Sound 0 (start timeout clientIds) := by
  constructor
  case counted => exact PrivacyState.counted_init timeout
  case clients =>
    intro c hc
    obtain ⟨clientId, -, rfl⟩ := List.mem_map.mp hc
    exact PipeClient.orderly_create clientId.2
  case workers => rfl
  case channels => rfl
  case served => simp [start]

/-- In a settled connection everything written has been reported. -/
theorem Sound.recorded (h : Sound n s) {c : PipeClient} {client : Client}
    (hsettled : s.Settled c client) :
    client.sensitive = none ∨ client.sensitive = some (decide (c.latestStatus = .sensitive)) := by
  obtain ⟨slot, channel, id, w, socket, hchannel, hworker, hc, hsocket, hl, ho, hunread,
    hpending⟩ := hsettled.exists_channel
  obtain ⟨done, todo, htexts, hfed, hreports⟩ :=
    (h.served slot channel id w hchannel hworker).reports
  change w.Fed todo (s.unread channel) at hfed
  rw [hunread] at hfed
  obtain rfl : todo = [] := hfed.eq_nil (by simp [hpending])
  rw [List.append_nil, written_of_eq hc hsocket] at htexts
  obtain ⟨ms, hms⟩ := (h.clients c (List.mem_of_getElem? hc)).talks _ socket hsocket
  have hflag : lastFlag done = some (decide (c.latestStatus = .sensitive)) := by
    rw [← htexts, hms.written, lastFlag_text c.uuid hms.fits, hms.latest ho, Option.map_some]
  exact hflag ▸ hreports client hl

theorem Sound.agrees (h : Sound n s) : s.Agrees where
  recorded _ _ := h.recorded
  safe hmode c client hsettled := by
    obtain ⟨-, -, -, -, hall⟩ := (PrivacyState.mode_eq_safe_iff _).mp hmode
    obtain ⟨slot, channel, id, w, socket, -, -, -, -, hl, -⟩ := hsettled.exists_channel
    have hsafe := (hall id client hl).2
    rcases h.recorded hsettled with hr | hr
    · simp [hsafe] at hr
    · rw [hsafe, Option.some_inj] at hr
      cases hstatus : c.latestStatus with
      | safe => rfl
      | sensitive => simp [hstatus] at hr

/-- The privacy state agrees with the clients in every run that does not wrap the
identifiers. -/
theorem agrees_of_run {timeout : ℤ} {clientIds : List { clientId : Bytes // Uuid clientId }}
    {labels : List Label} (hn : (labels.map Label.opens).sum < wordSize)
    (hrun : Transition.run System.step (start timeout clientIds) labels = some s) : s.Agrees := by
  have h : Sound (0 + (labels.map Label.opens).sum) s :=
    Transition.run_weighted (P := fun _ => True) (fun n s l t h _ hn hs => h.step hn hs)
      (sound_start timeout clientIds) (by simp)
      (show 0 + (labels.map Label.opens).sum < wordSize by omega) hrun
  exact h.agrees

def clientIdOf (digits : Bytes) : Bytes := digits ++ ascii "-89ab-cdef-0123-456789abcdef"

def editors : List { clientId : Bytes // Uuid clientId } :=
  [⟨clientIdOf (ascii "00000000"), isUuid_iff.mp (by decide +kernel)⟩,
    ⟨clientIdOf (ascii "00000001"), isUuid_iff.mp (by decide +kernel)⟩,
    ⟨clientIdOf (ascii "00000002"), isUuid_iff.mp (by decide +kernel)⟩]

def greeting : List Label :=
  [.client 0 .connect, .accept 0 0 0, .client 0 (.connected 0), .server (.proceed 0),
    .read 0 4096, .server (.proceed 0), .server (.call 0 0), .server (.proceed 0),
    .server (.call 0 0), .server (.proceed 0), .server (.proceed 0), .client 0 (.publish .safe),
    .read 0 4096, .server (.proceed 0)]

theorem agrees_greeting :
    ((Transition.run System.step (start 2000 editors) greeting).get (by decide +kernel)).Agrees :=
  agrees_of_run (by decide) (Option.some_get _).symm

/-! ### Identifiers that wrap

A worker that is about to apply a STATE when a tick removes its entry can wait until the
identifiers have wrapped and its own is handed out again. -/

def staleFrame : Frame := { kind := .state, sequence := 2, sensitive := false }

def newcomer : PipeClient :=
  .create (clientIdOf (ascii "00000001")) (isUuid_iff.mp (by decide +kernel))

/-- The first worker waits while the third client has made `n` visits. -/
structure Waiting (n : ℕ) (s : System) : Prop where
  clients : ∃ a c, s.clients = [a, newcomer, c] ∧ c.socket = none ∧ c.disposed = false ∧
    c.sockets.length = n
  stale : ∃ w position, s.server.workers[0]? = some (1, w) ∧ w.point = .apply staleFrame position
  workers : s.server.workers.length = n + 1
  channels : s.channels.length = n + 1
  taken : ∀ channel ∈ s.channels, channel.client ≠ 1 ∧ (channel.client = 2 → channel.socket < n)
  next : s.server.privacyState.nextConnectionId = (n + 2) % wordSize
  gone : s.server.privacyState.clients.lookup 1 = none
  silent : ∀ id client, s.server.privacyState.clients.lookup id = some client →
    client.helloReceived = false
  running : s.server.running = true

/-- The third client connects, is accepted and goes away unheard. -/
def passing (n : ℕ) : List Label :=
  [.client 2 .connect, .accept 2 n 0, .client 2 (.connected n), .client 2 (.ended n),
    .client 2 (.closed n)]

structure Visiting (n : ℕ) (c : PipeClient) (r : ReadyState) (emitted : Bool) : Prop where
  socket : c.socket = some n
  disposed : c.disposed = false
  length : c.sockets.length = n + 1
  current : ∃ s, c.sockets[n]? = some s ∧ s.readyState = r ∧ s.connectEmitted = emitted ∧
    s.closeEmitted = false

theorem visiting_connect {c : PipeClient} (hs : c.socket = none) (hd : c.disposed = false)
    (hn : c.sockets.length = n) :
    ∃ c', c.step .connect = some c' ∧ Visiting n c' .opening false := by
  refine ⟨{ c with sockets := c.sockets ++ [{}], socket := some n }, ?_, rfl, hd, by simp [hn], ?_⟩
  · simp [PipeClient.step, PipeClient.connect, hs, hd, hn]
  · exact ⟨({} : Socket), by simp [← hn], rfl, rfl, rfl⟩

theorem Visiting.connected {c : PipeClient} (h : Visiting n c .opening false) :
    ∃ c', c.step (.connected n) = some c' ∧ Visiting n c' .opened true := by
  obtain ⟨socket, hsocket, hready, hemitted, hclose⟩ := h.current
  refine ⟨_, by simp only [PipeClient.step, hsocket, hemitted]; rfl, ?_⟩
  unfold PipeClient.handleConnected
  rw [if_neg (by simp [PipeClient.updateSocket, h.socket, h.disposed])]
  refine ⟨h.socket, h.disposed, ?_, ?_⟩
  · simp [PipeClient.writeState, PipeClient.write, PipeClient.updateSocket, h.length]
  · simp [PipeClient.writeState, PipeClient.write, PipeClient.updateSocket, hsocket, hready, hclose]

theorem Visiting.ended {c : PipeClient} (h : Visiting n c .opened true) :
    ∃ c', c.step (.ended n) = some c' ∧ Visiting n c' .closed true := by
  obtain ⟨socket, hsocket, hready, hemitted, hclose⟩ := h.current
  have ho : c.readyState n = .opened :=
    (PipeClient.readyState_eq (by decide)).mpr ⟨socket, hsocket, hready⟩
  refine ⟨_, if_pos ho, h.socket, h.disposed, ?_, ?_⟩
  · simp [PipeClient.updateSocket, h.length]
  · simp [PipeClient.updateSocket, hsocket, hemitted, hclose]

theorem Visiting.closed {c : PipeClient} (h : Visiting n c .closed true) :
    ∃ c', c.step (.closed n) = some c' ∧ c'.socket = none ∧ c'.disposed = false ∧
      c'.sockets.length = n + 1 := by
  obtain ⟨socket, hsocket, hready, hemitted, hclose⟩ := h.current
  refine ⟨_, by simp only [PipeClient.step, hsocket, hclose]; rfl, ?_⟩
  have hcore := PipeClient.sameCore_handleClosed (k := n) (c := c.updateSocket n fun socket =>
    { socket with readyState := .closed, closeEmitted := true }) h.socket
  refine ⟨hcore.socket, hcore.disposed.trans h.disposed, ?_⟩
  rw [hcore.sockets]
  simp [PipeClient.updateSocket, h.length]

theorem step_client {clients : List PipeClient} (hs : s.clients = clients) {i : ℕ}
    {c c' : PipeClient} (hi : clients[i]? = some c) {event : PipeClient.ClientEvent}
    (hc : c.step event = some c') :
    s.step (.client i event) = some { s with clients := clients.set i c' } := by
  simp [System.step, hs, hi, hc]

def accepted (s : System) (i k : ℕ) (now : ℤ) : System :=
  { s with
    server :=
      { s.server.perform (.connectionOpened now) with
        workers := s.server.workers ++ [(s.server.privacyState.nextConnectionId, {})] }
    channels := s.channels ++ [{ client := i, socket := k }] }

theorem step_accept {i k : ℕ} {now : ℤ} {c : PipeClient} (hc : s.clients[i]? = some c)
    (hk : k < c.sockets.length)
    (hfree : ∀ channel ∈ s.channels, channel.client = i → channel.socket ≠ k)
    (hrunning : s.server.running = true) :
    s.step (.accept i k now) = some (s.accepted i k now) := by
  simp only [System.step, hc]
  rw [if_pos ⟨hk, hfree⟩, Server.step, if_pos hrunning]
  rfl

theorem Waiting.passing (h : Waiting n s) (hn : n + 1 < wordSize) :
    ∃ t, Transition.run System.step s (passing n) = some t ∧ Waiting (n + 1) t := by
  obtain ⟨a, c, hclients, hsocket, hdisposed, hlength⟩ := h.clients
  obtain ⟨c₁, hc₁, hv₁⟩ := visiting_connect hsocket hdisposed hlength
  obtain ⟨c₂, hc₂, hv₂⟩ := hv₁.connected
  obtain ⟨c₃, hc₃, hv₃⟩ := hv₂.ended
  obtain ⟨c₄, hc₄, hsocket', hdisposed', hlength'⟩ := hv₃.closed
  have haccept : step { s with clients := [a, newcomer, c₁] } (.accept 2 n 0) = _ :=
    step_accept (c := c₁) rfl (by rw [hv₁.length]; omega)
      (fun channel hmem hclient => ((h.taken channel hmem).2 hclient).ne) h.running
  refine ⟨{ accepted { s with clients := [a, newcomer, c₁] } 2 n 0 with
    clients := [a, newcomer, c₄] }, ?_, ?_⟩
  · refine Transition.run_cons.mpr ⟨_, step_client hclients rfl hc₁, ?_⟩
    refine Transition.run_cons.mpr ⟨_, haccept, ?_⟩
    refine Transition.run_cons.mpr ⟨_, step_client rfl rfl hc₂, ?_⟩
    refine Transition.run_cons.mpr ⟨_, step_client rfl rfl hc₃, ?_⟩
    exact Transition.run_cons.mpr ⟨_, step_client rfl rfl hc₄, rfl⟩
  · have hkept : ∀ id client,
        (s.server.privacyState.perform (.connectionOpened 0)).1.clients.lookup id = some client →
          s.server.privacyState.clients.lookup id = some client ∨
            id = (n + 2) % wordSize ∧ client = { lastUpdate := 0 } := by
      intro id client hl
      cases PrivacyState.perform_client hl with
      | kept hl => exact Or.inl hl
      | opened now op_eq id_eq _ record =>
        cases op_eq
        exact Or.inr ⟨id_eq.trans h.next, record⟩
      | greeted c clientId now op_eq => cases op_eq
      | published c sequence sensitive now op_eq => cases op_eq
      | rearmed c op_eq => cases op_eq
    constructor
    case clients => exact ⟨a, c₄, rfl, hsocket', hdisposed', hlength'⟩
    case stale =>
      obtain ⟨w, position, hw, hpoint⟩ := h.stale
      refine ⟨w, position, ?_, hpoint⟩
      simp only [accepted]
      rw [List.getElem?_append_left (by rw [h.workers]; omega), hw]
    case workers => simp [accepted, h.workers]
    case channels => simp [accepted, h.channels]
    case taken =>
      intro channel hmem
      rcases List.mem_append.mp hmem with hmem | hmem
      · obtain ⟨hne, hlt⟩ := h.taken channel hmem
        exact ⟨hne, fun hclient => (hlt hclient).trans (by omega)⟩
      · obtain rfl := List.mem_singleton.mp hmem
        simp
    case next =>
      change increment s.server.privacyState.nextConnectionId = _
      rw [h.next, increment, Nat.mod_add_mod]
    case gone =>
      refine Option.eq_none_iff_forall_ne_some.mpr fun client hl => ?_
      rcases hkept 1 client hl with hl | ⟨hid, -⟩
      · simp [h.gone] at hl
      · rcases Nat.lt_or_ge (n + 2) wordSize with hlt | hge
        · rw [Nat.mod_eq_of_lt hlt] at hid
          omega
        · rw [show n + 2 = wordSize by omega, Nat.mod_self] at hid
          omega
    case silent =>
      intro id client hl
      rcases hkept id client hl with hl | ⟨-, rfl⟩
      · exact h.silent id client hl
      · rfl
    case running => exact h.running

def passings : ℕ → List Label
  | 0 => []
  | n + 1 => passings n ++ passing n

theorem Waiting.passings (h : Waiting 0 s) (hn : n < wordSize) :
    ∃ t, Transition.run System.step s (passings n) = some t ∧ Waiting n t := by
  induction n with
  | zero => exact ⟨s, rfl, h⟩
  | succ n ih =>
    obtain ⟨t, hrun, ht⟩ := ih (by omega)
    obtain ⟨u, hrun', hu⟩ := ht.passing hn
    exact ⟨u, Transition.run_append.mpr ⟨t, hrun, hrun'⟩, hu⟩

def arrived : PipeClient :=
  (Transition.run PipeClient.step newcomer [.connect, .connected 0]).get (by decide +kernel)

def arrival : Bytes := helloFrame newcomer.clientId ++ stateFrame 1 .sensitive

theorem exists_arrived_socket : ∃ socket, arrived.sockets[0]? = some socket ∧
    socket.readyState = .opened ∧ socket.written.flatten = arrival := by
  have h : ∃ socket ∈ arrived.sockets, arrived.sockets[0]? = some socket ∧
      socket.readyState = .opened ∧ socket.written.flatten = arrival := by
    decide +kernel
  obtain ⟨socket, -, hsocket⟩ := h
  exact ⟨socket, hsocket⟩

/-- A worker serves the second client under the identifier of the waiting worker. -/
structure Replaced (s : System) (slot delivered : ℕ) (w : Worker) (client : Client) : Prop where
  clients : s.clients[1]? = some arrived
  stale : ∃ w position, s.server.workers[0]? = some (1, w) ∧ w.point = .apply staleFrame position
  worker : s.server.workers[slot]? = some (1, w)
  channel : s.channels[slot]? = some { client := 1, socket := 0, delivered }
  later : slot ≠ 0
  entry : s.server.privacyState.clients.lookup 1 = some client
  silent : ∀ id other, s.server.privacyState.clients.lookup id = some other → id ≠ 1 →
    other.helloReceived = false
  running : s.server.running = true

variable {delivered : ℕ} {client client' : Client}

theorem Replaced.update (h : Replaced s slot delivered w client) {delivered' : ℕ}
    (hclients : t.clients = s.clients)
    (hworkers : t.server.workers = s.server.workers.set slot (1, w'))
    (hchannels : t.channels =
      s.channels.set slot { client := 1, socket := 0, delivered := delivered' })
    (hentry : t.server.privacyState.clients.lookup 1 = some client')
    (hothers : ∀ id, id ≠ 1 → t.server.privacyState.clients.lookup id =
      s.server.privacyState.clients.lookup id)
    (hrunning : t.server.running = s.server.running) : Replaced t slot delivered' w' client' where
  clients := hclients ▸ h.clients
  stale := by
    obtain ⟨v, position, hv, hpoint⟩ := h.stale
    exact ⟨v, position, by rw [hworkers, List.getElem?_set_ne h.later, hv], hpoint⟩
  worker := by
    rw [hworkers]
    exact List.getElem?_set_self (List.getElem?_eq_some_iff.mp h.worker).1
  channel := by
    rw [hchannels]
    exact List.getElem?_set_self (List.getElem?_eq_some_iff.mp h.channel).1
  later := h.later
  entry := hentry
  silent id other hl hne := h.silent id other (hothers id hne ▸ hl) hne
  running := hrunning.trans h.running

theorem Replaced.proceed (h : Replaced s slot delivered w client) (w' : Worker)
    (hs : w.step (.proceed true) = some w') :
    ∃ t, s.step (.server (.proceed slot)) = some t ∧ Replaced t slot delivered w' client := by
  refine ⟨_, by simp only [System.step, Server.step, Server.move, h.worker, h.running, hs]; rfl, ?_⟩
  exact h.update rfl rfl (set_getElem? h.channel).symm h.entry (fun _ _ => rfl) h.running.symm

theorem Replaced.read (h : Replaced s slot 0 w client) (w' : Worker)
    (hs : w.step (.bytes arrival) = some w') :
    ∃ t, s.step (.read slot 4096) = some t ∧ Replaced t slot arrival.length w' client := by
  obtain ⟨socket, hsocket, -, hwritten⟩ := exists_arrived_socket
  have hchunk : (s.unread { client := 1, socket := 0 }).take 4096 = arrival := by
    rw [System.unread, written_of_eq h.clients hsocket, hwritten]
    decide +kernel
  refine ⟨_, by
    simp only [System.step, h.channel, hchunk, Server.step, Server.move, h.worker, hs]
    rfl, ?_⟩
  exact h.update rfl rfl (by simp) h.entry (fun _ _ => rfl) rfl

theorem Replaced.call (h : Replaced s slot delivered w client) (w' : Worker) {call : Call}
    (hcall : w.call = some call) (hs : w.step (.reply true) = some w')
    (hreply : (s.server.privacyState.perform (call.op 1 0)).2 = .accepted true)
    (hp : (s.server.privacyState.perform (call.op 1 0)).1.clients =
      s.server.privacyState.clients.replace 1 client') :
    ∃ t, s.step (.server (.call slot 0)) = some t ∧ Replaced t slot delivered w' client' := by
  refine ⟨_, by
    simp only [System.step, Server.step, h.worker, hcall, Server.perform, Server.move, hreply,
      Reply.isAccepted, hs]
    rfl, ?_⟩
  refine h.update rfl rfl (set_getElem? h.channel).symm ?_ (fun id hne => ?_) rfl
  · change (s.server.privacyState.perform (call.op 1 0)).1.clients.lookup 1 = _
    rw [hp, AList.lookup_replace (AList.lookup_isSome.mp (by simp [h.entry]))]
  · change (s.server.privacyState.perform (call.op 1 0)).1.clients.lookup id = _
    rw [hp, AList.lookup_replace_ne hne]

def hearing (slot : ℕ) : List Label :=
  [.server (.proceed slot), .read slot 4096, .server (.proceed slot), .server (.call slot 0),
    .server (.proceed slot), .server (.call slot 0), .server (.proceed slot)]

theorem Replaced.hello (h : Replaced s slot delivered w client) (w' : Worker)
    {clientId : Bytes} (hcall : w.call = some (.helloReceived clientId))
    (hs : w.step (.reply true) = some w') (hclient : client.helloReceived = false) :
    ∃ t, s.step (.server (.call slot 0)) = some t ∧
      Replaced t slot delivered w' (client.greet clientId 0) := by
  have hunique : s.server.privacyState.duplicateIdentity 1 clientId = false := by
    rw [← Bool.not_eq_true, PrivacyState.duplicateIdentity_iff]
    rintro ⟨other, c, hl, hne, hgreeted, -⟩
    simp [h.silent other c hl hne] at hgreeted
  have hp : s.server.privacyState.helloReceived 1 clientId 0 = _ :=
    PrivacyState.helloReceived_of_fresh h.entry hclient hunique
  refine h.call w' hcall hs ?_ ?_
  · simp only [Call.op, PrivacyState.perform, hp]
  · simp only [Call.op, PrivacyState.perform, hp]

theorem Replaced.state (h : Replaced s slot delivered w client) (w' : Worker)
    {sequence : UInt64} {sensitive : Bool}
    (hcall : w.call = some (.stateReceived sequence sensitive))
    (hs : w.step (.reply true) = some w') (hgreeted : client.helloReceived = true)
    (haccepts : client.Accepts sequence) :
    ∃ t, s.step (.server (.call slot 0)) = some t ∧
      Replaced t slot delivered w' (client.publish sequence sensitive 0) := by
  have hp : s.server.privacyState.stateReceived 1 sequence sensitive 0 = _ :=
    PrivacyState.stateReceived_of_accepts h.entry hgreeted haccepts
  refine h.call w' hcall hs ?_ ?_
  · simp only [Call.op, PrivacyState.perform, hp]
  · simp only [Call.op, PrivacyState.perform, hp, PrivacyState.publishState]

def arrivedWorker : Worker := { pending := arrival, point := .scan }

def greetedWorker : Worker := arrivedWorker.scanPending.applied 47 .continues

def heardWorker : Worker := greetedWorker.scanPending.applied 22 .continues

theorem Replaced.hearing (h : Replaced s slot 0 {} { lastUpdate := 0 }) :
    ∃ t w client, Transition.run System.step s (hearing slot) = some t ∧
      Replaced t slot arrival.length w client ∧ w.pending = [] ∧
      client.helloReceived = true ∧ client.lastSequence = some 1 := by
  obtain ⟨s₁, hs₁, h₁⟩ := h.proceed { point := .read } (by decide)
  obtain ⟨s₂, hs₂, h₂⟩ := h₁.read arrivedWorker (by decide +kernel)
  obtain ⟨s₃, hs₃, h₃⟩ := h₂.proceed arrivedWorker.scanPending (by decide +kernel)
  obtain ⟨s₄, hs₄, h₄⟩ := h₃.hello greetedWorker
    (show _ = some (Call.helloReceived newcomer.clientId) by decide +kernel)
    (by decide +kernel) rfl
  obtain ⟨s₅, hs₅, h₅⟩ := h₄.proceed greetedWorker.scanPending (by decide +kernel)
  obtain ⟨s₆, hs₆, h₆⟩ := h₅.state heardWorker
    (show _ = some (Call.stateReceived 1 true) by decide +kernel)
    (by decide +kernel) rfl (by simp [Client.Accepts, Client.greet])
  obtain ⟨s₇, hs₇, h₇⟩ := h₆.proceed heardWorker.scanPending (by decide +kernel)
  refine ⟨s₇, _, _, ?_, h₇, by decide +kernel, rfl, rfl⟩
  simp only [System.hearing, Transition.run, hs₁, hs₂, hs₃, hs₄, hs₅, hs₆, hs₇, Option.bind_some]

/-- The waiting worker overwrites the status of the second client. -/
theorem Replaced.overwritten (h : Replaced s slot arrival.length w client) (hw : w.pending = [])
    (hgreeted : client.helloReceived = true) (hlast : client.lastSequence = some 1) :
    ∃ t, s.step (.server (.call 0 0)) = some t ∧ ¬ t.Agrees := by
  obtain ⟨v, position, hv, hpoint⟩ := h.stale
  have hcall : v.call = some (.stateReceived 2 false) := by
    simp [Worker.call, hpoint, staleFrame, Frame.call]
  have hp : s.server.privacyState.stateReceived 1 2 false 0 = _ :=
    PrivacyState.stateReceived_of_accepts h.entry hgreeted (by simp [Client.Accepts, hlast])
  have hentry : (s.server.privacyState.perform (.stateReceived 1 2 false 0)).1.clients.lookup 1 =
      some (client.publish 2 false 0) := by
    simp only [PrivacyState.perform, hp, PrivacyState.publishState]
    exact AList.lookup_replace (AList.lookup_isSome.mp (by simp [h.entry]))
  have hstep : ∃ v', v.step (.reply (s.server.privacyState.perform
      (.stateReceived 1 2 false 0)).2.isAccepted) = some v' := by
    simp [Worker.step, hpoint]
  obtain ⟨v', hv'⟩ := hstep
  refine ⟨_, by
    simp only [System.step, Server.step, hv, hcall, Call.op, Server.perform, Server.move, hv']
    rfl, ?_⟩
  intro hagrees
  obtain ⟨socket, hsocket, ho, hwritten⟩ := exists_arrived_socket
  have hrecorded := hagrees.recorded arrived (client.publish 2 false 0)
    ⟨slot, _, 1, w, socket, h.channel, ?_, h.clients, hsocket, hentry, ho, ?_, hw⟩
  · rcases hrecorded with hr | hr
    · simp [Client.publish] at hr
    · simp [Client.publish] at hr
      exact absurd hr (by decide +kernel)
  · simp only
    rw [List.getElem?_set_ne h.later.symm]
    exact h.worker
  · rw [System.unread, written_of_eq h.clients hsocket, hwritten, List.drop_length]

/-- The entry of the first client expires while its worker is about to apply a STATE. -/
def lapse : List Label := greeting ++ [.server (.tick 9000)]

def lapsed : System :=
  (Transition.run System.step (start 2000 editors) lapse).get (by decide +kernel)

theorem waiting_lapsed : Waiting 0 lapsed := by
  -- The run is evaluated once, for all that is read off its last state.
  obtain ⟨hnone, hclients, hstale, hworkers, hchannels, htaken, hnext, hrunning⟩ :
      lapsed.server.privacyState.clients.entries = [] ∧
      (∃ a ∈ lapsed.clients, ∃ c ∈ lapsed.clients, lapsed.clients = [a, newcomer, c] ∧
        c.socket = none ∧ c.disposed = false ∧ c.sockets.length = 0) ∧
      (∃ w ∈ lapsed.server.workers, lapsed.server.workers[0]? = some (1, w.2) ∧
        w.2.point = .apply staleFrame 17) ∧
      lapsed.server.workers.length = 1 ∧ lapsed.channels.length = 1 ∧
      (∀ channel ∈ lapsed.channels, channel.client ≠ 1 ∧
        (channel.client = 2 → channel.socket < 0)) ∧
      lapsed.server.privacyState.nextConnectionId = 2 % wordSize ∧
      lapsed.server.running = true := by
    decide +kernel
  constructor
  case clients =>
    obtain ⟨a, -, c, -, hclients⟩ := hclients
    exact ⟨a, c, hclients⟩
  case stale =>
    obtain ⟨w, -, hworker, hpoint⟩ := hstale
    exact ⟨w.2, 17, hworker, hpoint⟩
  case workers => exact hworkers
  case channels => exact hchannels
  case taken => exact htaken
  case next => exact hnext
  case gone => exact AList.entries_eq_nil_iff.mp hnone 1
  case silent =>
    intro id client hl
    simp [AList.entries_eq_nil_iff.mp hnone id] at hl
  case running => exact hrunning

def arriving : List Label := [.client 1 .connect, .accept 1 0 0, .client 1 (.connected 0)]

/-- The second client arrives when the identifier of the waiting worker is the next one. -/
theorem Waiting.replaced (h : Waiting n s) (hn : n + 1 = wordSize) :
    ∃ t, Transition.run System.step s arriving = some t ∧
      Replaced t (n + 1) 0 {} { lastUpdate := 0 } := by
  obtain ⟨a, c, hclients, -, -, -⟩ := h.clients
  have hnext : s.server.privacyState.nextConnectionId = 1 := by
    rw [h.next, show n + 2 = wordSize + 1 by omega]
    decide
  obtain ⟨b, hb, hlength⟩ : ∃ b, newcomer.step .connect = some b ∧ b.sockets.length = 1 ∧
      b.step (.connected 0) = some arrived :=
    ⟨_, rfl, by decide +kernel, by decide +kernel⟩
  have haccept : step { s with clients := [a, b, c] } (.accept 1 0 0) = _ :=
    step_accept (c := b) rfl (by rw [hlength.1]; omega)
      (fun channel hmem hclient => absurd hclient (h.taken channel hmem).1) h.running
  refine ⟨{ accepted { s with clients := [a, b, c] } 1 0 0 with
    clients := [a, arrived, c] }, ?_, ?_⟩
  · refine Transition.run_cons.mpr ⟨_, step_client hclients rfl hb, ?_⟩
    refine Transition.run_cons.mpr ⟨_, haccept, ?_⟩
    exact Transition.run_cons.mpr ⟨_, step_client rfl rfl hlength.2, rfl⟩
  · constructor
    case clients => rfl
    case stale =>
      obtain ⟨w, position, hw, hpoint⟩ := h.stale
      refine ⟨w, position, ?_, hpoint⟩
      simp only [accepted]
      rw [List.getElem?_append_left (by rw [h.workers]; omega), hw]
    case worker => simp [accepted, ← h.workers, hnext]
    case channel => simp [accepted, ← h.channels]
    case later => omega
    case entry =>
      have hopened := lookup_opened 0 (p := s.server.privacyState) (by rw [hnext]; exact h.gone)
      rwa [hnext] at hopened
    case silent =>
      intro id other hl hne
      cases PrivacyState.perform_client hl with
      | kept hl => exact h.silent id other hl
      | opened now op_eq id_eq _ record =>
        subst record
        rfl
      | greeted c clientId now op_eq => cases op_eq
      | published c sequence sensitive now op_eq => cases op_eq
      | rearmed c op_eq => cases op_eq
    case running => exact h.running

/-- The first worker waits until its identifier is handed out again. -/
def wrapping : List Label :=
  lapse ++ (passings (wordSize - 1) ++ (arriving ++ (hearing wordSize ++ [.server (.call 0 0)])))

/-- Without a bound on the openings the agreement fails: an identifier can come back while
a worker still holds it. -/
theorem exists_run_not_agrees :
    ¬ ∀ (timeout : ℤ) (clientIds : List { clientId : Bytes // Uuid clientId })
      (labels : List Label) (s : System), clientIds.Nodup →
        Transition.run System.step (start timeout clientIds) labels = some s → s.Agrees := by
  intro h
  obtain ⟨s₁, hrun₁, h₁⟩ := waiting_lapsed.passings (n := wordSize - 1) (by decide)
  obtain ⟨s₂, hrun₂, h₂⟩ := h₁.replaced (by decide)
  obtain ⟨s₃, w, client, hrun₃, h₃, hw, hgreeted, hlast⟩ := h₂.hearing
  obtain ⟨s₄, hstep, hnot⟩ := h₃.overwritten hw hgreeted hlast
  refine hnot (h 2000 editors wrapping s₄ (by decide +kernel) ?_)
  refine Transition.run_append.mpr ⟨lapsed, (Option.some_get _).symm, ?_⟩
  refine Transition.run_append.mpr ⟨s₁, hrun₁, ?_⟩
  refine Transition.run_append.mpr ⟨s₂, hrun₂, ?_⟩
  refine Transition.run_append.mpr ⟨s₃, hrun₃, ?_⟩
  exact Transition.run_cons.mpr ⟨s₄, hstep, rfl⟩

end System

end PrivacyGuard
