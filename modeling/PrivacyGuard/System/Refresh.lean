import PrivacyGuard.System.Calls
import PrivacyGuard.System.Release

/-! # A round of refreshes

Re-arming forgets what the clients have reported, and the next STATE of each restores it.
Once every connection has carried a STATE since and is delivered, the mode is what the
windows show, and so is the output after a callback.
-/

namespace PrivacyGuard

open Utf16

open PrivacyState (Counted)

/-! ### What is recorded since -/

namespace System

variable {n id : ℕ} {p : PrivacyState} {op : Op} {texts more base : List Bytes} {text : Bytes}
  {frame : Frame} {clients : List PipeClient} {channel channel' : Channel} {w w' : Worker}

theorem lastFlag_append (texts more : List Bytes) :
    lastFlag (texts ++ more) = (lastFlag more).or (lastFlag texts) := by
  rw [lastFlag, List.reverse_append, List.findSome?_append]
  rfl

/-- A STATE among the texts has left a flag in the record. -/
def Recorded (p : PrivacyState) (id : ℕ) (texts : List Bytes) : Prop :=
  ∀ client, p.clients.lookup id = some client → lastFlag texts ≠ none → client.sensitive ≠ none

/-- Only re-arming empties the flag of a record. -/
theorem Recorded.perform (h : Recorded p id texts) (hc : Counted n p) (hn : n + opens op < wordSize)
    (hid : id ≤ n) (hop : p.switches op = false) : Recorded (p.perform op).1 id texts := by
  intro client hclient hflag
  cases PrivacyState.perform_client hclient with
  | kept hl => exact h client hl hflag
  | opened now op_eq id_eq =>
    subst op_eq
    have := hc.next_eq hn
    omega
  | greeted c clientId now _ hl _ _ record =>
    subst record
    exact h c hl hflag
  | published c sequence sensitive now _ _ _ _ record =>
    subst record
    simp [Client.publish]
  | rearmed c op_eq disabled =>
    subst op_eq
    simp [PrivacyState.switches, disabled] at hop

theorem switches_call (p : PrivacyState) (call : Call) (id : ℕ) (now : ℤ) :
    p.switches (call.op id now) = false := by
  cases call <;> rfl

theorem Recorded.accept (h : Recorded p id texts) (hc : Counted n p) (hn : n < wordSize)
    (hid : id ≤ n) (hspells : Spells text frame) {now : ℤ}
    (haccepted : (p.perform (frame.call.op id now)).2.isAccepted = true) :
    Recorded (p.perform (frame.call.op id now)).1 id (texts ++ [text]) := by
  have hperform : Recorded (p.perform (frame.call.op id now)).1 id texts := by
    exact h.perform hc (by rw [opens_call]; exact hn) hid (switches_call p frame.call id now)
  intro client hclient hflag
  rw [lastFlag_concat, textFlag_of_spells hspells] at hflag
  cases hkind : frame.kind with
  | hello => exact hperform client hclient (by simpa [hkind] using hflag)
  | goodbye => exact hperform client hclient (by simpa [hkind] using hflag)
  | state =>
    simp only [Frame.call, hkind, Call.op] at haccepted hclient
    rcases p.stateReceived_cases id frame.sequence frame.sensitive now with hp | ⟨c, hl, -, -, hp⟩
    · simp [PrivacyState.perform, hp, Reply.isAccepted] at haccepted
    · simp only [PrivacyState.perform, hp, PrivacyState.publishState] at hclient
      rw [AList.lookup_replace (AList.lookup_isSome.mp (by simp [hl]))] at hclient
      obtain rfl := Option.some.inj hclient
      simp [Client.publish]

/-- What the worker of a channel has applied behind a part of `base` is recorded. -/
structure Follows (base : List Bytes) (clients : List PipeClient) (p : PrivacyState)
    (channel : Channel) (id : ℕ) (w : Worker) : Prop where
  exists_applied : ∃ old done todo, old <+: base ∧
    written clients channel = old ++ (done ++ todo) ∧
    w.Fed todo ((written clients channel).flatten.drop channel.delivered) ∧ Recorded p id done

theorem Follows.perform (h : Follows base clients p channel id w) (hc : Counted n p)
    (hn : n + opens op < wordSize) (hid : id ≤ n) (hop : p.switches op = false) :
    Follows base clients (p.perform op).1 channel id w := by
  obtain ⟨old, done, todo, hold, htexts, hfed, hrecorded⟩ := h.exists_applied
  exact ⟨old, done, todo, hold, htexts, hfed, hrecorded.perform hc hn hid hop⟩

theorem Follows.move (h : Follows base clients p channel id w) {input : Input}
    (hs : w.step input = some w') (hbytes : ∀ chunk, input ≠ .bytes chunk)
    (hreply : ∀ accepted, input = .reply accepted → ∀ frame position,
      w.point = .apply frame position → applyFrame frame accepted = .invalid) :
    Follows base clients p channel id w' := by
  obtain ⟨old, done, todo, hold, htexts, hfed, hrecorded⟩ := h.exists_applied
  exact ⟨old, done, todo, hold, htexts, hfed.step hs hbytes hreply, hrecorded⟩

theorem Follows.read (h : Follows base clients p channel id w) {chunk : Bytes}
    (hchunk : chunk <+: (written clients channel).flatten.drop channel.delivered)
    (hs : w.step (.bytes chunk) = some w') :
    Follows base clients p { channel with delivered := channel.delivered + chunk.length } id
      w' := by
  obtain ⟨old, done, todo, hold, htexts, hfed, hrecorded⟩ := h.exists_applied
  cases Worker.moves_of_step hs with
  | bytes hp hne hlen =>
    rw [List.prefix_append_drop hchunk] at hfed
    have hread := hfed.read
    rw [List.drop_drop] at hread
    exact ⟨old, done, todo, hold, htexts, hread, hrecorded⟩

theorem applyFrame_eq_invalid : applyFrame frame false = .invalid := by
  cases hkind : frame.kind <;> simp [applyFrame, hkind]

theorem applyFrame_ne_invalid : applyFrame frame true ≠ .invalid := by
  cases hkind : frame.kind <;> simp [applyFrame, hkind]

theorem Follows.call (h : Follows base clients p channel id w) (hc : Counted n p)
    (hn : n < wordSize) (hid : id ≤ n) {call : Call} (hcall : w.call = some call) {now : ℤ}
    (hs : w.step (.reply (p.perform (call.op id now)).2.isAccepted) = some w') :
    Follows base clients (p.perform (call.op id now)).1 channel id w' := by
  have hquiet : (∀ frame position, w.point ≠ .apply frame position) →
      Follows base clients (p.perform (call.op id now)).1 channel id w' := by
    intro hpoint
    have h' := h.perform hc (by rw [opens_call]; exact hn) hid (switches_call p call id now)
    exact h'.move hs (by simp) fun _ _ frame position hp => absurd hp (hpoint frame position)
  cases hmoves : Worker.moves_of_step hs with
  | @apply frame position hp =>
    obtain rfl : frame.call = call := by simpa [Worker.call, hp] using hcall
    obtain ⟨old, done, todo, hold, htexts, hfed, hrecorded⟩ := h.exists_applied
    cases haccepted : (p.perform (frame.call.op id now)).2.isAccepted with
    | true =>
      obtain ⟨text, later, rfl, hspells, hfed'⟩ := hfed.applied hp applyFrame_ne_invalid
      exact ⟨old, done ++ [text], later, hold, by simpa using htexts, hfed',
        hrecorded.accept hc hn hid hspells haccepted⟩
    | false =>
      rw [perform_of_refused haccepted, applyFrame_eq_invalid]
      exact ⟨old, done, todo, hold, htexts, hfed.congr rfl (by simp [Worker.applied]), hrecorded⟩
  | fail hp => exact hquiet (by simp [hp])
  | close hp => exact hquiet (by simp [hp])

theorem Follows.append (h : Follows base clients p channel id w) (more : List Bytes)
    {clients' : List PipeClient}
    (hdelivered : channel.delivered ≤ (written clients channel).flatten.length)
    (hwritten : written clients' channel = written clients channel ++ more)
    (hmore : ∀ text ∈ more, ∃ frame, Spells text frame) :
    Follows base clients' p channel id w := by
  obtain ⟨old, done, todo, hold, htexts, hfed, hrecorded⟩ := h.exists_applied
  refine ⟨old, done, todo ++ more, hold, ?_, ?_, hrecorded⟩
  · rw [hwritten, htexts, List.append_assoc, List.append_assoc]
  · rw [hwritten, List.flatten_append, List.drop_append_of_le_length hdelivered]
    exact hfed.append hmore

theorem Follows.recorded (h : Follows base clients p channel id w)
    (hunread : (written clients channel).flatten.drop channel.delivered = [])
    (hpending : w.pending = [])
    (hflag : lastFlag ((written clients channel).drop base.length) ≠ none) {client : Client}
    (hl : p.clients.lookup id = some client) : client.sensitive ≠ none := by
  obtain ⟨old, done, todo, hold, htexts, hfed, hrecorded⟩ := h.exists_applied
  rw [hunread] at hfed
  obtain rfl : todo = [] := hfed.eq_nil (by simp [hpending])
  refine hrecorded client hl ?_
  have hsplit : done.take (base.length - old.length) ++
      (written clients channel).drop base.length = done := by
    rw [htexts, List.append_nil, List.drop_append, List.drop_of_length_le hold.length_le,
      List.nil_append, List.take_append_drop]
  rw [← hsplit, lastFlag_append]
  intro hnone
  exact hflag (Option.or_eq_none_iff.mp hnone).1

/-! ### Along a run -/

variable {s₀ s t : System} {slot : ℕ}

/-- What has been applied since `s₀` is recorded on every connection. -/
def Tracked (s₀ s : System) : Prop :=
  ∀ (slot : ℕ) (channel : Channel) (id : ℕ) (w : Worker),
    s.channels[slot]? = some channel → s.server.workers[slot]? = some (id, w) →
      Follows (written s₀.clients channel) s.clients s.server.privacyState channel id w

theorem Sound.tracked (h : Sound n s) : Tracked s s := by
  intro slot channel id w hchannel hworker
  obtain ⟨done, todo, htexts, hfed, -⟩ := (h.served slot channel id w hchannel hworker).reports
  exact ⟨done, [], todo, ⟨todo, htexts.symm⟩, htexts, hfed, fun client _ hflag => absurd rfl hflag⟩

theorem Sound.id_le (h : Sound n s) (hchannel : s.channels[slot]? = some channel)
    (hworker : s.server.workers[slot]? = some (id, w)) : id ≤ n := by
  have := h.lt hworker
  have := (h.served slot channel id w hchannel hworker).id_eq
  omega

theorem Tracked.perform (h : Tracked s₀ s) (hsound : Sound n s) (hn : n + opens op < wordSize)
    (hop : s.server.privacyState.switches op = false) :
    Tracked s₀ { s with server := s.server.perform op } := by
  intro slot channel id w hchannel hworker
  exact (h slot channel id w hchannel hworker).perform hsound.counted hn
    (hsound.id_le hchannel hworker) hop

theorem Tracked.update (hsound : Sound n s) (hworker : s.server.workers[slot]? = some (id, w))
    (hothers : ∀ other channel id w, other ≠ slot → s.channels[other]? = some channel →
      s.server.workers[other]? = some (id, w) →
        Follows (written s₀.clients channel) s.clients p channel id w)
    (hfollows : Follows (written s₀.clients channel') s.clients p channel' id w')
    (hclients : t.clients = s.clients) (hp : t.server.privacyState = p)
    (hworkers : t.server.workers = s.server.workers.set slot (id, w'))
    (hchannels : t.channels = s.channels.set slot channel') : Tracked s₀ t := by
  intro other channel id' w₀ hchannel hworker'
  rw [hclients, hp]
  rw [hchannels] at hchannel
  rw [hworkers] at hworker'
  by_cases hother : slot = other
  · subst hother
    have hslot := hsound.lt hworker
    rw [List.getElem?_set_self (by rw [hsound.channels]; exact hslot)] at hchannel
    rw [List.getElem?_set_self (by rw [hsound.workers]; exact hslot)] at hworker'
    obtain rfl := Option.some.inj hchannel
    obtain ⟨rfl, rfl⟩ := Prod.mk.inj (Option.some.inj hworker')
    exact hfollows
  · rw [List.getElem?_set_ne hother] at hchannel hworker'
    exact hothers other channel id' w₀ (Ne.symm hother) hchannel hworker'

theorem Tracked.client (h : Tracked s₀ s) (hsound : Sound n s) {i : ℕ} {c c' : PipeClient}
    (hi : s.clients[i]? = some c) {es : List PipeClient.ClientEvent}
    (hrun : Transition.run PipeClient.step c es = some c') :
    Tracked s₀ { s with clients := s.clients.set i c' } := by
  have hsound' := hsound.client_run hi hrun
  intro slot channel id w hchannel hworker
  have hold := h slot channel id w hchannel hworker
  have hserved := hsound.served slot channel id w hchannel hworker
  obtain ⟨d, socket, hd, hsocket⟩ := hserved.connected
  by_cases hclient : i = channel.client
  · subst hclient
    obtain rfl := Option.some.inj (hi.symm.trans hd)
    obtain ⟨socket', hsocket', more, hmore⟩ :=
      (PipeClient.grows_of_run hrun).sockets _ socket hsocket
    have hd' : (s.clients.set channel.client c')[channel.client]? = some c' :=
      List.getElem?_set_self (List.getElem?_eq_some_iff.mp hi).1
    have horderly := hsound'.clients c' (List.mem_of_getElem? hd')
    refine hold.append more hserved.delivered_le ?_ fun text htext =>
      spells_of_orderly horderly hsocket' text ?_
    · rw [written_of_eq hd' hsocket', written_of_eq hd hsocket, hmore]
    · rw [← hmore]
      exact List.mem_append_right _ htext
  · have hsame : written (s.clients.set i c') channel = written s.clients channel := by
      simp only [written, List.getElem?_set_ne hclient]
    refine hold.append [] hserved.delivered_le ?_ (by simp)
    rw [hsame, List.append_nil]

theorem follows_opened {i k : ℕ} {c : PipeClient} {socket : Socket} (hc : clients[i]? = some c)
    (horderly : c.Orderly) (hs : c.sockets[k]? = some socket) :
    Follows base clients p { client := i, socket := k } id {} := by
  have hwritten : written clients { client := i, socket := k } = socket.written :=
    written_of_eq hc hs
  refine ⟨[], [], socket.written, List.nil_prefix, hwritten, ?_,
    fun client _ hflag => absurd rfl hflag⟩
  rw [hwritten]
  exact ⟨spells_of_orderly horderly hs, rfl, by simp⟩

theorem Tracked.opened (hsound : Sound n s) {e : ℕ × Worker} {channel : Channel}
    (hothers : ∀ (slot : ℕ) (channel : Channel) (id : ℕ) (w : Worker),
      s.channels[slot]? = some channel → s.server.workers[slot]? = some (id, w) →
        Follows (written s₀.clients channel) s.clients p channel id w)
    (hfollows : Follows (written s₀.clients channel) s.clients p channel e.1 e.2)
    (hclients : t.clients = s.clients) (hp : t.server.privacyState = p)
    (hworkers : t.server.workers = s.server.workers ++ [e])
    (hchannels : t.channels = s.channels ++ [channel]) : Tracked s₀ t := by
  intro slot channel id w hchannel hworker
  rw [hclients, hp]
  rw [hchannels] at hchannel
  rw [hworkers] at hworker
  rcases Nat.lt_or_ge slot n with hlt | hge
  · rw [List.getElem?_append_left (by rw [hsound.channels]; exact hlt)] at hchannel
    rw [List.getElem?_append_left (by rw [hsound.workers]; exact hlt)] at hworker
    exact hothers slot channel id w hchannel hworker
  · rw [List.getElem?_append_right (by rw [hsound.channels]; exact hge)] at hchannel
    rw [List.getElem?_append_right (by rw [hsound.workers]; exact hge)] at hworker
    obtain rfl := List.mem_singleton.mp (List.mem_of_getElem? hchannel)
    obtain rfl := List.mem_singleton.mp (List.mem_of_getElem? hworker)
    exact hfollows

theorem Tracked.step (h : Tracked s₀ s) (hsound : Sound n s) {label : Label}
    (hlabel : s.switches label = false) (hn : n + label.opens < wordSize)
    (hs : s.step label = some t) : Tracked s₀ t := by
  cases moves_of_step hs with
  | @client i event c c' hc hstep =>
    have hrun : Transition.run PipeClient.step c [event] = some c' :=
      Transition.run_cons.mpr ⟨c', hstep, rfl⟩
    exact h.client hsound hc hrun
  | @accept i k c hc hk now =>
    refine Tracked.opened hsound (fun slot channel id w hchannel hworker => ?_) ?_ rfl rfl rfl rfl
    · exact (h slot channel id w hchannel hworker).perform hsound.counted hn
        (hsound.id_le hchannel hworker) rfl
    · exact follows_opened hc (hsound.clients c (List.mem_of_getElem? hc))
        (List.getElem?_eq_getElem hk)
  | read hchannel hworker hstep =>
    have hread := (h _ _ _ _ hchannel hworker).read (List.take_prefix _ _) hstep
    exact Tracked.update hsound hworker (fun other channel id w _ => h other channel id w) hread
      rfl rfl rfl rfl
  | worker hlocal hworker hstep =>
    obtain ⟨channel, hchannel⟩ := hsound.exists_channel hworker
    have hmoved := (h _ _ _ _ hchannel hworker).move hstep (by cases hlocal <;> simp)
      (by cases hlocal <;> simp)
    exact Tracked.update hsound hworker (fun other channel id w _ => h other channel id w) hmoved
      rfl rfl rfl (set_getElem? hchannel).symm
  | @call slot id call w w' hworker hcall now hstep =>
    obtain ⟨channel, hchannel⟩ := hsound.exists_channel hworker
    have hopens : n + opens (call.op id now) < wordSize := by rw [opens_call]; exact hn
    have hown := (h _ _ _ _ hchannel hworker).call hsound.counted hn
      (hsound.id_le hchannel hworker) hcall hstep
    refine Tracked.update hsound hworker (fun other channel' id' w₀ _ hchannel' hworker' => ?_)
      hown rfl rfl rfl (set_getElem? hchannel).symm
    exact (h other channel' id' w₀ hchannel' hworker').perform hsound.counted hopens
      (hsound.id_le hchannel' hworker') (switches_call _ call id now)
  | tick now => exact h.perform hsound hn rfl
  | setEnabled enabled => exact h.perform hsound hn hlabel
  | stop => exact h

end System

namespace Broadcast

variable {d : CaseData} {b₀ b b' b'' : Broadcast} {n m : ℕ}

theorem recordsWellFormed_of_run {timeout : ℤ}
    {clientIds : List { clientId : Bytes // Uuid clientId }} {watermarkAvailable : Bool}
    {labels : List Label}
    (hrun : Transition.run (step d) (start timeout clientIds watermarkAvailable) labels = some b) :
    b.server.privacyState.RecordsWellFormed := by
  refine Transition.run_invariant (I := fun b => b.server.privacyState.RecordsWellFormed) ?_ ?_ hrun
  · intro b l b' h hs
    rcases calls_of_step hs with hsilent | ⟨op, -, -, hperforms⟩
    · rwa [hsilent.privacyState]
    · rw [hperforms.privacyState]
      exact h.perform op
  · exact PrivacyState.recordsWellFormed_exec timeout []

/-! ### Broadcasts -/

theorem tracked_step {s₀ : System} (h : System.Tracked s₀ b.system) (hlinked : Linked d n b)
    {label : Label} (hlabel : b.switches label = false) (hn : n + label.opens < wordSize)
    (hs : b.step d label = some b') : System.Tracked s₀ b'.system := by
  cases moves_of_step hs with
  | @window i event w w' hi hw =>
    obtain ⟨es, hes⟩ := Window.client_run hw
    have hclient : b.system.clients[i]? = some w.client := by
      simp [Broadcast.system, hi]
    have h' := h.client hlinked.system hclient hes
    simpa [Broadcast.system, List.map_set] using h'
  | system hl ht =>
    rw [system_of_ofPlugin hl ht]
    exact h.step hlinked.system hlabel hn ht
  | tick hp now => exact h.perform hlinked.system hn rfl
  | mode hp => exact h
  | forward hp => exact h
  | display hlogged hstep => exact h

/-- What holds of a state that follows `b₀` without a switch. -/
structure Since (d : CaseData) (b₀ : Broadcast) (n : ℕ) (b : Broadcast) : Prop where
  linked : Linked d n b
  tracked : System.Tracked b₀.system b.system

theorem since_of_run (h : Linked d n b₀) {labels : List Label}
    (hswitches : Transition.Along (step d) (fun b l => b.switches l = false) b₀ labels)
    (hn : n + (labels.map Label.opens).sum < wordSize)
    (hrun : Transition.run (step d) b₀ labels = some b) :
    Since d b₀ (n + (labels.map Label.opens).sum) b :=
  Transition.run_weighted_along
    (fun _ _ _ _ h hl hn hs =>
      ⟨h.linked.step hn hs, tracked_step h.tracked h.linked hl hn hs⟩)
    ⟨h, h.system.tracked⟩ hswitches hn hrun

/-- The connection is one of a window that has heard its events and whose rules are a list, it
has been read to its end, and has carried a STATE since `b₀`. -/
structure Refreshed (b₀ b : Broadcast) (id : ℕ) (w : Window) : Prop where
  mem : w ∈ b.windows
  listening : w.listening = true
  editors : w.editorsPending = false
  configuration : w.configurationPending = false
  rules : ∃ configuredRules, w.configuration.getRules = .array configuredRules
  connection : ∃ (slot : ℕ) (channel : Channel) (worker : Worker) (socket : Socket),
    b.channels[slot]? = some channel ∧ b.server.workers[slot]? = some (id, worker) ∧
      b.system.clients[channel.client]? = some w.client ∧
      w.client.sockets[channel.socket]? = some socket ∧ socket.readyState = .opened ∧
      b.system.unread channel = [] ∧ worker.pending = [] ∧
      System.lastFlag ((System.written b.system.clients channel).drop
        (System.written b₀.system.clients channel).length) ≠ none

def Live (b : Broadcast) (id : ℕ) : Prop := b.server.privacyState.clients.lookup id ≠ none

/-- No failure waits for another client. -/
def Recovered (b : Broadcast) : Prop :=
  b.server.privacyState.untrustedFailureLatched = false ∧
    b.server.privacyState.disconnectedClients = 0

/-- The record of a refreshed connection is what its window shows. -/
theorem Since.recorded (h : Since d b₀ n b) {id : ℕ} {w : Window} (hw : Refreshed b₀ b id w)
    {client : Client} (hl : b.server.privacyState.clients.lookup id = some client) :
    client.sensitive = some (decide (w.client.latestStatus = .sensitive)) := by
  obtain ⟨slot, channel, worker, socket, hchannel, hworker, hc, hsocket, ho, hunread, hpending,
    hflag⟩ := hw.connection
  have hsettled : b.system.Settled w.client client :=
    ⟨slot, channel, id, worker, socket, hchannel, hworker, hc, hsocket, hl, ho, hunread, hpending⟩
  have hfollows := h.tracked slot channel id worker hchannel hworker
  exact (h.linked.system.recorded hsettled).resolve_left
    (hfollows.recorded hunread hpending hflag hl)

theorem Since.latest_eq_safe (h : Since d b₀ n b) {id : ℕ} {w : Window}
    (hw : Refreshed b₀ b id w) {configuredRules : List Unknown}
    (hrules : w.configuration.getRules = .array configuredRules) :
    w.client.latestStatus = .safe ↔ Clear d w configuredRules :=
  ((h.linked.windows w hw.mem).truthful hw.listening).safe hw.editors hw.configuration
    configuredRules hrules

/-- No window of a live connection shows a file that matches its rules, or is disabled. -/
def AllClear (d : CaseData) (b₀ b : Broadcast) : Prop :=
  ∀ id w configuredRules, b.Live id → Refreshed b₀ b id w →
    w.configuration.getRules = .array configuredRules → Clear d w configuredRules

/-- When every connection is refreshed, the mode is what the windows show. -/
theorem Since.mode_eq_safe_iff (h : Since d b₀ n b)
    (hrecords : b.server.privacyState.RecordsWellFormed)
    (henabled : b.server.privacyState.enabled = true)
    (hrefreshed : ∀ id, b.Live id → ∃ w, Refreshed b₀ b id w) :
    b.server.privacyState.mode = .safe ↔
      b.Recovered ∧ (∃ id, b.Live id) ∧ AllClear d b₀ b := by
  rw [PrivacyState.mode_eq_safe_iff]
  constructor
  · rintro ⟨-, hlatched, hcount, hlive, hall⟩
    refine ⟨⟨hlatched, hcount⟩, hlive, fun id w configuredRules hid hw hrules => ?_⟩
    obtain ⟨client, hl⟩ := Option.ne_none_iff_exists'.mp hid
    have hflag := h.recorded hw hl
    rw [(hall id client hl).2, Option.some_inj] at hflag
    refine (h.latest_eq_safe hw hrules).mp ?_
    cases hstatus : w.client.latestStatus with
    | safe => rfl
    | sensitive => simp [hstatus] at hflag
  · rintro ⟨⟨hlatched, hcount⟩, hlive, hclear⟩
    refine ⟨henabled, hlatched, hcount, hlive, fun id client hl => ?_⟩
    have hid : b.Live id := by
      rw [Live, hl]
      exact Option.some_ne_none client
    obtain ⟨w, hw⟩ := hrefreshed id hid
    obtain ⟨configuredRules, hrules⟩ := hw.rules
    have hsafe := (h.latest_eq_safe hw hrules).mpr (hclear id w configuredRules hid hw hrules)
    have hflag : client.sensitive = some false := by
      rw [h.recorded hw hl, hsafe]
      rfl
    refine ⟨?_, hflag⟩
    by_contra hgreeted
    have hblank := (hrecords id client hl).blank (Bool.eq_false_iff.mpr hgreeted)
    simp [hflag] at hblank

theorem since_of_callback {timeout : ℤ} {clientIds : List { clientId : Bytes // Uuid clientId }}
    {watermarkAvailable : Bool} {labels between : List Label} {now : ℤ}
    (hn : ((labels ++ between).map Label.opens).sum < wordSize)
    (hrun : Transition.run (step d) (start timeout clientIds watermarkAvailable) labels = some b₀)
    (hbetween : Transition.run (step d) b₀ between = some b)
    (hswitches : Transition.Along (step d) (fun b l => b.switches l = false) b₀ between)
    (hcallback : Transition.run (step d) b (callback now) = some b') :
    ∃ n, Since d b₀ n b' := by
  rw [List.map_append, List.sum_append] at hn
  have hlinked := linked_of_run (by omega) hrun
  have hopens : ((between ++ callback now).map Label.opens).sum =
      (between.map Label.opens).sum := by
    simp [callback, Label.opens]
  have hadmitted : Transition.Along (step d) (fun b l => b.switches l = false) b₀
      (between ++ callback now) :=
    Transition.along_append.mpr ⟨hswitches, fun t _ =>
      ⟨rfl, fun _ _ => ⟨rfl, fun _ _ => ⟨rfl, fun _ _ => trivial⟩⟩⟩⟩
  exact ⟨_, since_of_run hlinked hadmitted (by omega)
    (Transition.run_append.mpr ⟨b, hbetween, hcallback⟩)⟩

/-- After any run, and then one in which protection is not switched and every connection that
is still live has been refreshed, a callback and the tasks behind it leave the output open if
and only if no failure is left, somebody is connected, and every window is clear. -/
theorem open_iff_of_refreshed {timeout : ℤ}
    {clientIds : List { clientId : Bytes // Uuid clientId }} {watermarkAvailable : Bool}
    {labels between tasks : List Label} {now : ℤ}
    (hn : ((labels ++ between).map Label.opens).sum < wordSize)
    (hm : ((labels ++ between).map Label.requests).sum + 1 < wordSize)
    (hrun : Transition.run (step d) (start timeout clientIds watermarkAvailable) labels = some b₀)
    (hbetween : Transition.run (step d) b₀ between = some b)
    (hswitches : Transition.Along (step d) (fun b l => b.switches l = false) b₀ between)
    (hcallback : Transition.run (step d) b (callback now) = some b')
    (htasks : ∀ l ∈ tasks, l.task = true)
    (hdrained : Transition.run (step d) b' tasks = some b'')
    (hnone : ¬ Display.Pending b''.display.controller)
    (henabled : b'.server.privacyState.enabled = true)
    (hrefreshed : ∀ id, b'.Live id → ∃ w, Refreshed b₀ b' id w) :
    b''.Open ↔ b'.Recovered ∧ (∃ id, b'.Live id) ∧ AllClear d b₀ b' := by
  have hrun₁ : Transition.run (step d) (start timeout clientIds watermarkAvailable)
      (labels ++ between) = some b := Transition.run_append.mpr ⟨b₀, hrun, hbetween⟩
  have hrun₂ : Transition.run (step d) (start timeout clientIds watermarkAvailable)
      ((labels ++ between) ++ callback now) = some b' :=
    Transition.run_append.mpr ⟨b, hrun₁, hcallback⟩
  have hrun₃ : Transition.run (step d) (start timeout clientIds watermarkAvailable)
      ((labels ++ between) ++ (callback now ++ tasks)) = some b'' :=
    Transition.run_append.mpr ⟨b, hrun₁, Transition.run_append.mpr ⟨b', hcallback, hdrained⟩⟩
  obtain ⟨n, hsince⟩ := since_of_callback hn hrun hbetween hswitches hcallback
  obtain ⟨m', hsound, hreleased⟩ := run_released (by rwa [requests_drained now htasks]) hrun₃
  have hforwarded := forwarded_of_drained hcallback htasks hdrained
  rw [← hsince.mode_eq_safe_iff (recordsWellFormed_of_run hrun₂) henabled hrefreshed]
  constructor
  · intro hopen
    by_contra hmode
    have hcovers := hsound.covered (hforwarded ▸ isProtectedMode_of_ne_safe henabled hmode)
    exact not_open_of_covers hcovers hopen
  · intro hmode
    refine (uncovered_of_released hsound hreleased ?_ hnone).open
    rw [hforwarded, hmode]
    rfl

def rearming : List Label :=
  streaming.take 12 ++
    [.system (.server (.setEnabled false)), .system (.server (.setEnabled true))]

def rearmed : Broadcast :=
  (Transition.run (step greek) (start 2000 oneWindow true) rearming).get (by decide +kernel)

def refreshing : List Label :=
  [.window 0 (.client (.refreshFires 0)), .system (.server (.proceed 0)), .system (.read 0 4096),
    .system (.server (.proceed 0)), .system (.server (.call 0 600)),
    .system (.server (.proceed 0))]

def refreshed : Broadcast :=
  (Transition.run (step greek) rearmed refreshing).get (by decide +kernel)

def answered : Broadcast :=
  (Transition.run (step greek) refreshed (callback 700)).get (by decide +kernel)

def reopened : Broadcast :=
  (Transition.run (step greek) answered [.display (.apply 0 {})]).get (by decide +kernel)

theorem Live.eq {id k : ℕ} (h : b.Live id) (hkeys : b.server.privacyState.clients.keys = [k]) :
    id = k := by
  have hmem : id ∈ b.server.privacyState.clients :=
    AList.lookup_isSome.mp (Option.isSome_iff_ne_none.mpr h)
  have hkey := AList.mem_keys.mp hmem
  rw [hkeys] at hkey
  exact List.mem_singleton.mp hkey

theorem clear_answered : ∀ w ∈ answered.windows,
    ∃ configuredRules, w.configuration.getRules = .array configuredRules ∧
      Clear greek w configuredRules := by
  have hall : ∀ w ∈ answered.windows, (match w.configuration.getRules with
      | .array rules => w.configuration.getEnabled &&
          w.visibleTextEditors.all fun path => !matchesFile greek path (filterRules rules)
      | .other => false) = true := by
    decide +kernel
  intro w hw
  have hclear := hall w hw
  cases hrules : w.configuration.getRules with
  | other => simp [hrules] at hclear
  | array configuredRules =>
    rw [hrules, Bool.and_eq_true, List.all_eq_true] at hclear
    exact ⟨configuredRules, rfl, hclear.1, fun path hpath => by simpa using hclear.2 path hpath⟩

theorem refreshed_answered : ∃ w, Refreshed rearmed answered 1 w := by
  obtain ⟨w, hmem, hlistening, heditors, hconfiguration, channel, -, worker, -, socket, -,
      hchannel, hworker, hc, hsocket, ho, hunread, hpending, hflag⟩ :
      ∃ w ∈ answered.windows, w.listening = true ∧ w.editorsPending = false ∧
        w.configurationPending = false ∧
        ∃ channel ∈ answered.channels, ∃ worker ∈ answered.server.workers,
          ∃ socket ∈ w.client.sockets,
            answered.channels[0]? = some channel ∧
            answered.server.workers[0]? = some (1, worker.2) ∧
            answered.system.clients[channel.client]? = some w.client ∧
            w.client.sockets[channel.socket]? = some socket ∧
            socket.readyState = .opened ∧ answered.system.unread channel = [] ∧
            worker.2.pending = [] ∧
            System.lastFlag ((System.written answered.system.clients channel).drop
              (System.written rearmed.system.clients channel).length) ≠ none := by
    decide +kernel
  obtain ⟨configuredRules, hrules, -⟩ := clear_answered w hmem
  exact ⟨w, hmem, hlistening, heditors, hconfiguration, ⟨configuredRules, hrules⟩, 0, channel,
    worker.2, socket, hchannel, hworker, hc, hsocket, ho, hunread, hpending, hflag⟩

theorem open_reopened : rearmed.server.privacyState.mode = .awaitingConnection ∧
    reopened.Open := by
  have hrefreshed : ∀ id, answered.Live id → ∃ w, Refreshed rearmed answered id w := by
    intro id hid
    obtain rfl : id = 1 := hid.eq (by decide +kernel)
    exact refreshed_answered
  have hlive : answered.Live 1 := Option.isSome_iff_ne_none.mp (by decide +kernel)
  have hclear : AllClear greek rearmed answered := by
    intro id w configuredRules hid hw hrules
    obtain ⟨rules, hrules', hclear⟩ := clear_answered w hw.mem
    obtain rfl := Setting.array.inj (hrules'.symm.trans hrules)
    exact hclear
  have hdrained : Transition.run (step greek) answered [.display (.apply 0 {})] = some reopened :=
    (Option.some_get _).symm
  have hiff := open_iff_of_refreshed (by decide) (by decide) (Option.some_get _).symm
    (Option.some_get _).symm (by decide +kernel) (Option.some_get _).symm (by decide) hdrained
    (by decide +kernel) (by decide +kernel) hrefreshed
  exact ⟨by decide +kernel, hiff.mpr ⟨⟨by decide +kernel, by decide +kernel⟩, ⟨1, hlive⟩, hclear⟩⟩

end Broadcast

end PrivacyGuard
