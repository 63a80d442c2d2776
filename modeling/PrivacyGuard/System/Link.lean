import PrivacyGuard.Extension.Conversation
import PrivacyGuard.Pipe.Lifecycle
import PrivacyGuard.System.Delivery

/-! # One client and its worker

A link is the server side of one socket: the worker of its connection, the bytes
written on the socket that have not been read, and the shared privacy state, on which
others make their calls in between.
-/

namespace PrivacyGuard

/-- The call makes no failure known. -/
def Record.Harmless (r : Record) : Prop :=
  r.after.disconnectedClients ≤ r.before.disconnectedClients ∧
    (r.after.untrustedFailureLatched = true → r.before.untrustedFailureLatched = true)

namespace PrivacyState

variable {s : PrivacyState} {op : Op} {id : ℕ} {client : Client}

theorem removeFailed_lookup_ne {other : ℕ} (hne : id ≠ other)
    (hl : s.clients.lookup id = some client) :
    (s.removeFailed other).clients.lookup id = some client := by
  cases ho : s.clients.lookup other with
  | none => rw [removeFailed_of_none ho, hl]
  | some c => rw [removeFailed_of_some ho, AList.lookup_erase_ne hne, hl]

theorem perform_others (hl : s.clients.lookup id = some client) (hop : op.targets id = false)
    (htick : ∀ now, op = .tick now → s.expired now client = false) :
    (s.perform op).1.clients.lookup id = some client ∨
      (s.perform op).1.clients.lookup id = some { client with sensitive := none } := by
  have hmem : id ∈ s.clients := AList.lookup_isSome.mp (by simp [hl])
  cases op with
  | connectionOpened now =>
    left
    simp only [perform, connectionOpened]
    split
    case isTrue => exact hl
    case isFalse hnot =>
      have hne : id ≠ s.nextConnectionId := fun he => hnot (he ▸ hmem)
      rw [AList.lookup_insert_ne hne, hl]
  | helloReceived other clientId now =>
    left
    have hne : id ≠ other := by simpa [Op.targets, eq_comm] using hop
    rcases s.helloReceived_cases other clientId now with h | ⟨c, -, -, -, h⟩
    · simp only [perform, h, hl]
    · simp only [perform, h, AList.lookup_replace_ne hne, hl]
  | stateReceived other sequence sensitive now =>
    left
    have hne : id ≠ other := by simpa [Op.targets, eq_comm] using hop
    rcases s.stateReceived_cases other sequence sensitive now with h | ⟨c, -, -, -, h⟩
    · simp only [perform, h, hl]
    · simp only [perform, h, publishState, AList.lookup_replace_ne hne, hl]
  | goodbyeReceived other =>
    left
    have hne : id ≠ other := by simpa [Op.targets, eq_comm] using hop
    rcases s.goodbyeReceived_cases other with h | ⟨c, -, -, h⟩
    · simp only [perform, h, hl]
    · simp only [perform, h, AList.lookup_erase_ne hne, hl]
  | protocolError other =>
    left
    have hne : id ≠ other := by simpa [Op.targets, eq_comm] using hop
    exact removeFailed_lookup_ne hne hl
  | connectionClosed other =>
    left
    have hne : id ≠ other := by simpa [Op.targets, eq_comm] using hop
    exact removeFailed_lookup_ne hne hl
  | tick now =>
    left
    simp only [perform, tick_eq]
    exact AList.lookup_filter_eq_some.mpr ⟨hl, by simp [htick now rfl]⟩
  | setEnabled enabled =>
    simp only [perform, setEnabled]
    split
    case isTrue => exact Or.inl hl
    case isFalse =>
      split
      case isTrue => exact Or.inr (by simp [hl])
      case isFalse => exact Or.inl hl

/-- Frames never make a failure known. -/
theorem harmless_of_frame (s : PrivacyState) (frame : Frame) (id : ℕ) (now : ℤ) :
    (Record.of s (frame.call.op id now)).Harmless := by
  cases hkind : frame.kind <;> simp only [Frame.call, hkind, Call.op, Record.of, Record.Harmless]
  case hello =>
    rcases s.helloReceived_cases id frame.clientId now with h | ⟨c, -, -, -, h⟩ <;>
      simp [perform, h]
  case state =>
    rcases s.stateReceived_cases id frame.sequence frame.sensitive now with h | ⟨c, -, -, -, h⟩
    · simp [perform, h]
    · simp only [perform, h, publishState]
      exact ⟨by split <;> omega, by simp⟩
  case goodbye =>
    rcases s.goodbyeReceived_cases id with h | ⟨c, -, -, h⟩ <;> simp [perform, h]

end PrivacyState

/-- What a record holds of a client after the messages so far. -/
def Stage.Matches : Stage → Client → Prop
  | .fresh, client => client.helloReceived = false ∧ client.lastSequence = none
  | .greeted last, client =>
    client.helloReceived = true ∧ client.lastSequence = last.map UInt64.ofNat
  | .finished, _ => False

namespace PrivacyState

variable {s : PrivacyState} {id : ℕ} {client : Client} {clientId : Bytes} {stage stage' : Stage}
  {m : Message}

theorem perform_message (hnext : stage.next m = some stage') (hm : m.Fits)
    (hl : s.clients.lookup id = some client) (hmatch : stage.Matches client)
    (hunique : s.duplicateIdentity id clientId = false) (now : ℤ) :
    (s.perform ((m.frame clientId).call.op id now)).2 = .accepted true ∧
      (stage' ≠ .finished → ∃ client',
        (s.perform ((m.frame clientId).call.op id now)).1.clients.lookup id = some client' ∧
          stage'.Matches client') := by
  have hmem : id ∈ s.clients := AList.lookup_isSome.mp (by simp [hl])
  cases stage with
  | finished => exact hmatch.elim
  | fresh =>
    cases m with
    | hello =>
      obtain rfl := Option.some.inj hnext
      have h : s.helloReceived id clientId now = _ := helloReceived_of_fresh hl hmatch.1 hunique
      simp only [Message.frame, Frame.call, Call.op, perform, h]
      refine ⟨trivial, fun _ => ⟨_, AList.lookup_replace hmem, rfl, ?_⟩⟩
      simp [Client.greet, hmatch.2]
    | state sequence status => cases hnext
    | goodbye => cases hnext
  | greeted last =>
    obtain ⟨hgreeted, hlast⟩ := hmatch
    cases m with
    | hello => cases hnext
    | state sequence status =>
      obtain ⟨hlt, hnext⟩ := Option.ite_none_right_eq_some.mp hnext
      obtain rfl := Option.some.inj hnext
      have haccepts : client.Accepts (UInt64.ofNat sequence) := by
        intro n hn
        rw [hlast] at hn
        obtain ⟨n, hn', rfl⟩ := Option.map_eq_some_iff.mp hn
        have hlt := hlt n hn'
        rw [UInt64.lt_iff_toNat_lt, UInt64.toNat_ofNat_of_lt' hm,
          UInt64.toNat_ofNat_of_lt' (lt_trans hlt hm)]
        exact hlt
      have h : s.stateReceived id _ (decide (status = .sensitive)) now = _ :=
        stateReceived_of_accepts hl hgreeted haccepts
      simp only [Message.frame, Frame.call, Call.op, perform, h]
      exact ⟨trivial, fun _ => ⟨_, AList.lookup_replace hmem, hgreeted, rfl⟩⟩
    | goodbye =>
      obtain rfl := Option.some.inj hnext
      refine ⟨?_, fun hne => absurd rfl hne⟩
      simp [Message.frame, Frame.call, Call.op, perform, goodbyeReceived, hl, hgreeted]

end PrivacyState

/-! ### The link -/

/-- The worker of a connection, the bytes on its pipe, and the calls it has made with
what they did, newest first. -/
structure Link where
  id : ℕ
  privacyState : PrivacyState
  worker : Worker := {}
  unread : Bytes
  log : List (Call × Record) := []

/-- The worker neither scans nor is about to apply a frame. -/
def Worker.Resting (w : Worker) : Prop :=
  w.point ≠ .scan ∧ ∀ frame position, w.point ≠ .apply frame position

namespace Link

inductive Label
  | proceed (running : Bool)
  | nothing
  /-- The next bytes are read. -/
  | read (length : ℕ)
  | ended
  | call (now : ℤ)
  /-- A call about another connection, a tick or a change of the settings. -/
  | others (op : Op)
  deriving DecidableEq

def calls (l : Link) : List Call := (l.log.map Prod.fst).reverse

def move (l : Link) (input : Input) : Option Link :=
  (l.worker.step input).map fun worker => { l with worker }

def step (l : Link) : Label → Option Link
  | .proceed running => l.move (.proceed running)
  | .nothing => l.move .nothing
  | .read length =>
    (l.worker.step (.bytes (l.unread.take length))).map fun worker =>
      { l with worker, unread := l.unread.drop length }
  | .ended => l.move .ended
  | .call now =>
    match l.worker.call with
    | some call =>
      let record := Record.of l.privacyState (call.op l.id now)
      (l.worker.step (.reply record.reply.isAccepted)).map fun worker =>
        { l with worker, privacyState := record.after, log := (call, record) :: l.log }
    | none => none
  | .others op =>
    if op.targets l.id then none
    else some { l with privacyState := (l.privacyState.perform op).1 }

/-- No other live connection holds the identity of the client when the worker makes a call,
and no tick expires the entry. -/
def undisturbed (clientId : Bytes) (l : Link) : Label → Bool
  | .call _ => !l.privacyState.duplicateIdentity l.id clientId
  | .others (.tick now) =>
    (l.privacyState.clients.lookup l.id).all fun client => !l.privacyState.expired now client
  | _ => true

structure Opened (l : Link) (stream : Bytes) : Prop where
  worker : l.worker = {}
  unread : l.unread = stream
  log : l.log = []
  entry : ∃ now, l.privacyState.clients.lookup l.id = some { lastUpdate := now }

/-- The worker has applied some messages, with the others still to come. -/
structure Following (clientId : Bytes) (done todo : List Message) (stage : Stage) (l : Link) :
    Prop where
  fed : l.worker.Fed (todo.map (Message.text clientId)) l.unread
  fits : ∀ m ∈ todo, m.Fits
  said : Transition.run Stage.next .fresh done = some stage
  heard : ∃ last, Transition.run Stage.next stage todo = some last
  placed : l.worker.Placed
  valid : l.worker.point ≠ .fail
  scanned : l.worker.graceful = false → l.worker.Resting → newline ∉ l.worker.pending
  closing : l.worker.point = .close → l.worker.graceful = false
  graceful : l.worker.graceful = true ↔ stage = .finished
  entry : l.worker.graceful = false → l.worker.point ≠ .returned →
    ∃ client, l.privacyState.clients.lookup l.id = some client ∧ stage.Matches client
  calls : l.calls = done.map (fun m => (m.frame clientId).call) ∨
    l.worker.graceful = false ∧ l.worker.point = .returned ∧
      l.calls = done.map (fun m => (m.frame clientId).call) ++ [.connectionClosed]
  accepted : ∀ e ∈ l.log, e.1 ≠ .connectionClosed →
    e.2.reply = .accepted true ∧ e.2.Harmless
  removed : l.worker.graceful = true →
    ∃ e ∈ l.log, e.2.goodbye l.id = true ∧ e.2.removes l.id = true

variable {clientId : Bytes} {done todo : List Message} {stage : Stage} {l l' : Link}

theorem Following.local (h : Following clientId done todo stage l) {worker : Worker}
    {unread : Bytes} (hpoint : l.worker.point ≠ .returned)
    (hfed : worker.Fed (todo.map (Message.text clientId)) unread) (hplaced : worker.Placed)
    (hgraceful : worker.graceful = l.worker.graceful) (hvalid : worker.point ≠ .fail)
    (hscanned : worker.graceful = false → worker.Resting → newline ∉ worker.pending)
    (hclosing : worker.point = .close → worker.graceful = false) :
    Following clientId done todo stage { l with worker, unread } where
  fed := hfed
  fits := h.fits
  said := h.said
  heard := h.heard
  placed := hplaced
  valid := hvalid
  scanned := hscanned
  closing := hclosing
  graceful := by rw [hgraceful, h.graceful]
  entry hg _ := h.entry (hgraceful ▸ hg) hpoint
  calls := by
    rcases h.calls with hcalls | ⟨-, hret, -⟩
    · exact Or.inl hcalls
    · exact absurd hret hpoint
  accepted := h.accepted
  removed hg := h.removed (hgraceful ▸ hg)

theorem scanPending_graceful (w : Worker) : w.scanPending.graceful = w.graceful := by
  unfold Worker.scanPending
  split <;> split <;> rfl

theorem Following.move (h : Following clientId done todo stage l) {input : Input}
    (hs : l.move input = some l') (hreply : ∀ accepted, input ≠ .reply accepted)
    (hbytes : ∀ chunk, input ≠ .bytes chunk) : Following clientId done todo stage l' := by
  obtain ⟨worker, hstep, rfl⟩ := Option.map_eq_some_iff.mp hs
  have hplaced := h.placed.step hstep
  have hkeep : ∀ point : Point, (∀ frame position, point ≠ .apply frame position) →
      l.worker.Fed (todo.map (Message.text clientId)) l.unread →
      ({ l.worker with point } : Worker).Fed (todo.map (Message.text clientId)) l.unread :=
    fun point hp hfed => hfed.congr rfl hp
  cases Worker.moves_of_step hstep with
  | loop hp running =>
    have hrest : l.worker.Resting := by simp [Worker.Resting, hp]
    refine h.local (by simp [hp]) (hkeep _ ?_ h.fed) hplaced rfl ?_
      (fun hg _ => h.scanned hg hrest) ?_
    · intro frame position; split <;> simp
    · simp only; split <;> simp
    · simp only; split <;> simp
  | scan hp running =>
    obtain ⟨hfed, hpoint⟩ := h.fed.scanPending
    have hpending : l.worker.scanPending.pending = l.worker.pending := by
      unfold Worker.scanPending; split <;> split <;> rfl
    refine h.local (by simp [hp]) hfed hplaced (scanPending_graceful _) ?_ ?_ ?_
    · rcases hpoint with ⟨frame, position, hpoint⟩ | ⟨hpoint, -⟩ <;> simp [hpoint]
    · intro _ hrest
      rcases hpoint with ⟨frame, position, hpoint⟩ | ⟨-, hnot⟩
      · exact absurd hpoint (hrest.2 frame position)
      · rwa [hpending]
    · rcases hpoint with ⟨frame, position, hpoint⟩ | ⟨hpoint, -⟩ <;> simp [hpoint]
  | cleanup hp running =>
    have hrest : l.worker.Resting := by simp [Worker.Resting, hp]
    refine h.local (by simp [hp]) (hkeep _ ?_ h.fed) hplaced rfl ?_
      (fun hg _ => h.scanned hg hrest) ?_
    · intro frame position; split <;> simp
    · simp only; split <;> simp
    · simp only
      intro hclose
      split at hclose
      case isTrue hactive =>
        have := h.placed.1
        simp_all
      case isFalse => cases hclose
  | nothing hp =>
    have hrest : l.worker.Resting := by simp [Worker.Resting, hp]
    exact h.local (by simp [hp]) (hkeep _ (by simp) h.fed) hplaced rfl (by simp)
      (fun hg _ => h.scanned hg hrest) (by simp)
  | bytes hp => exact absurd rfl (hbytes _)
  | ended hp =>
    have hrest : l.worker.Resting := by simp [Worker.Resting, hp]
    exact h.local (by simp [hp]) (hkeep _ (by simp) h.fed) hplaced rfl (by simp)
      (fun hg _ => h.scanned hg hrest) (by simp)
  | apply hp accepted => exact absurd rfl (hreply accepted)
  | fail hp accepted => exact absurd rfl (hreply accepted)
  | close hp accepted => exact absurd rfl (hreply accepted)

theorem Following.read (h : Following clientId done todo stage l) {length : ℕ}
    (hs : l.step (.read length) = some l') : Following clientId done todo stage l' := by
  obtain ⟨worker, hstep, rfl⟩ := Option.map_eq_some_iff.mp hs
  have hplaced := h.placed.step hstep
  cases Worker.moves_of_step hstep with
  | bytes hp hne hlen =>
    have hfed : l.worker.Fed (todo.map (Message.text clientId))
        (l.unread.take length ++ l.unread.drop length) := by
      rw [List.take_append_drop]
      exact h.fed
    refine h.local (by simp [hp]) hfed.read hplaced rfl (by simp) ?_ (by simp)
    intro _ hrest
    exact absurd rfl hrest.1

theorem Following.message (hu : Uuid clientId) (h : Following clientId done todo stage l)
    {frame : Frame} {position : ℕ} (hp : l.worker.point = .apply frame position) :
    ∃ m rest, todo = m :: rest ∧ frame = m.frame clientId := by
  obtain ⟨text, later, htexts, hspells, -, -⟩ := h.fed.applying frame position hp
  obtain ⟨m, rest, rfl, rfl, -⟩ := List.map_eq_cons_iff.mp htexts
  have hm := Message.spells hu (h.fits m List.mem_cons_self)
  exact ⟨m, rest, rfl, Option.some.inj (hspells.parses.symm.trans hm.parses)⟩

theorem finished_iff {stage stage' : Stage} {m : Message} (h : stage.next m = some stage') :
    stage' = .finished ↔ m = .goodbye := by
  cases stage <;> cases m <;> grind [Stage.next]

theorem Following.apply {m : Message} {rest : List Message} {position : ℕ}
    (h : Following clientId done (m :: rest) stage l)
    (hp : l.worker.point = .apply (m.frame clientId) position)
    (hunique : l.privacyState.duplicateIdentity l.id clientId = false) (now : ℤ) :
    ∃ stage', (Record.of l.privacyState ((m.frame clientId).call.op l.id now)).reply =
        .accepted true ∧
      Following clientId (done ++ [m]) rest stage'
        { l with
          worker := l.worker.applied position (applyFrame (m.frame clientId) true)
          privacyState := (Record.of l.privacyState ((m.frame clientId).call.op l.id now)).after
          log := ((m.frame clientId).call,
            Record.of l.privacyState ((m.frame clientId).call.op l.id now)) :: l.log } := by
  obtain ⟨last, hlast⟩ := h.heard
  obtain ⟨stage', hnext, hrest⟩ := Transition.run_cons.mp hlast
  obtain ⟨-, hat⟩ := h.placed
  rw [hp] at hat
  obtain ⟨client, hclient, hmatch⟩ := h.entry hat.1 (by simp [hp])
  obtain ⟨hreply, hentry⟩ := PrivacyState.perform_message hnext (h.fits m List.mem_cons_self)
    hclient hmatch hunique now
  have hresult : applyFrame (m.frame clientId) true ≠ .invalid := by
    cases m <;> simp [applyFrame, Message.frame]
  obtain ⟨text, later, htexts, -, hfed⟩ := h.fed.applied hp hresult
  obtain ⟨-, rfl⟩ := List.cons.inj htexts
  have hplaced := h.placed.applied hp (applyFrame (m.frame clientId) true)
  have hgraceful : (l.worker.applied position (applyFrame (m.frame clientId) true)).graceful =
      decide (m = .goodbye) := by
    cases m <;> simp [applyFrame, Message.frame, Worker.applied, hat.1]
  have hpoint : (l.worker.applied position (applyFrame (m.frame clientId) true)).point =
      if m = .goodbye then .loop else .scan := by
    cases m <;> simp [applyFrame, Message.frame, Worker.applied]
  refine ⟨stage', hreply, ?_⟩
  constructor
  case fed => exact hfed
  case fits => exact fun m hm => h.fits m (List.mem_cons_of_mem _ hm)
  case said => exact Transition.run_append.mpr ⟨stage, h.said, by simp [Transition.run, hnext]⟩
  case heard => exact ⟨last, hrest⟩
  case placed => exact hplaced
  case valid =>
    simp only [hpoint]
    split <;> simp
  case scanned =>
    intro hg hresting
    simp only [hgraceful, decide_eq_false_iff_not] at hg
    simp [Worker.Resting, hpoint, hg] at hresting
  case closing =>
    simp only [hpoint]
    split <;> simp
  case graceful => simp only [hgraceful, decide_eq_true_eq, finished_iff hnext]
  case entry =>
    intro hg _
    simp only [hgraceful, decide_eq_false_iff_not] at hg
    exact hentry fun hf => hg ((finished_iff hnext).mp hf)
  case calls =>
    left
    rcases h.calls with hcalls | ⟨-, hret, -⟩
    · simp only [Link.calls, List.map_cons, List.reverse_cons, List.map_append, List.map_nil]
      rw [← Link.calls, hcalls]
    · simp [hp] at hret
  case accepted =>
    intro e he hne
    rcases List.mem_cons.mp he with rfl | he
    · exact ⟨hreply, PrivacyState.harmless_of_frame _ _ _ _⟩
    · exact h.accepted e he hne
  case removed =>
    intro hg
    simp only [hgraceful, decide_eq_true_eq] at hg
    subst hg
    refine ⟨_, List.mem_cons_self, ?_⟩
    have hgoodbye : (Record.of l.privacyState
        (((Message.goodbye).frame clientId).call.op l.id now)).goodbye l.id = true := by
      rw [Record.goodbye, Bool.and_eq_true]
      exact ⟨decide_eq_true rfl, decide_eq_true hreply⟩
    exact ⟨hgoodbye, (Record.removes_of_goodbye hgoodbye).1⟩

theorem Following.call (hu : Uuid clientId) (h : Following clientId done todo stage l) {now : ℤ}
    (hunique : l.privacyState.duplicateIdentity l.id clientId = false)
    (hs : l.step (.call now) = some l') :
    ∃ done' todo' stage', done' ++ todo' = done ++ todo ∧
      Following clientId done' todo' stage' l' := by
  simp only [Link.step] at hs
  split at hs
  case h_2 => cases hs
  case h_1 call hcall =>
    obtain ⟨worker, hstep, rfl⟩ := Option.map_eq_some_iff.mp hs
    have hplaced := h.placed.step hstep
    cases hm : Worker.moves_of_step hstep with
    | @apply frame position hp accepted =>
      obtain rfl : frame.call = call := by simpa [Worker.call, hp] using hcall
      obtain ⟨m, rest, rfl, rfl⟩ := h.message hu hp
      obtain ⟨stage', hreply, hfollowing⟩ := h.apply hp hunique now
      refine ⟨done ++ [m], rest, stage', by simp, ?_⟩
      rw [hreply]
      exact hfollowing
    | fail hp => exact absurd hp h.valid
    | close hp =>
      obtain rfl : Call.connectionClosed = call := by simpa [Worker.call, hp] using hcall
      have hgraceful := h.closing hp
      refine ⟨done, todo, stage, rfl, ?_⟩
      constructor
      case fed => exact h.fed.congr rfl (by simp)
      case fits => exact h.fits
      case said => exact h.said
      case heard => exact h.heard
      case placed => exact hplaced
      case valid => simp
      case scanned => exact fun hg _ => h.scanned hg (by simp [Worker.Resting, hp])
      case closing => simp
      case graceful => exact h.graceful
      case entry => simp
      case calls =>
        right
        rcases h.calls with hcalls | ⟨-, hret, -⟩
        · refine ⟨hgraceful, rfl, ?_⟩
          simp only [Link.calls, List.map_cons, List.reverse_cons]
          rw [← Link.calls, hcalls]
        · simp [hp] at hret
      case accepted =>
        intro e he hne
        rcases List.mem_cons.mp he with rfl | he
        · exact absurd rfl hne
        · exact h.accepted e he hne
      case removed =>
        intro hg
        simp [hgraceful] at hg

theorem Following.others (h : Following clientId done todo stage l) {op : Op}
    (hquiet : l.undisturbed clientId (.others op) = true) (hs : l.step (.others op) = some l') :
    Following clientId done todo stage l' := by
  obtain ⟨htargets, hl'⟩ := Option.ite_none_left_eq_some.mp hs
  obtain rfl := Option.some.inj hl'
  refine { h with entry := fun hg hret => ?_ }
  obtain ⟨client, hclient, hmatch⟩ := h.entry hg hret
  have htick : ∀ now, op = .tick now → l.privacyState.expired now client = false := by
    rintro now rfl
    simpa [undisturbed, hclient] using hquiet
  rcases PrivacyState.perform_others hclient (Bool.of_not_eq_true htargets) htick with hl | hl
  · exact ⟨_, hl, hmatch⟩
  · refine ⟨_, hl, ?_⟩
    cases stage <;> exact hmatch

/-- The worker has applied a part of the messages. -/
def Follows (clientId : Bytes) (ms : List Message) (l : Link) : Prop :=
  ∃ done todo stage, done ++ todo = ms ∧ Following clientId done todo stage l

theorem Follows.step (hu : Uuid clientId) {ms : List Message} {label : Label}
    (h : Follows clientId ms l) (hquiet : l.undisturbed clientId label = true)
    (hs : l.step label = some l') : Follows clientId ms l' := by
  obtain ⟨done, todo, stage, hms, h⟩ := h
  cases label with
  | proceed running => exact ⟨done, todo, stage, hms, h.move hs (by simp) (by simp)⟩
  | nothing => exact ⟨done, todo, stage, hms, h.move hs (by simp) (by simp)⟩
  | read length => exact ⟨done, todo, stage, hms, h.read hs⟩
  | ended => exact ⟨done, todo, stage, hms, h.move hs (by simp) (by simp)⟩
  | call now =>
    obtain ⟨done', todo', stage', hms', h'⟩ := h.call hu (by simpa [undisturbed] using hquiet) hs
    exact ⟨done', todo', stage', hms'.trans hms, h'⟩
  | others op => exact ⟨done, todo, stage, hms, h.others hquiet hs⟩

theorem Opened.follows (hu : Uuid clientId) {ms : List Message} (hfits : ∀ m ∈ ms, m.Fits)
    {last : Stage} (hsaid : Transition.run Stage.next .fresh ms = some last)
    (h : l.Opened (ms.map (Message.text clientId)).flatten) : Follows clientId ms l := by
  obtain ⟨hworker, hunread, hlog, now, hentry⟩ := h
  refine ⟨[], ms, .fresh, rfl, ?_⟩
  constructor
  case fed =>
    rw [hworker, hunread]
    refine ⟨fun text ht => ?_, rfl, by simp⟩
    obtain ⟨m, hm, rfl⟩ := List.mem_map.mp ht
    exact ⟨_, Message.spells hu (hfits m hm)⟩
  case fits => exact hfits
  case said => rfl
  case heard => exact ⟨last, hsaid⟩
  case placed => exact hworker ▸ Worker.placed_init
  case valid => simp [hworker]
  case scanned => simp [hworker]
  case closing => simp [hworker]
  case graceful => simp [hworker]
  case entry => exact fun _ _ => ⟨_, hentry, rfl, rfl⟩
  case calls => exact Or.inl (by simp [Link.calls, hlog])
  case accepted => simp [hlog]
  case removed => simp [hworker]

/-! ### A well-behaved client is never rejected -/

def textCall (text : Bytes) : Option Call := (parseFrame text.dropLast).map Frame.call

/-- Every frame so far was parsed and accepted, and every text is handled once all bytes are
read. -/
structure Welcomed (texts : List Bytes) (l : Link) : Prop where
  parsed : l.worker.point ≠ .fail
  noError : ∀ e ∈ l.log, e.1 ≠ .protocolError
  accepted : ∀ e ∈ l.log, e.1 ≠ .connectionClosed → e.2.reply = .accepted true
  handled : l.unread = [] → l.worker.Resting → texts.map textCall <+: l.calls.map some

/-- A GOODBYE has removed the connection, and no call about it made a failure known. -/
structure Released (l : Link) : Prop where
  removed : ∃ e ∈ l.log, e.2.goodbye l.id = true ∧ e.2.removes l.id = true
  harmless : ∀ e ∈ l.log, e.2.Harmless

theorem Following.todo_eq_nil (h : Following clientId done todo stage l) (hunread : l.unread = [])
    (hresting : l.worker.Resting) : todo = [] := by
  cases hg : l.worker.graceful with
  | true =>
    obtain ⟨last, hlast⟩ := h.heard
    rw [h.graceful.mp hg] at hlast
    cases todo with
    | nil => rfl
    | cons m rest =>
      obtain ⟨stage', hnext, -⟩ := Transition.run_cons.mp hlast
      cases hnext
  | false =>
    have hfed := h.fed
    rw [hunread] at hfed
    exact List.map_eq_nil_iff.mp (hfed.eq_nil (h.scanned hg hresting))

theorem textCall_text (hu : Uuid clientId) {m : Message} (hm : m.Fits) :
    textCall (m.text clientId) = some (m.frame clientId).call := by
  rw [textCall, (Message.spells hu hm).parses]
  rfl

theorem Follows.welcomed (hu : Uuid clientId) {ms : List Message} (hfits : ∀ m ∈ ms, m.Fits)
    (h : Follows clientId ms l) : Welcomed (ms.map (Message.text clientId)) l := by
  obtain ⟨done, todo, stage, rfl, h⟩ := h
  have hcalls : l.calls = done.map (fun m => (m.frame clientId).call) ∨
      l.calls = done.map (fun m => (m.frame clientId).call) ++ [.connectionClosed] :=
    h.calls.imp_right fun hc => hc.2.2
  refine ⟨h.valid, fun e he hcall => ?_, fun e he hne => (h.accepted e he hne).1,
    fun hunread hresting => ?_⟩
  · have hmem : e.1 ∈ l.calls := by simpa [Link.calls] using ⟨e.2, he⟩
    rw [hcall] at hmem
    rcases hcalls with hc | hc <;> rw [hc] at hmem <;>
      simp only [List.mem_append, List.mem_map, List.mem_singleton, reduceCtorEq, or_false] at hmem
    all_goals
      obtain ⟨m, -, hm⟩ := hmem
      cases m <;> cases hm
  · obtain rfl := h.todo_eq_nil hunread hresting
    rw [List.append_nil] at hfits
    have htexts : (done.map (Message.text clientId)).map textCall =
        (done.map fun m => (m.frame clientId).call).map some := by
      simp only [List.map_map]
      exact List.map_congr_left fun m hm => textCall_text hu (hfits m hm)
    rw [List.append_nil, htexts]
    rcases hcalls with hc | hc <;> rw [hc]
    rw [List.map_append]
    exact List.prefix_append _ _

theorem Follows.released {ms : List Message}
    (hlast : Transition.run Stage.next .fresh ms = some .finished) (h : Follows clientId ms l)
    (hunread : l.unread = []) (hresting : l.worker.Resting) : Released l := by
  obtain ⟨done, todo, stage, rfl, h⟩ := h
  obtain rfl := h.todo_eq_nil hunread hresting
  rw [List.append_nil, h.said] at hlast
  have hg := h.graceful.mpr (Option.some.inj hlast)
  refine ⟨h.removed hg, fun e he => (h.accepted e he fun hclosed => ?_).2⟩
  have hmem : e.1 ∈ l.calls := by simpa [Link.calls] using ⟨e.2, he⟩
  rcases h.calls with hc | ⟨hng, -⟩
  · rw [hc, hclosed] at hmem
    obtain ⟨m, -, hm⟩ := List.mem_map.mp hmem
    cases m <;> cases hm
  · simp [hg] at hng

end Link

namespace PipeClient

variable {clientId : Bytes} {uuid : Uuid clientId} {es es' : List ClientEvent} {c c' : PipeClient}
  {k : ℕ} {s : Socket}

theorem text_eq_goodbye {m : Message} (hm : m.Fits) (h : m.text clientId = goodbyeFrame)
    (hu : Uuid clientId) : m = .goodbye := by
  have hgoodbye := Message.spells (m := .goodbye) hu trivial
  have hspells := Message.spells hu hm
  rw [h] at hspells
  have hframe := Option.some.inj (hspells.parses.symm.trans hgoodbye.parses)
  cases m <;> cases hframe
  rfl

/-- A client disposed with an open socket has said goodbye on it, and nothing after. -/
theorem finished_of_dispose
    (h : Transition.run PipeClient.step (create clientId uuid) es = some c)
    (ho : c.readyState k = .opened)
    (h' : Transition.run PipeClient.step c (.dispose :: es') = some c')
    (hs : c'.sockets[k]? = some s) : s.written.getLast? = some goodbyeFrame := by
  have hc := orderly_of_run h
  obtain ⟨d, hd, hrun⟩ := Transition.run_cons.mp h'
  obtain rfl : c.dispose = d := Option.some.inj hd
  have hcore := sameCore_dispose c
  have hquiet := (hc.step hd).quiet_of_run hcore.disposed hrun
  obtain ⟨t, ht, ho⟩ := (readyState_eq (by decide)).mp ho
  have hcur := hc.unique k t ht ho
  have hwritten : (c'.sockets.map Socket.written)[k]? = some (t.written ++ [goodbyeFrame]) := by
    rw [hquiet.written, hcore.sockets, farewells, hcur]
    simp [ht, farewell, ho]
  rw [List.getElem?_map, hs] at hwritten
  rw [Option.some.inj hwritten, List.getLast?_concat]

end PipeClient

namespace Link

open PipeClient (create)

variable {clientId : Bytes} {uuid : Uuid clientId} {es : List PipeClient.ClientEvent}
  {c : PipeClient} {k : ℕ} {socket : Socket} {l₀ l : Link} {ls : List Label}

/-- Whatever a client does and however its bytes are cut into reads, a worker that is not
disturbed accepts all its frames, and lets go of it gracefully when it was disposed with
the socket open. A worker that reads while the client still writes reads a beginning of
what is written in the end, so the pipe carries the whole text of the socket at once. -/
theorem welcomed_of_runs
    (hclient : Transition.run PipeClient.step (create clientId uuid) es = some c)
    (hsequence : c.sequence < incrementLimit) (hsocket : c.sockets[k]? = some socket)
    (hopened : l₀.Opened socket.written.flatten)
    (hquiet : Transition.Along step (fun l label => l.undisturbed clientId label = true) l₀ ls)
    (hrun : Transition.run step l₀ ls = some l) :
    l.Welcomed socket.written ∧
      ∀ es₁ es₂ c₁, es = es₁ ++ .dispose :: es₂ →
        Transition.run PipeClient.step (create clientId uuid) es₁ = some c₁ →
        c₁.readyState k = .opened → l.unread = [] → l.worker.Resting → l.Released := by
  have hid : c.clientId = clientId := (PipeClient.grows_of_run hclient).clientId
  obtain ⟨ms, hms⟩ := (PipeClient.orderly_of_run hclient).talks k socket hsocket
  obtain ⟨stage, hsaid, -⟩ := hms.ordered hsequence
  have hwritten : socket.written = ms.map (Message.text clientId) := hid ▸ hms.written
  have hfollows : Follows clientId ms l := by
    refine Transition.run_along (fun _ _ _ hf hq hs => hf.step uuid hq hs) ?_ hquiet hrun
    exact Opened.follows uuid hms.fits hsaid (hwritten ▸ hopened)
  refine ⟨hwritten ▸ hfollows.welcomed uuid hms.fits, ?_⟩
  intro es₁ es₂ c₁ hes hrun₁ ho hunread hresting
  rw [hes] at hclient
  obtain ⟨c₁', hrun₁', hrest⟩ := Transition.run_append.mp hclient
  obtain rfl := Option.some.inj (hrun₁.symm.trans hrun₁')
  have hgoodbye := PipeClient.finished_of_dispose hrun₁ ho hrest hsocket
  refine hfollows.released ?_ hunread hresting
  -- The last message said is the GOODBYE, which ends the conversation.
  rw [hwritten, List.getLast?_map] at hgoodbye
  obtain ⟨m, hm, htext⟩ := Option.map_eq_some_iff.mp hgoodbye
  obtain ⟨front, rfl⟩ := List.getLast?_eq_some_iff.mp hm
  obtain rfl := PipeClient.text_eq_goodbye (hms.fits m (by simp)) htext uuid
  obtain ⟨before, -, hnext⟩ := Transition.run_append.mp hsaid
  obtain ⟨last, hlast, hend⟩ := Transition.run_cons.mp hnext
  obtain rfl := Option.some.inj hend
  rw [hsaid, (finished_iff hlast).mpr rfl]

def visit : List PipeClient.ClientEvent := [.connect, .connected 0, .publish .safe, .dispose]

def visitor : Bytes := ascii "01234567-89ab-cdef-0123-456789abcdef"

theorem uuid_visitor : Uuid visitor := isUuid_iff.mp (by decide +kernel)

def visitSocket : Socket where
  readyState := .closed
  written := [helloFrame visitor, stateFrame 1 .sensitive, stateFrame 2 .safe, goodbyeFrame]
  connectEmitted := true
  released := true

def visitLink : Link where
  id := 1
  privacyState := ((PrivacyState.init 2000).connectionOpened 0).1
  unread := visitSocket.written.flatten

def visitLabels : List Label :=
  [.proceed true, .read 60, .proceed true, .call 1, .others (.connectionOpened 2), .proceed true,
    .proceed true, .nothing, .proceed true, .read 100, .proceed true, .call 3,
    .others (.connectionClosed 2), .proceed true, .call 3, .proceed true, .call 4, .proceed true]

theorem welcomed_visit :
    ((Transition.run step visitLink visitLabels).get (by decide +kernel)).Welcomed
        visitSocket.written ∧
      ((Transition.run step visitLink visitLabels).get (by decide +kernel)).Released := by
  have hclient : ∃ c, Transition.run PipeClient.step (create visitor uuid_visitor) visit = some c ∧
      c.sequence < incrementLimit ∧ c.sockets[0]? = some visitSocket :=
    ⟨_, (Option.some_get (by decide +kernel)).symm, by decide +kernel, by decide +kernel⟩
  have hbefore : ∃ c,
      Transition.run PipeClient.step (create visitor uuid_visitor) (visit.take 3) = some c ∧
        c.readyState 0 = .opened :=
    ⟨_, (Option.some_get (by decide +kernel)).symm, by decide +kernel⟩
  obtain ⟨c, hc, hsequence, hsocket⟩ := hclient
  obtain ⟨c₁, hc₁, ho⟩ := hbefore
  obtain ⟨hwelcomed, hreleased⟩ := welcomed_of_runs hc hsequence hsocket
    (show visitLink.Opened visitSocket.written.flatten from ⟨rfl, rfl, rfl, 0, by decide +kernel⟩)
    (show Transition.Along step _ visitLink visitLabels by decide +kernel)
    (Option.some_get _).symm
  refine ⟨hwelcomed,
    hreleased (visit.take 3) [] c₁ rfl hc₁ ho (by decide +kernel) ⟨by decide +kernel, ?_⟩⟩
  intro frame position
  have hpoint : ((Transition.run step visitLink visitLabels).get (by decide +kernel)).worker.point =
      .cleanup := by decide +kernel
  simp [hpoint]

end Link

end PrivacyGuard
