import PrivacyGuard.Extension.Conversation

/-! # The life of a client

The current socket is the only one the client has not let go of, and the refresh interval
is its interval. Over all sockets the states are numbered in order, and a disposed client
creates, writes and announces nothing.
-/

namespace PrivacyGuard

def Message.number : Message → Option ℕ
  | .state sequence _ => some sequence
  | _ => none

namespace PipeClient

def ClientEvent.status (latest : PrivacyStatus) : ClientEvent → PrivacyStatus
  | .publish status => status
  | _ => latest

def published (es : List ClientEvent) : PrivacyStatus := es.foldl ClientEvent.status .sensitive

variable {c c' : PipeClient} {k : ℕ} {s : Socket} {f : Socket → Socket}

/-! ### The current socket -/

/-- The socket exists, and is neither closed nor ended or destroyed by the client. -/
def Live (c : PipeClient) (k : ℕ) : Prop :=
  ∃ s, c.sockets[k]? = some s ∧ s.closeEmitted = false ∧ s.released = false

def Connected (c : PipeClient) (k : ℕ) : Prop :=
  ∃ s, c.sockets[k]? = some s ∧ s.connectEmitted = true

/-- No refresh interval is set, and none is running. -/
structure Idle (c : PipeClient) : Prop where
  timer : c.stateRefreshTimer = none
  intervals : c.intervals = []

structure Attached (c : PipeClient) : Prop where
  live : ∀ k, c.Live k → c.socket = some k
  running : ∀ handle k, (handle, k) ∈ c.intervals →
    c.stateRefreshTimer = some handle ∧ c.socket = some k ∧ c.Connected k
  timer : ∀ handle, c.stateRefreshTimer = some handle → ∃ k, c.intervals = [(handle, k)]

/-- What a socket has emitted, and that the client let go of it, is not undone. -/
structure Ages (s s' : Socket) : Prop where
  connectEmitted : s.connectEmitted = true → s'.connectEmitted = true
  live : s'.closeEmitted = false ∧ s'.released = false →
    s.closeEmitted = false ∧ s.released = false

theorem ages_emitClose (s : Socket) : Ages s (emitClose s) := ⟨id, by simp [emitClose]⟩

theorem Live.of_updateSocket (hf : ∀ s, Ages s (f s)) {j : ℕ} (h : (c.updateSocket k f).Live j) :
    c.Live j := by
  obtain ⟨s', hs', hlive⟩ := h
  rw [updateSocket, List.getElem?_modify] at hs'
  by_cases hj : k = j
  · obtain ⟨s, hs, rfl⟩ : ∃ s, c.sockets[j]? = some s ∧ f s = s' := by simpa [hj] using hs'
    exact ⟨s, hs, (hf s).live hlive⟩
  · exact ⟨s', by simpa [hj] using hs', hlive⟩

theorem Connected.updateSocket (hf : ∀ s, Ages s (f s)) {j : ℕ} (h : c.Connected j) :
    (c.updateSocket k f).Connected j := by
  obtain ⟨s, hs, hemitted⟩ := h
  by_cases hj : k = j
  · exact ⟨f s, by simp [PipeClient.updateSocket, hj, hs], (hf s).connectEmitted hemitted⟩
  · exact ⟨s, by simp [PipeClient.updateSocket, hj, hs], hemitted⟩

theorem Live.of_modify (hf : ∀ s, (f s).closeEmitted = true ∨ (f s).released = true)
    (hsockets : c'.sockets = c.sockets.modify k f) {j : ℕ} (h : c'.Live j) : j ≠ k ∧ c.Live j := by
  obtain ⟨s', hs', hclosed, hreleased⟩ := h
  rw [hsockets, List.getElem?_modify] at hs'
  by_cases hj : k = j
  · obtain ⟨s, hs, rfl⟩ : ∃ s, c.sockets[j]? = some s ∧ f s = s' := by simpa [hj] using hs'
    rcases hf s with h | h
    · simp [h] at hclosed
    · simp [h] at hreleased
  · exact ⟨Ne.symm hj, s', by simpa [hj] using hs', hclosed, hreleased⟩

theorem Idle.attached (h : Idle c) (hlive : ∀ k, c.Live k → c.socket = some k) : Attached c := by
  constructor
  case live => exact hlive
  case running => simp [h.intervals]
  case timer => simp [h.timer]

theorem Attached.update (h : Attached c) (k : ℕ) (hf : ∀ s, Ages s (f s)) :
    Attached (c.updateSocket k f) := by
  constructor
  case live => exact fun j hj => h.live j (hj.of_updateSocket hf)
  case running =>
    intro handle j hmem
    obtain ⟨htimer, hcur, hconn⟩ := h.running handle j hmem
    exact ⟨htimer, hcur, hconn.updateSocket hf⟩
  case timer => exact h.timer

theorem Attached.write (h : Attached c) (k : ℕ) (text : Bytes) : Attached (c.write k text) :=
  h.update k fun _ => ⟨id, id⟩

theorem Attached.destroy (h : Attached c) (k : ℕ) : Attached (c.destroy k) :=
  h.update k fun _ => ⟨id, by simp⟩

theorem Attached.writeState (h : Attached c) (k : ℕ) : Attached (c.writeState k) := by
  have h' : Attached { c with sequence := incrementNumber c.sequence } :=
    ⟨h.live, h.running, h.timer⟩
  exact h'.write k _

theorem Attached.connect (h : Attached c) : Attached c.connect := by
  unfold PipeClient.connect
  split
  case isTrue => exact h
  case isFalse hguard =>
    have hnone : c.socket = none := by
      simp only [Bool.or_eq_true, not_or, Bool.not_eq_true, Option.isSome_eq_false_iff,
        Option.isNone_iff_eq_none] at hguard
      exact hguard.2
    constructor
    case live =>
      rintro j ⟨s, hs, hlive⟩
      rw [List.getElem?_append] at hs
      split at hs
      case isTrue => simpa [hnone] using h.live j ⟨s, hs, hlive⟩
      case isFalse hj =>
        have hj' := (List.getElem?_eq_some_iff.mp hs).1
        simp only [List.length_singleton] at hj'
        exact congrArg some (by omega)
    case running =>
      intro handle j hmem
      simpa [hnone] using (h.running handle j hmem).2.1
    case timer => exact h.timer

theorem Attached.publish (h : Attached c) (status : PrivacyStatus) :
    Attached (c.publish status) := by
  have h' : Attached { c with latestStatus := status } := ⟨h.live, h.running, h.timer⟩
  unfold PipeClient.publish
  simp only
  split
  · split
    · exact h'.writeState _
    · exact h'
  · exact h'

theorem Attached.refresh (h : Attached c) (k : ℕ) : Attached (c.refresh k) := by
  unfold PipeClient.refresh
  split
  case isTrue => exact h.writeState k
  case isFalse => exact h

/-! ### Letting go -/

theorem idle_clearStateRefresh
    (h : ∀ handle k, (handle, k) ∈ c.intervals → c.stateRefreshTimer = some handle) :
    Idle c.clearStateRefresh := by
  unfold clearStateRefresh
  cases htimer : c.stateRefreshTimer with
  | none =>
    refine ⟨htimer, List.eq_nil_iff_forall_not_mem.mpr fun interval hmem => ?_⟩
    have := h interval.1 interval.2 hmem
    simp [htimer] at this
  | some handle =>
    refine ⟨rfl, List.filter_eq_nil_iff.mpr fun interval hmem => ?_⟩
    have := h interval.1 interval.2 hmem
    simpa [htimer] using this.symm

theorem Idle.clearReconnect (h : Idle c) : Idle c.clearReconnect := by
  unfold PipeClient.clearReconnect
  split
  · exact ⟨h.timer, h.intervals⟩
  · exact h

theorem Attached.idle_dispose (h : Attached c) : Idle c.dispose := by
  have hclear : Idle (clearTimers { c with disposed := true }) :=
    Idle.clearReconnect (idle_clearStateRefresh fun handle k hmem => (h.running handle k hmem).1)
  rw [dispose_eq]
  exact ⟨hclear.timer, hclear.intervals⟩

theorem Attached.dispose (h : Attached c) : Attached c.dispose := by
  refine h.idle_dispose.attached fun j hj => ?_
  have hcore := sameCore_dispose c
  cases hcur : c.socket with
  | none =>
    have hsockets : c.dispose.sockets = c.sockets := by rw [hcore.sockets, farewells, hcur]
    have hlive : c.Live j := by simpa only [Live, hsockets] using hj
    simpa [hcur] using h.live j hlive
  | some k =>
    have hsockets : c.dispose.sockets = c.sockets.modify k farewell := by
      rw [hcore.sockets, farewells, hcur]
    obtain ⟨hjk, hlive⟩ := hj.of_modify (fun _ => Or.inr rfl) hsockets
    exact absurd (Option.some.inj ((h.live j hlive).symm.trans hcur)) hjk

theorem Attached.idle_handleClosed (h : Attached c) (hcur : c.socket = some k) :
    Idle (c.handleClosed k) := by
  have hidle := idle_clearStateRefresh (c := { c with socket := none })
    fun handle k hmem => (h.running handle k hmem).1
  unfold handleClosed
  rw [if_neg (not_not.mpr hcur)]
  simp only
  split
  · exact ⟨hidle.timer, hidle.intervals⟩
  · exact ⟨hidle.timer, hidle.intervals⟩

theorem handleClosed_eq (c : PipeClient) (k : ℕ) :
    (c.handleClosed k).sockets = c.sockets ∧ (c.handleClosed k).sequence = c.sequence ∧
      (c.handleClosed k).latestStatus = c.latestStatus := by
  by_cases hcur : c.socket = some k
  · have hcore := sameCore_handleClosed hcur
    exact ⟨hcore.sockets, hcore.sequence, hcore.latestStatus⟩
  · rw [handleClosed_of_superseded hcur]
    exact ⟨rfl, rfl, rfl⟩

theorem Attached.closed (h : Attached c) (k : ℕ) :
    Attached ((c.updateSocket k emitClose).handleClosed k) := by
  have h' := h.update k ages_emitClose
  by_cases hcur : c.socket = some k
  · refine (h'.idle_handleClosed hcur).attached fun j hj => ?_
    obtain ⟨hjk, hlive⟩ := hj.of_modify (fun _ => Or.inl rfl) (handleClosed_eq _ k).1
    exact absurd (Option.some.inj ((h.live j hlive).symm.trans hcur)) hjk
  · rw [handleClosed_of_superseded]
    · exact h'
    · exact hcur

/-! ### The refresh interval -/

theorem Attached.idle_of_fresh (h : Attached c) (hcur : c.socket = some k)
    (hk : c.sockets[k]? = some s) (hemitted : s.connectEmitted = false) : Idle c := by
  have hintervals : c.intervals = [] := by
    refine List.eq_nil_iff_forall_not_mem.mpr fun interval hmem => ?_
    obtain ⟨-, hcur', t, ht, hconn⟩ := h.running interval.1 interval.2 hmem
    obtain rfl : k = interval.2 := Option.some.inj (hcur.symm.trans hcur')
    obtain rfl : s = t := Option.some.inj (hk.symm.trans ht)
    simp [hemitted] at hconn
  refine ⟨Option.eq_none_iff_forall_ne_some.mpr fun handle htimer => ?_, hintervals⟩
  obtain ⟨j, hj⟩ := h.timer handle htimer
  simp [hintervals] at hj

theorem Attached.install (h : Attached c) (hidle : Idle c) (hcur : c.socket = some k)
    (hconn : c.Connected k) (handle : ℕ) :
    Attached { c with
      stateRefreshTimer := some handle
      intervals := (handle, k) :: c.intervals
      nextHandle := c.nextHandle + 1 } := by
  constructor
  case live => exact h.live
  case running =>
    intro handle' j hmem
    obtain ⟨rfl, rfl⟩ : handle' = handle ∧ j = k := by simpa [hidle.intervals] using hmem
    exact ⟨rfl, hcur, hconn⟩
  case timer =>
    rintro handle' ⟨⟩
    exact ⟨k, by simp [hidle.intervals]⟩

theorem Attached.handleConnected (h : Attached c) (hidle : c.socket = some k → Idle c)
    (hconn : c.Connected k) : Attached (c.handleConnected k) := by
  unfold PipeClient.handleConnected
  split
  case isTrue => exact h.destroy k
  case isFalse hguard =>
    obtain ⟨hcur, -⟩ := not_or.mp hguard
    have hcur : c.socket = some k := not_not.mp hcur
    obtain ⟨htimer, hintervals⟩ := hidle hcur
    have h' : Attached { c with connectionStates := .connected :: c.connectionStates } :=
      ⟨h.live, h.running, h.timer⟩
    have hwritten := (h'.write k (helloFrame c.clientId)).writeState k
    refine hwritten.install ⟨htimer, hintervals⟩ hcur ?_ _
    apply Connected.updateSocket
    · exact fun _ => ⟨id, id⟩
    · apply Connected.updateSocket
      · exact fun _ => ⟨id, id⟩
      · exact hconn

theorem Attached.connected (h : Attached c) (hk : c.sockets[k]? = some s)
    (hemitted : s.connectEmitted = false) :
    Attached ((c.updateSocket k emitConnect).handleConnected k) := by
  apply Attached.handleConnected
  · exact h.update k fun _ => ⟨fun _ => rfl, id⟩
  · intro hcur
    obtain ⟨htimer, hintervals⟩ := h.idle_of_fresh hcur hk hemitted
    exact ⟨htimer, hintervals⟩
  · exact ⟨_, by rw [updateSocket, List.getElem?_modify_eq, hk]; rfl, rfl⟩

theorem Attached.step (h : Attached c) {e : ClientEvent} (hs : c.step e = some c') :
    Attached c' := by
  cases delivered_of_step hs with
  | connect => exact h.connect
  | publish status => exact h.publish status
  | dispose => exact h.dispose
  | connected hk hemitted => exact h.connected hk hemitted
  | ended hk => exact h.update _ fun _ => ⟨id, id⟩
  | closed hk => exact h.closed _
  | refreshFires hmem => exact h.refresh _
  | @reconnectFires handle hmem =>
    have h' : Attached { c with timeouts := c.timeouts.erase handle } :=
      ⟨h.live, h.running, h.timer⟩
    exact h'.connect

/-- The recorded interval and the announced states stay as they are. -/
structure Undisturbed (c c' : PipeClient) : Prop where
  timer : c'.stateRefreshTimer = c.stateRefreshTimer
  announced : c'.connectionStates = c.connectionStates

theorem undisturbed_connect (c : PipeClient) : Undisturbed c c.connect := by
  unfold PipeClient.connect
  split <;> exact ⟨rfl, rfl⟩

theorem undisturbed_publish (c : PipeClient) (status : PrivacyStatus) :
    Undisturbed c (c.publish status) := by
  unfold PipeClient.publish
  simp only
  split
  · split <;> exact ⟨rfl, rfl⟩
  · exact ⟨rfl, rfl⟩

theorem undisturbed_refresh (c : PipeClient) (k : ℕ) : Undisturbed c (c.refresh k) := by
  unfold PipeClient.refresh
  split <;> exact ⟨rfl, rfl⟩

/-- A step keeps the interval that is set, or clears it. -/
theorem Attached.kept (h : Attached c) {e : ClientEvent} (hs : c.step e = some c') {handle : ℕ}
    (htimer : c.stateRefreshTimer = some handle) :
    c'.stateRefreshTimer = some handle ∨ Idle c' := by
  cases delivered_of_step hs with
  | connect => exact Or.inl ((undisturbed_connect c).timer.trans htimer)
  | publish status => exact Or.inl ((undisturbed_publish c status).timer.trans htimer)
  | dispose => exact Or.inr h.idle_dispose
  | @connected k s hk hemitted =>
    by_cases hcur : c.socket = some k
    · have hidle := h.idle_of_fresh hcur hk hemitted
      simp [hidle.timer] at htimer
    · rw [handleConnected_of_superseded]
      · exact Or.inl htimer
      · exact hcur
  | ended hk => exact Or.inl htimer
  | @closed k s hk =>
    by_cases hcur : c.socket = some k
    · exact Or.inr ((h.update k ages_emitClose).idle_handleClosed hcur)
    · rw [handleClosed_of_superseded]
      · exact Or.inl htimer
      · exact hcur
  | refreshFires hmem => exact Or.inl ((undisturbed_refresh c _).timer.trans htimer)
  | reconnectFires hmem => exact Or.inl ((undisturbed_connect _).timer.trans htimer)

/-! ### The latest status and the announced states -/

theorem latestStatus_connect (c : PipeClient) : c.connect.latestStatus = c.latestStatus := by
  unfold PipeClient.connect
  split <;> rfl

theorem latestStatus_publish (c : PipeClient) (status : PrivacyStatus) :
    (c.publish status).latestStatus = status := by
  unfold PipeClient.publish
  simp only
  split
  · split <;> rfl
  · rfl

theorem latestStatus_handleConnected (c : PipeClient) (k : ℕ) :
    (c.handleConnected k).latestStatus = c.latestStatus := by
  unfold PipeClient.handleConnected
  split <;> rfl

theorem latestStatus_refresh (c : PipeClient) (k : ℕ) :
    (c.refresh k).latestStatus = c.latestStatus := by
  unfold PipeClient.refresh
  split <;> rfl

theorem latestStatus_step {e : ClientEvent} (hs : c.step e = some c') :
    c'.latestStatus = e.status c.latestStatus := by
  cases delivered_of_step hs with
  | connect => exact latestStatus_connect c
  | publish status => exact latestStatus_publish c status
  | dispose => exact (sameCore_dispose c).latestStatus
  | connected hk => exact latestStatus_handleConnected _ _
  | ended hk => rfl
  | closed hk => exact (handleClosed_eq _ _).2.2
  | refreshFires hmem => exact latestStatus_refresh c _
  | reconnectFires hmem => exact latestStatus_connect _

theorem latestStatus_of_run {es : List ClientEvent}
    (h : Transition.run PipeClient.step c es = some c') :
    c'.latestStatus = es.foldl ClientEvent.status c.latestStatus := by
  induction es generalizing c with
  | nil =>
    obtain rfl := Option.some.inj h
    rfl
  | cons e es ih =>
    obtain ⟨d, hd, h⟩ := Transition.run_cons.mp h
    rw [ih h, latestStatus_step hd, List.foldl_cons]

theorem connectionStates_dispose (c : PipeClient) :
    c.dispose.connectionStates = c.connectionStates := by
  have hrefresh : ∀ d : PipeClient, d.clearStateRefresh.connectionStates = d.connectionStates := by
    intro d
    unfold clearStateRefresh
    split <;> rfl
  have hreconnect : ∀ d : PipeClient, d.clearReconnect.connectionStates = d.connectionStates := by
    intro d
    unfold clearReconnect
    split <;> rfl
  rw [dispose_eq]
  exact (hreconnect _).trans (hrefresh _)

theorem Orderly.announced (h : Orderly c) (hd : c.disposed = true) {e : ClientEvent}
    (hs : c.step e = some c') : c'.connectionStates = c.connectionStates := by
  have hnone : c.socket = none := h.socket_of_disposed hd
  cases delivered_of_step hs with
  | connect => exact (undisturbed_connect c).announced
  | publish status => exact (undisturbed_publish c status).announced
  | dispose => exact connectionStates_dispose c
  | connected hk =>
    rw [handleConnected_of_disposed]
    · rfl
    · exact hd
  | ended hk => rfl
  | closed hk =>
    rw [handleClosed_of_superseded]
    · rfl
    · simp [updateSocket, hnone]
  | refreshFires hmem => exact (undisturbed_refresh c _).announced
  | reconnectFires hmem => exact (undisturbed_connect _).announced

/-! ### The transcript -/

def texts (c : PipeClient) (k : ℕ) : List Bytes :=
  match c.sockets[k]? with
  | some socket => socket.written
  | none => []

/-- The texts that the sockets of `c'` have and those of `c` do not. -/
def spoken (c c' : PipeClient) : List Bytes :=
  (List.range c'.sockets.length).flatMap fun k => (c'.texts k).drop (c.texts k).length

/-- All that is written while events are delivered, in the order of writing. -/
def transcript (c : PipeClient) : List ClientEvent → List Bytes
  | [] => []
  | e :: es =>
    match c.step e with
    | some c' => c.spoken c' ++ c'.transcript es
    | none => []

/-- From `c` to `c'` the messages are written, with a fresh number on each state. -/
structure Says (c c' : PipeClient) (ms : List Message) : Prop where
  spoken : c.spoken c' = ms.map (Message.text c.clientId)
  number : ms.filterMap Message.number = [] ∧ c'.sequence = c.sequence ∨
    ms.filterMap Message.number = [c'.sequence] ∧ c'.sequence = incrementNumber c.sequence

theorem flatMap_range_eq {n k : ℕ} {g : ℕ → List Bytes} (hk : k < n)
    (hg : ∀ j, j ≠ k → g j = []) : (List.range n).flatMap g = g k := by
  induction n with
  | zero => omega
  | succ n ih =>
    rw [List.range_succ, List.flatMap_append, List.flatMap_singleton]
    by_cases hn : k = n
    · subst hn
      have hbefore : (List.range k).flatMap g = [] := by
        refine List.flatMap_eq_nil_iff.mpr fun j hj => hg j ?_
        exact (List.mem_range.mp hj).ne
      rw [hbefore, List.nil_append]
    · rw [ih (by omega), hg n (Ne.symm hn), List.append_nil]

theorem texts_modify (hsockets : c'.sockets = c.sockets.modify k f)
    (hf : ∀ s, (f s).written = s.written) (j : ℕ) : c'.texts j = c.texts j := by
  unfold texts
  rw [hsockets, List.getElem?_modify]
  cases c.sockets[j]? with
  | none => rfl
  | some s =>
    by_cases hj : k = j
    · simp [hj, hf]
    · simp [hj]

theorem says_nil (htexts : ∀ j, c'.texts j = c.texts j) (hsequence : c'.sequence = c.sequence) :
    Says c c' [] := by
  refine ⟨List.flatMap_eq_nil_iff.mpr fun j _ => ?_, Or.inl ⟨rfl, hsequence⟩⟩
  rw [htexts, List.drop_length]

theorem spoken_of_modify (hk : c.sockets[k]? = some s) {ts : List Bytes}
    (hsockets : c'.sockets = c.sockets.modify k f) (hf : (f s).written = s.written ++ ts) :
    c.spoken c' = ts := by
  have hlt : k < c'.sockets.length := by
    rw [hsockets, List.length_modify]
    exact (List.getElem?_eq_some_iff.mp hk).1
  unfold spoken
  rw [flatMap_range_eq hlt]
  · simp [texts, hsockets, hk, hf]
  · intro j hj
    have htexts : c'.texts j = c.texts j := by
      simp [texts, hsockets, List.getElem?_modify_ne _ _ (Ne.symm hj)]
    rw [htexts, List.drop_length]

theorem says_state (hk : c.sockets[k]? = some s) {status : PrivacyStatus}
    (hsockets : c'.sockets = c.sockets.modify k fun s =>
      { s with written := s.written ++ [stateFrame c'.sequence status] })
    (hsequence : c'.sequence = incrementNumber c.sequence) :
    Says c c' [.state c'.sequence status] :=
  ⟨spoken_of_modify hk hsockets rfl, Or.inr ⟨rfl, hsequence⟩⟩

theorem says_publish (c : PipeClient) (status : PrivacyStatus) :
    ∃ ms, Says c (c.publish status) ms := by
  unfold PipeClient.publish
  simp only
  split
  case h_2 => exact ⟨[], says_nil (fun _ => rfl) rfl⟩
  case h_1 k hcur =>
    split
    case isFalse => exact ⟨[], says_nil (fun _ => rfl) rfl⟩
    case isTrue ho =>
      obtain ⟨s, hk, -⟩ := (readyState_eq (by decide)).mp ho
      have hk : c.sockets[k]? = some s := hk
      have hsays : Says c (writeState { c with latestStatus := status } k) [.state _ status] :=
        says_state hk rfl rfl
      exact ⟨_, hsays⟩

theorem says_refresh (c : PipeClient) (k : ℕ) : ∃ ms, Says c (c.refresh k) ms := by
  unfold PipeClient.refresh
  split
  case isFalse => exact ⟨[], says_nil (fun _ => rfl) rfl⟩
  case isTrue ho =>
    obtain ⟨s, hk, -⟩ := (readyState_eq (by decide)).mp ho
    exact ⟨_, says_state hk rfl rfl⟩

theorem says_connect (c : PipeClient) : Says c c.connect [] := by
  unfold PipeClient.connect
  split
  case isTrue => exact says_nil (fun _ => rfl) rfl
  case isFalse =>
    refine says_nil (fun j => ?_) rfl
    unfold texts
    rcases lt_or_ge j c.sockets.length with hj | hj
    · simp only [List.getElem?_append_left hj]
    · rw [List.getElem?_eq_none hj, List.getElem?_append_right hj]
      cases hs : ([{}] : List Socket)[j - c.sockets.length]? with
      | none => rfl
      | some s =>
        obtain rfl : s = {} := List.mem_singleton.mp (List.mem_of_getElem? hs)
        rfl

theorem Orderly.says_dispose (h : Orderly c) : ∃ ms, Says c c.dispose ms := by
  have hcore := sameCore_dispose c
  have hsockets := hcore.sockets
  unfold farewells at hsockets
  cases hcur : c.socket with
  | none =>
    simp only [hcur] at hsockets
    exact ⟨[], says_nil (fun j => by rw [texts, texts, hsockets]) hcore.sequence⟩
  | some k =>
    simp only [hcur] at hsockets
    obtain ⟨-, s, hk, -⟩ := h.current k hcur
    by_cases ho : s.readyState = .opened
    · have hspoken : c.spoken c.dispose = [goodbyeFrame] :=
        spoken_of_modify hk hsockets (by simp [farewell, ho])
      exact ⟨[.goodbye], hspoken, Or.inl ⟨rfl, hcore.sequence⟩⟩
    · have hspoken : c.spoken c.dispose = [] :=
        spoken_of_modify hk hsockets (by simp [farewell, ho])
      exact ⟨[], hspoken, Or.inl ⟨rfl, hcore.sequence⟩⟩

theorem says_connected (hk : c.sockets[k]? = some s) {f : Socket → Socket}
    (hf : ∀ s, (f s).written = s.written) :
    ∃ ms, Says c ((c.updateSocket k f).handleConnected k) ms := by
  unfold handleConnected
  split
  case isTrue =>
    have htexts : ∀ j, ((c.updateSocket k f).destroy k).texts j = c.texts j :=
      texts_modify (List.modify_modify_eq _ _ _ _) hf
    exact ⟨[], says_nil htexts rfl⟩
  case isFalse =>
    refine ⟨[.hello, .state (incrementNumber c.sequence) c.latestStatus], ?_, Or.inr ⟨rfl, rfl⟩⟩
    apply spoken_of_modify hk
    · simp only [updateSocket, write, writeState, List.modify_modify_eq]
      rfl
    · simp [hf, Message.text]

theorem Orderly.says (h : Orderly c) {e : ClientEvent} (hs : c.step e = some c') :
    ∃ ms, Says c c' ms := by
  cases delivered_of_step hs with
  | connect => exact ⟨[], says_connect c⟩
  | publish status => exact says_publish c status
  | dispose => exact h.says_dispose
  | connected hk => exact says_connected hk fun _ => rfl
  | ended hk => exact ⟨[], says_nil (texts_modify rfl fun _ => rfl) rfl⟩
  | @closed k s hk =>
    obtain ⟨hsockets, hsequence, -⟩ := handleClosed_eq (c.updateSocket k emitClose) k
    exact ⟨[], says_nil (texts_modify hsockets fun _ => rfl) hsequence⟩
  | refreshFires hmem => exact says_refresh c _
  | reconnectFires hmem =>
    obtain ⟨hspoken, hnumber⟩ := says_connect { c with timeouts := c.timeouts.erase _ }
    exact ⟨[], hspoken, hnumber⟩

/-- During a run the states are numbered from the first sequence to the last. -/
theorem Orderly.transcript_of_run (h : Orderly c) {es : List ClientEvent}
    (hrun : Transition.run PipeClient.step c es = some c') (hlt : c'.sequence < incrementLimit) :
    ∃ ms : List Message, c.transcript es = ms.map (Message.text c.clientId) ∧
      ms.filterMap Message.number = List.range' (c.sequence + 1) (c'.sequence - c.sequence) := by
  induction es generalizing c with
  | nil =>
    obtain rfl := Option.some.inj hrun
    exact ⟨[], rfl, by simp⟩
  | cons e es ih =>
    obtain ⟨d, hd, hrun⟩ := Transition.run_cons.mp hrun
    obtain ⟨ms, hspoken, hnumber⟩ := h.says hd
    obtain ⟨ms', htranscript, hnumber'⟩ := ih (h.step hd) hrun
    have hgrows := grows_step hd
    have hle : d.sequence ≤ c'.sequence := (grows_of_run hrun).sequence
    refine ⟨ms ++ ms', ?_, ?_⟩
    · rw [transcript, hd, List.map_append, ← hspoken, ← hgrows.clientId, ← htranscript]
    · rw [List.filterMap_append, hnumber']
      rcases hnumber with ⟨hnone, hsequence⟩ | ⟨hone, hsequence⟩
      · rw [hnone, hsequence, List.nil_append]
      · have hd : d.sequence = c.sequence + 1 := by
          rw [hsequence] at hle ⊢
          exact incrementNumber_of_lt (by omega)
        have hlength : c'.sequence - c.sequence = c'.sequence - d.sequence + 1 := by omega
        rw [hone, hlength, List.range'_succ, hd, List.singleton_append]

/-! ### Every run -/

theorem attached_create {clientId : Bytes} (uuid : Uuid clientId) :
    Attached (create clientId uuid) := by
  constructor
  case live =>
    rintro k ⟨s, hs, -⟩
    simp [create] at hs
  case running => simp [create]
  case timer => simp [create]

theorem attached_of_run {clientId : Bytes} {uuid : Uuid clientId} {es : List ClientEvent}
    (h : Transition.run PipeClient.step (create clientId uuid) es = some c) : Attached c :=
  Transition.run_invariant (fun _ _ _ hi hs => hi.step hs) (attached_create uuid) h

theorem Orderly.disposed_of_run (h : Orderly c) {es : List ClientEvent}
    (hrun : Transition.run PipeClient.step c es = some c') (hmem : .dispose ∈ es) :
    c'.disposed = true := by
  obtain ⟨before, after, rfl⟩ := List.append_of_mem hmem
  obtain ⟨d, hd, hrun⟩ := Transition.run_append.mp hrun
  obtain ⟨d', hd', hrun⟩ := Transition.run_cons.mp hrun
  have horderly : Orderly d := Transition.run_invariant (fun _ _ _ hi hs => hi.step hs) h hd
  obtain rfl := Option.some.inj hd'
  exact (horderly.dispose.quiet_of_run (sameCore_dispose d).disposed hrun).disposed

theorem Orderly.announced_of_run (h : Orderly c) (hd : c.disposed = true) {es : List ClientEvent}
    (hrun : Transition.run PipeClient.step c es = some c') :
    c'.connectionStates = c.connectionStates := by
  have hinv : Orderly c' ∧ c'.disposed = true ∧ c'.connectionStates = c.connectionStates :=
    Transition.run_invariant
      (I := fun d => Orderly d ∧ d.disposed = true ∧ d.connectionStates = c.connectionStates)
      (fun _ _ _ hi hs => ⟨hi.1.step hs, (hi.1.quiet hi.2.1 hs).disposed,
        (hi.1.announced hi.2.1 hs).trans hi.2.2⟩)
      ⟨h, hd, rfl⟩ hrun
  exact hinv.2.2

structure Lifecycle (first : PipeClient) (es : List ClientEvent) (c : PipeClient) : Prop where
  /-- At most one socket is neither closed nor let go of. -/
  single : ∀ j k, c.Live j → c.Live k → j = k
  /-- A running interval is the only one, and belongs to the current connected socket. -/
  running : ∀ handle k, (handle, k) ∈ c.intervals → c.intervals = [(handle, k)] ∧
    c.stateRefreshTimer = some handle ∧ c.socket = some k ∧ c.Connected k
  /-- The next event keeps the recorded interval or clears it. -/
  kept : ∀ e c', c.step e = some c' → ∀ handle, c.stateRefreshTimer = some handle →
    c'.stateRefreshTimer = some handle ∨ Idle c'
  /-- The states written so far, on whatever sockets, have increasing numbers. -/
  increasing : ∃ ms : List Message, first.transcript es = ms.map (Message.text first.clientId) ∧
    (ms.filterMap Message.number).Pairwise (· < ·)
  latest : ∀ k s, c.socket = some k → c.sockets[k]? = some s → s.readyState = .opened →
    ∃ ms : List Message, s.written = ms.map (Message.text first.clientId) ∧
      lastStatus ms = some (published es)
  /-- Once disposed, the client creates no socket, writes nothing and announces nothing. -/
  final : .dispose ∈ es → ∀ es' c', Transition.run PipeClient.step c es' = some c' →
    c'.sockets.length = c.sockets.length ∧
      c'.sockets.map Socket.written = c.sockets.map Socket.written ∧
      c'.connectionStates = c.connectionStates

theorem lifecycle_of_run {clientId : Bytes} {uuid : Uuid clientId} {es : List ClientEvent}
    (h : Transition.run PipeClient.step (create clientId uuid) es = some c)
    (hlt : c.sequence < incrementLimit) : Lifecycle (create clientId uuid) es c := by
  have hattached := attached_of_run h
  have horderly := orderly_of_run h
  have hid : c.clientId = clientId := (grows_of_run h).clientId
  constructor
  case single =>
    intro j k hj hk
    exact Option.some.inj ((hattached.live j hj).symm.trans (hattached.live k hk))
  case running =>
    intro handle k hmem
    have hrunning := hattached.running handle k hmem
    obtain ⟨j, hj⟩ := hattached.timer handle hrunning.1
    obtain rfl : k = j := by simpa [hj] using hmem
    exact ⟨hj, hrunning⟩
  case kept => exact fun e c' hs handle htimer => hattached.kept hs htimer
  case increasing =>
    obtain ⟨ms, hms, hnumber⟩ := (orderly_create uuid).transcript_of_run h hlt
    exact ⟨ms, hms, hnumber ▸ List.pairwise_lt_range'⟩
  case latest =>
    intro k s _ hk ho
    obtain ⟨ms, hms⟩ := horderly.talks k s hk
    refine ⟨ms, by rw [hms.written, hid]; rfl, ?_⟩
    rw [hms.latest ho, latestStatus_of_run h]
    rfl
  case final =>
    intro hmem es' c' hrun
    have hd := (orderly_create uuid).disposed_of_run h hmem
    have hquiet := horderly.quiet_of_run hd hrun
    have hlength := congrArg List.length hquiet.written
    rw [List.length_map, List.length_map] at hlength
    exact ⟨hlength, hquiet.written, horderly.announced_of_run hd hrun⟩

theorem lifecycle_reconnect :
    ∃ c, Transition.run PipeClient.step (create Built.zeroUuid Built.uuid_zeroUuid)
        [.connect, .connected 0, .publish .safe, .closed 0, .reconnectFires 1, .connected 1,
          .refreshFires 2, .dispose] = some c ∧ c.sequence = 4 ∧
      Lifecycle (create Built.zeroUuid Built.uuid_zeroUuid)
        [.connect, .connected 0, .publish .safe, .closed 0, .reconnectFires 1, .connected 1,
          .refreshFires 2, .dispose] c :=
  ⟨_, rfl, rfl, lifecycle_of_run rfl (by decide)⟩

end PipeClient

end PrivacyGuard
