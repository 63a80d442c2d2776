import PrivacyGuard.Extension.Status

/-! # A client comes back

From its first `connect` until it is disposed, a client has a socket that may still close, or
a reconnect timeout that is running. So it can always connect again, and then it greets and
reports its latest status first.
-/

namespace PrivacyGuard

namespace PipeClient

variable {c c' : PipeClient} {k : ℕ}

/-- There is a current socket that has not emitted `close`. -/
def Held (c : PipeClient) : Prop :=
  ∃ k s, c.socket = some k ∧ c.sockets[k]? = some s ∧ s.closeEmitted = false

/-- There is no current socket, and the timeout that creates one is running. -/
structure Scheduled (c : PipeClient) : Prop where
  socket : c.socket = none
  timer : ∃ handle, c.reconnectTimer = some handle ∧ handle ∈ c.timeouts

def Persists (c : PipeClient) : Prop := c.Held ∨ c.Scheduled

/-- Neither the current socket nor the reconnect timeout changes, and nothing closes. -/
structure Stays (c c' : PipeClient) : Prop where
  socket : c'.socket = c.socket
  timer : c'.reconnectTimer = c.reconnectTimer
  timeouts : c'.timeouts = c.timeouts
  closed : ∀ k s, c.sockets[k]? = some s → s.closeEmitted = false → c.socket = some k →
    ∃ s', c'.sockets[k]? = some s' ∧ s'.closeEmitted = false

theorem Stays.trans {c'' : PipeClient} (h : Stays c c') (h' : Stays c' c'') : Stays c c'' where
  socket := h'.socket.trans h.socket
  timer := h'.timer.trans h.timer
  timeouts := h'.timeouts.trans h.timeouts
  closed k s hs hclosed hcur := by
    obtain ⟨s', hs', hclosed'⟩ := h.closed k s hs hclosed hcur
    exact h'.closed k s' hs' hclosed' (h.socket.trans hcur)

theorem Persists.stays (h : Persists c) (hstays : Stays c c') : Persists c' := by
  rcases h with ⟨k, s, hcur, hs, hclosed⟩ | ⟨hnone, handle, htimer, hmem⟩
  · obtain ⟨s', hs', hclosed'⟩ := hstays.closed k s hs hclosed hcur
    exact .inl ⟨k, s', hstays.socket.trans hcur, hs', hclosed'⟩
  · exact .inr ⟨hstays.socket.trans hnone, handle, hstays.timer.trans htimer,
      hstays.timeouts.symm ▸ hmem⟩

theorem stays_updateSocket (c : PipeClient) (k : ℕ) {f : Socket → Socket}
    (hf : c.socket = some k → ∀ s, (f s).closeEmitted = s.closeEmitted) :
    Stays c (c.updateSocket k f) := by
  refine ⟨rfl, rfl, rfl, fun j s hs hclosed hcur => ?_⟩
  by_cases hj : k = j
  · subst hj
    exact ⟨f s, by simp [updateSocket, hs], (hf hcur s).trans hclosed⟩
  · exact ⟨s, by simp [updateSocket, hj, hs], hclosed⟩

theorem stays_write (c : PipeClient) (k : ℕ) (text : Bytes) : Stays c (c.write k text) :=
  stays_updateSocket c k fun _ _ => rfl

theorem stays_writeState (c : PipeClient) (k : ℕ) : Stays c (c.writeState k) := by
  have h : Stays c { c with sequence := incrementNumber c.sequence } :=
    ⟨rfl, rfl, rfl, fun k s hs hclosed _ => ⟨s, hs, hclosed⟩⟩
  exact h.trans (stays_write _ k _)

theorem stays_publish (c : PipeClient) (status : PrivacyStatus) : Stays c (c.publish status) := by
  have h : Stays c { c with latestStatus := status } :=
    ⟨rfl, rfl, rfl, fun k s hs hclosed _ => ⟨s, hs, hclosed⟩⟩
  unfold publish
  simp only
  split
  case h_1 k hk =>
    split
    case isTrue => exact h.trans (stays_writeState _ k)
    case isFalse => exact h
  case h_2 => exact h

theorem stays_refresh (c : PipeClient) (k : ℕ) : Stays c (c.refresh k) := by
  unfold refresh
  split
  case isTrue => exact stays_writeState c k
  case isFalse => exact ⟨rfl, rfl, rfl, fun k s hs hclosed _ => ⟨s, hs, hclosed⟩⟩

theorem stays_handleConnected (c : PipeClient) (k : ℕ) : Stays c (c.handleConnected k) := by
  unfold handleConnected
  split
  case isTrue => exact stays_updateSocket c k fun _ _ => rfl
  case isFalse =>
    have h : Stays c { c with connectionStates := .connected :: c.connectionStates } :=
      ⟨rfl, rfl, rfl, fun k s hs hclosed _ => ⟨s, hs, hclosed⟩⟩
    have h' := (h.trans (stays_write _ k (helloFrame c.clientId))).trans (stays_writeState _ k)
    exact ⟨h'.socket, h'.timer, h'.timeouts, h'.closed⟩

theorem held_connect (h : c.Held ∨ c.socket = none) (hd : c.disposed = false) :
    c.connect.Held := by
  unfold connect
  rcases h with ⟨k, s, hcur, hs, hclosed⟩ | hnone
  · rw [if_pos (by simp [hcur])]
    exact ⟨k, s, hcur, hs, hclosed⟩
  · rw [if_neg (by simp [hd, hnone])]
    exact ⟨c.sockets.length, {}, rfl, by simp, rfl⟩

theorem scheduled_handleClosed (hcur : c.socket = some k) (hd : c.disposed = false) :
    (c.handleClosed k).Scheduled := by
  have hcore := sameCore_clearStateRefresh { c with socket := none }
  unfold handleClosed
  rw [if_neg (not_not.mpr hcur)]
  simp only
  generalize clearStateRefresh { c with socket := none } = d at hcore ⊢
  have hd' : d.disposed = false := hcore.disposed.trans hd
  rw [if_neg (by simp [hd'])]
  exact ⟨hcore.socket, _, rfl, List.mem_cons_self⟩

/-! ### One event -/

theorem Persists.closed (h : Persists c) (hd : c.disposed = false) (k : ℕ) :
    Persists ((c.updateSocket k emitClose).handleClosed k) := by
  by_cases hcur : c.socket = some k
  · exact .inr (scheduled_handleClosed hcur hd)
  · rw [handleClosed_of_superseded]
    · exact h.stays (stays_updateSocket c k fun hk => absurd hk hcur)
    · exact hcur

theorem Persists.connect (h : Persists c) (hd : c.disposed = false) : Persists c.connect :=
  .inl (held_connect (h.imp_right Scheduled.socket) hd)

theorem Persists.reconnectFires (h : Persists c) (hd : c.disposed = false) (handle : ℕ) :
    (PipeClient.connect { c with timeouts := c.timeouts.erase handle }).Held := by
  rcases h with hheld | hscheduled
  · exact held_connect (.inl hheld) hd
  · exact held_connect (.inr hscheduled.socket) hd

/-- No event but `dispose` makes the client give up. -/
theorem Persists.step (h : Persists c) (hd : c.disposed = false) {e : ClientEvent}
    (he : e ≠ .dispose) (hs : c.step e = some c') : Persists c' := by
  cases delivered_of_step hs with
  | connect => exact h.connect hd
  | publish status => exact h.stays (stays_publish c status)
  | dispose => exact absurd rfl he
  | @connected k s hk hemitted =>
    have hemit := stays_updateSocket (f := emitConnect) c k fun _ _ => rfl
    exact h.stays (hemit.trans (stays_handleConnected _ _))
  | ended hk ho => exact h.stays (stays_updateSocket c _ fun _ _ => rfl)
  | closed hk hclosed => exact h.closed hd _
  | refreshFires hmem => exact h.stays (stays_refresh c _)
  | reconnectFires hmem => exact .inl (h.reconnectFires hd _)

/-! ### From the first `connect` on -/

theorem Unused.step (h : Unused c) {e : ClientEvent} (he : e ≠ .connect)
    (hs : c.step e = some c') : Unused c' := by
  cases hr : e.fromRuntime with
  | true =>
    rw [h.step_eq_none hr] at hs
    cases hs
  | false =>
    cases e with
    | connect => exact absurd rfl he
    | publish status =>
      obtain rfl := Option.some.inj hs
      have hpublish : c.publish status = { c with latestStatus := status } := by
        simp only [PipeClient.publish, h.socket]
      rw [hpublish]
      exact ⟨h.socket, h.sockets, h.stateRefreshTimer, h.intervals, h.reconnectTimer, h.timeouts⟩
    | dispose =>
      obtain rfl := Option.some.inj hs
      exact h.dispose
    | _ => cases hr

structure Resilient (c : PipeClient) : Prop where
  orderly : Orderly c
  persists : c.disposed = false → Persists c

theorem Resilient.step (h : Resilient c) {e : ClientEvent} (hs : c.step e = some c') :
    Resilient c' := by
  refine ⟨h.orderly.step hs, fun hd' => ?_⟩
  have hd : c.disposed = false := by
    by_contra hd
    have hquiet := h.orderly.quiet (by simpa using hd) hs
    simp [hquiet.disposed] at hd'
  refine (h.persists hd).step hd ?_ hs
  rintro rfl
  obtain rfl := Option.some.inj hs
  simp [(sameCore_dispose c).disposed] at hd'

theorem resilient_of_run {clientId : Bytes} {uuid : Uuid clientId} {es : List ClientEvent}
    (hconnect : .connect ∈ es)
    (hrun : Transition.run PipeClient.step (create clientId uuid) es = some c) : Resilient c := by
  obtain ⟨before, after, rfl, hbefore⟩ := List.eq_append_cons_of_mem hconnect
  obtain ⟨c₁, hrun₁, hrun⟩ := Transition.run_append.mp hrun
  obtain ⟨c₂, hstep, hrun₂⟩ := Transition.run_cons.mp hrun
  have horderly := orderly_of_run hrun₁
  have hunused : Unused c₁ := by
    refine Transition.run_along (I := Unused) (P := fun _ e => e ≠ .connect)
      (fun c e c' h he hs => h.step he hs) ⟨rfl, rfl, rfl, rfl, rfl, rfl⟩ ?_ hrun₁
    refine Transition.Along.of_forall fun e he => ?_
    rintro rfl
    exact hbefore he
  refine Transition.run_invariant (fun c e c' h hs => h.step hs) ⟨horderly.step hstep, ?_⟩ hrun₂
  obtain rfl := Option.some.inj hstep
  intro hd
  have hd₁ : c₁.disposed = false := by
    by_contra hd₁
    rw [connect_of_disposed (by simpa using hd₁)] at hd
    exact hd₁ hd
  exact .inl (held_connect (.inr hunused.socket) hd₁)

/-! ### Coming back -/

theorem opened_connected (hcur : c.socket = some k) (hk : c.sockets[k]? = some {})
    (hd : c.disposed = false) :
    ∃ c' s, c.step (.connected k) = some c' ∧ c'.socket = some k ∧ c'.sockets[k]? = some s ∧
      s.readyState = .opened ∧ s.written = [helloFrame c.clientId,
        stateFrame (incrementNumber c.sequence) c.latestStatus] := by
  have hstep : c.step (.connected k) = some ((c.updateSocket k emitConnect).handleConnected k) := by
    simp only [PipeClient.step, hk]
    rfl
  rw [hstep, handleConnected, if_neg (by simp [updateSocket, hcur, hd])]
  refine ⟨_, { readyState := .opened, connectEmitted := true, written := [helloFrame c.clientId,
    stateFrame (incrementNumber c.sequence) c.latestStatus] }, rfl, hcur, ?_, rfl, rfl⟩
  simp only [write, writeState, updateSocket, List.getElem?_modify_eq, hk]
  rfl

/-- The client is connected, and has greeted with its identity and reported its latest status
as that of `c`. -/
def Returned (c c' : PipeClient) : Prop :=
  ∃ k s, c'.socket = some k ∧ c'.sockets[k]? = some s ∧ s.readyState = .opened ∧
    s.written = [helloFrame c.clientId, stateFrame (incrementNumber c.sequence) c.latestStatus]

theorem Scheduled.returns (h : Scheduled c) (hd : c.disposed = false) :
    ∃ es c', (∀ e ∈ es, e.fromRuntime = true) ∧ Transition.run PipeClient.step c es = some c' ∧
      Returned c c' := by
  obtain ⟨hnone, handle, -, hmem⟩ := h
  have hstep : c.step (.reconnectFires handle) =
      some { c with
        timeouts := c.timeouts.erase handle
        sockets := c.sockets ++ [{}]
        socket := some c.sockets.length } := by
    simp only [PipeClient.step, if_pos hmem, PipeClient.connect, hd, hnone]
    rfl
  obtain ⟨c', s, hconnected, hcur, hs, ho, hwritten⟩ :=
    opened_connected (c := { c with
      timeouts := c.timeouts.erase handle
      sockets := c.sockets ++ [{}]
      socket := some c.sockets.length }) rfl (by simp) hd
  refine ⟨[.reconnectFires handle, .connected c.sockets.length], c',
    by simp [ClientEvent.fromRuntime], ?_, c.sockets.length, s, hcur, hs, ho, hwritten⟩
  exact Transition.run_cons.mpr ⟨_, hstep, Transition.run_cons.mpr ⟨c', hconnected, rfl⟩⟩

theorem Held.returns (h : Held c) (hd : c.disposed = false) :
    ∃ es c', (∀ e ∈ es, e.fromRuntime = true) ∧ Transition.run PipeClient.step c es = some c' ∧
      Returned c c' := by
  obtain ⟨k, s, hcur, hs, hclosed⟩ := h
  have hcore := sameCore_handleClosed (c := c.updateSocket k emitClose) hcur
  have hscheduled : Scheduled ((c.updateSocket k emitClose).handleClosed k) :=
    scheduled_handleClosed hcur hd
  have hstep : c.step (.closed k) = some ((c.updateSocket k emitClose).handleClosed k) := by
    simp only [PipeClient.step, hs, hclosed]
    rfl
  obtain ⟨es, c', hes, hrun, hreturned⟩ := hscheduled.returns (hcore.disposed.trans hd)
  refine ⟨.closed k :: es, c', List.forall_mem_cons.mpr ⟨rfl, hes⟩,
    Transition.run_cons.mpr ⟨_, hstep, hrun⟩, ?_⟩
  rwa [Returned, hcore.clientId, hcore.sequence, hcore.latestStatus] at hreturned

/-- Once `connect` has been called, and unless it is disposed, a client has not given up, and
the runtime alone can bring it back. -/
theorem persists_of_run {clientId : Bytes} {uuid : Uuid clientId} {es : List ClientEvent}
    (hconnect : .connect ∈ es)
    (hrun : Transition.run PipeClient.step (create clientId uuid) es = some c)
    (hd : c.disposed = false) :
    Persists c ∧ ∃ es' c', (∀ e ∈ es', e.fromRuntime = true) ∧
      Transition.run PipeClient.step c es' = some c' ∧ Returned c c' := by
  have hpersists := (resilient_of_run hconnect hrun).persists hd
  refine ⟨hpersists, ?_⟩
  rcases hpersists with hheld | hscheduled
  · exact hheld.returns hd
  · exact hscheduled.returns hd

def losing : List ClientEvent := [.publish .safe, .connect, .connected 0, .ended 0, .closed 0]

def lost : PipeClient :=
  (Transition.run PipeClient.step (create Built.zeroUuid Built.uuid_zeroUuid) losing).get
    (by decide +kernel)

theorem persists_lost : Persists lost ∧
    ∃ es' c', (∀ e ∈ es', e.fromRuntime = true) ∧
      Transition.run PipeClient.step lost es' = some c' ∧ Returned lost c' :=
  persists_of_run (by decide) (Option.some_get _).symm (by decide +kernel)

end PipeClient

end PrivacyGuard
