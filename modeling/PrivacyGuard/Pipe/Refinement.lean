import PrivacyGuard.Pipe.Shutdown

/-! # The threads refine the server

Until `stop` is called, every interleaving of the owner, the accept thread and the
connection threads is a run of the server, in which accepting a connection is one step.
-/

namespace PrivacyGuard

def ConnectionThread.entry (t : ConnectionThread) : ℕ × Worker := (t.connectionId, t.worker)

namespace Listener

variable {s s' : Listener} {l : Label}

/-- A connection that is opened while its thread has not started. -/
def pending (s : Listener) : List (ℕ × Worker) :=
  match s.acceptThread with
  | some (.sweep _ connectionId _ _) => [(connectionId, {})]
  | some (.spawn _ connectionId) => [(connectionId, {})]
  | _ => []

/-- The server that the threads make up. -/
def server (s : Listener) : Server where
  privacyState := s.privacyState
  workers := s.threads.map ConnectionThread.entry ++ s.pending
  log := s.log

/-- `stop` has not been called: threads run only where `running_` is true. -/
structure Unstopped (s : Listener) : Prop where
  controlled : Controlled s
  owner : s.owner = .idle ∨ s.owner = .launch
  threads : s.running = false → s.threads = []

theorem unstopped_init (timeout : ℤ) : Unstopped (init timeout) :=
  ⟨⟨rfl, rfl⟩, .inl rfl, fun _ => rfl⟩

theorem Unstopped.running_of_accept (h : Unstopped s) {point : AcceptPoint}
    (ha : s.acceptThread = some point) : s.running = true := by
  have hc := h.controlled
  rcases h.owner with ho | ho
  · by_contra hr
    simp [Controlled, ho, hr, ha] at hc
  · simp [Controlled, ho, ha] at hc

theorem Unstopped.running_of_thread (h : Unstopped s) {t : ℕ} {thread : ConnectionThread}
    (ht : s.threads[t]? = some thread) : s.running = true := by
  by_contra hr
  simp [h.threads (Bool.eq_false_iff.mpr hr)] at ht

theorem Unstopped.step (h : Unstopped s) (hstop : l ≠ .stop) (hs : Moves s l s') :
    Unstopped s' := by
  have howner := h.owner
  refine ⟨h.controlled.step hs, ?_, ?_⟩
  · cases hs with
    | start ho hr => exact .inr rfl
    | stopAgain | stop => exact absurd rfl hstop
    | launch ho ha => exact .inl rfl
    | wake ho | wakeAgain ho | wakeLast ho | joinAccept ho | cleared ho => simp [ho] at howner
    | _ => exact howner
  · cases hs with
    | start ho hr => simp
    | stopAgain | stop => exact absurd rfl hstop
    | spawn ha => simp [h.running_of_accept ha]
    | closes ht | works ht | finishes ht | exits ht | call ht =>
      intro hr
      simp [Listener.update, Listener.perform, h.running_of_thread ht] at hr
    | _ => exact h.threads

/-! ### One step -/

section Threads

variable {t : ℕ} {thread : ConnectionThread}

theorem server_lookup (ht : s.threads[t]? = some thread) :
    s.server.workers[t]? = some thread.entry := by
  have hlt : t < (s.threads.map ConnectionThread.entry).length := by
    rw [List.length_map]
    exact (List.getElem?_eq_some_iff.mp ht).1
  rw [server, List.getElem?_append_left hlt, List.getElem?_map, ht, Option.map_some]

theorem server_update (ht : s.threads[t]? = some thread) (thread' : ConnectionThread) :
    (s.update t thread').server =
      { s.server with workers := s.server.workers.set t thread'.entry } := by
  have hlt : t < (s.threads.map ConnectionThread.entry).length := by
    rw [List.length_map]
    exact (List.getElem?_eq_some_iff.mp ht).1
  simp only [server, Listener.update, List.map_set, List.set_append_left t _ hlt]
  rfl

/-- A thread that has its worker behind it is not seen. -/
theorem server_update_same (ht : s.threads[t]? = some thread) {thread' : ConnectionThread}
    (hentry : thread'.entry = thread.entry) : (s.update t thread').server = s.server := by
  have hself : s.server.workers.set t thread.entry = s.server.workers := by
    obtain ⟨hlt, hget⟩ := List.getElem?_eq_some_iff.mp (server_lookup ht)
    rw [← hget, List.set_getElem_self]
  rw [server_update ht, hentry, hself]

theorem server_move (ht : s.threads[t]? = some thread) {input : Input} {worker : Worker}
    (hw : thread.worker.step input = some worker) :
    s.server.move t input = some (s.update t { thread with worker }).server := by
  rw [Server.move, server_lookup ht, server_update ht]
  simp only [ConnectionThread.entry, hw, Option.map_some]

end Threads

inductive Serves : Label → Server.Label → Prop
  | opened (now : ℤ) : Serves (.opened now) (.accept now)
  | proceed (t : ℕ) (running : Bool) : Serves (.thread t (.proceed running)) (.proceed t)
  | nothing (t : ℕ) : Serves (.thread t .nothing) (.nothing t)
  | bytes (t : ℕ) (chunk : Bytes) : Serves (.thread t (.bytes chunk)) (.bytes t chunk)
  | ended (t : ℕ) : Serves (.thread t .ended) (.ended t)
  | call (t : ℕ) (now : ℤ) : Serves (.call t now) (.call t now)
  | tick (now : ℤ) : Serves (.tick now) (.tick now)
  | setEnabled (enabled : Bool) : Serves (.setEnabled enabled) (.setEnabled enabled)

theorem Serves.opens_eq {l' : Server.Label} (h : Serves l l') : l'.opens = l.opens := by
  cases h <;> rfl

theorem Serves.ne_stop {l' : Server.Label} (h : Serves l l') : l' ≠ .stop := by
  rintro rfl
  cases h

theorem server_step (h : Unstopped s) (hstop : l ≠ .stop) (hs : Moves s l s') :
    (s'.server = s.server ∧ l.opens = 0) ∨
      ∃ l', Serves l l' ∧ s.server.step l' = some s'.server := by
  have howner := h.owner
  cases hs with
  | startAgain | start => exact .inl ⟨rfl, rfl⟩
  | stopAgain | stop => exact absurd rfl hstop
  | wake ho | wakeAgain ho | wakeLast ho | joinAccept ho | joinWorker ho | cleared ho =>
    simp [ho] at howner
  | launch ho ha => exact .inl ⟨by simp [server, pending, ha], rfl⟩
  | client ha => exact .inl ⟨by simp [server, pending, ha], rfl⟩
  | loop ha => exact .inl ⟨by simp [server, pending, ha, h.running_of_accept ha], rfl⟩
  | check ha => exact .inl ⟨by simp [server, pending, ha, h.running_of_accept ha], rfl⟩
  | sleep ha | failed ha | refuse ha | test ha | swept ha | create ha | createFails ha
  | connect ha | connectFails ha | join ha => exact .inl ⟨by simp [server, pending, ha], rfl⟩
  | spawn ha => exact .inl ⟨by simp [server, pending, ha, ConnectionThread.entry], rfl⟩
  | opened ha now =>
    refine .inr ⟨.accept now, .opened now, ?_⟩
    simp [Server.step, server, pending, ha, Server.perform, Listener.perform]
  | closes ht hphase hpoint => exact .inl ⟨server_update_same ht rfl, rfl⟩
  | finishes ht hphase => exact .inl ⟨server_update_same ht rfl, rfl⟩
  | exits ht hphase => exact .inl ⟨server_update_same ht rfl, rfl⟩
  | @works t thread input worker ht hphase hpoint hfound hw =>
    have hmove := server_move ht hw
    right
    cases input with
    | proceed running =>
      have hrunning : running = true := by
        simpa [found, h.running_of_thread ht] using hfound
      subst hrunning
      exact ⟨.proceed t, .proceed t true, hmove⟩
    | nothing => exact ⟨.nothing t, .nothing t, hmove⟩
    | bytes chunk => exact ⟨.bytes t chunk, .bytes t chunk, hmove⟩
    | ended => exact ⟨.ended t, .ended t, hmove⟩
    | reply accepted => cases hfound
  | @call t thread call worker now ht hphase hcall hw =>
    refine .inr ⟨.call t now, .call t now, ?_⟩
    have hmove := server_move (s := s.perform (call.op thread.connectionId now)) ht hw
    simp only [Server.step, server_lookup ht, ConnectionThread.entry, hcall]
    exact hmove
  | tick now => exact .inr ⟨.tick now, .tick now, rfl⟩
  | setEnabled enabled => exact .inr ⟨.setEnabled enabled, .setEnabled enabled, rfl⟩

/-! ### Runs -/

theorem exists_server_run {timeout : ℤ} {labels : List Label} (hstop : .stop ∉ labels)
    (hrun : Transition.run Listener.step (init timeout) labels = some s) :
    ∃ labels' : List Server.Label, (∀ l' ∈ labels', l' ≠ .stop) ∧
      (labels'.map Server.Label.opens).sum = (labels.map Label.opens).sum ∧
      Transition.run Server.step (.start timeout) labels' = some s.server := by
  have hadmitted : ∀ l ∈ labels, l ≠ .stop := by
    rintro l hl rfl
    exact hstop hl
  refine Transition.exists_run_of_simulation server Label.opens Server.Label.opens ?_
    (unstopped_init timeout) hadmitted hrun
  intro s l t h hl hs
  refine ⟨h.step hl (moves_of_step hs), ?_⟩
  rcases server_step h hl (moves_of_step hs) with hsame | ⟨l', hserves, hstep⟩
  · exact .inl hsame
  · exact .inr ⟨l', hserves.ne_stop, hserves.opens_eq, hstep⟩

/-- The server makes the same calls in the same order, and serves the same connections. -/
theorem server_of_run {timeout : ℤ} {labels : List Label} (hstop : .stop ∉ labels)
    (hrun : Transition.run Listener.step (init timeout) labels = some s) :
    ∃ labels' : List Server.Label, .stop ∉ labels' ∧
      (labels'.map Server.Label.opens).sum = (labels.map Label.opens).sum ∧
      Transition.run Server.step (.start timeout) labels' = some s.server := by
  obtain ⟨labels', hadmitted, hsum, hrun'⟩ := exists_server_run hstop hrun
  exact ⟨labels', fun hmem => hadmitted _ hmem rfl, hsum, hrun'⟩

theorem server_accepted : accepted.threads.length = 1 ∧ accepted.server.workers.length = 2 ∧
    ∃ labels : List Server.Label, .stop ∉ labels ∧
      (labels.map Server.Label.opens).sum = (accepting.map Label.opens).sum ∧
      Transition.run Server.step (.start 1500) labels = some accepted.server :=
  ⟨by decide +kernel, by decide +kernel, server_of_run (by decide) (Option.some_get _).symm⟩

structure Retired (s : Listener) : Prop where
  ends : ∀ id, s.server.EndsOnce id
  /-- A pipe is closed behind the last call for its client, which is gone by then. -/
  absent : ∀ thread ∈ s.threads, thread.phase ≠ .serving →
    s.privacyState.clients.lookup thread.connectionId = none

theorem retired_of_run {timeout : ℤ} {labels : List Label} (hstop : .stop ∉ labels)
    (hn : (labels.map Label.opens).sum < wordSize)
    (hrun : Transition.run Listener.step (init timeout) labels = some s) : Retired s := by
  obtain ⟨labels', hadmitted, hsum, hrun'⟩ := exists_server_run hstop hrun
  have hserver : Server.Sound (0 + (labels'.map Server.Label.opens).sum) s.server :=
    Transition.run_weighted (fun n s l t h hl hn hs => h.step hl hn hs) (Server.sound_start timeout)
      hadmitted (by omega) hrun'
  have hends := hserver.endsOnce
  refine ⟨hends, fun thread hmem hphase => ?_⟩
  obtain ⟨t, ht⟩ := List.getElem?_of_mem hmem
  have hentry : thread.entry ∈ s.server.workers :=
    List.mem_append_left _ (List.mem_map_of_mem hmem)
  exact (hends thread.connectionId).returned thread.worker hentry
    (((run_sound hrun).placed t thread ht).2 hphase)

theorem retired_accepted : accepted.closed = [0] ∧ Retired accepted :=
  ⟨by decide +kernel, retired_of_run (by decide) (by decide) (Option.some_get _).symm⟩

end Listener

end PrivacyGuard
