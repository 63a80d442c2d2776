import PrivacyGuard.System.Liveness

/-! # A reported file is covered

What a window has reported reaches the privacy state after a bounded number of steps of its
connection thread, however the others are scheduled. Where the thread has no step left, the
next tick callback covers the output if the window shows a matching file.
-/

namespace PrivacyGuard

open Utf16

theorem System.blocked_of_waiting {s : System} {slot id : ℕ} {channel : Channel} {w : Worker}
    (hchannel : s.channels[slot]? = some channel)
    (hworker : s.server.workers[slot]? = some (id, w)) (hp : w.point = .read)
    (hunread : s.unread channel = []) : s.Blocked slot := by
  intro label hown
  rw [Option.eq_none_iff_forall_ne_some]
  intro t hs
  cases System.moves_of_step hs with
  | @read _ _ _ _ w₁ _ hchannel' hworker' hstep =>
    obtain rfl : _ = slot := by simpa [Label.own] using hown
    obtain rfl := Option.some.inj (hchannel.symm.trans hchannel')
    rw [hunread, List.take_nil] at hstep
    cases Worker.moves_of_step hstep with
    | bytes hp hne hlen => exact hne rfl
  | worker hlocal hworker' hstep =>
    cases hlocal with
    | proceed =>
      obtain rfl : _ = slot := by simpa [Label.own] using hown
      obtain ⟨rfl, rfl⟩ := Prod.mk.inj (Option.some.inj (hworker.symm.trans hworker'))
      simp [Worker.step, hp] at hstep
    | nothing | ended => simp [Label.own] at hown
  | call hworker' hcall now hstep =>
    obtain rfl : _ = slot := by simpa [Label.own] using hown
    obtain ⟨rfl, rfl⟩ := Prod.mk.inj (Option.some.inj (hworker.symm.trans hworker'))
    simp [Worker.call, hp] at hcall
  | _ => simp [Label.own] at hown

namespace Broadcast

variable {d : CaseData} {b₀ b b' : Broadcast} {n m slot : ℕ}

def Label.own (slot : ℕ) : Label → Bool
  | .system label => label.own slot
  | _ => false

def Label.polls (slot : ℕ) : Label → Bool
  | .system label => label.polls slot
  | _ => false

def Label.stops : Label → Bool
  | .system (.server .stop) => true
  | _ => false

structure Serving (d : CaseData) (n : ℕ) (b : Broadcast) : Prop where
  linked : Linked d n b
  server : b.server.Sound n

theorem Serving.system (h : Serving d n b) : b.system.Serving n := ⟨h.linked.system, h.server⟩

theorem Serving.step (h : Serving d n b) {label : Label} (hstop : label.stops = false)
    (hn : n + label.opens < wordSize) (hs : b.step d label = some b') :
    Serving d (n + label.opens) b' where
  linked := h.linked.step hn hs
  server := by
    cases moves_of_step hs with
    | system hl ht =>
      refine (h.system.step ?_ hn ht).server
      rintro rfl
      cases hstop
    | tick hp now => exact h.server.perform (.tick now) hn
    | _ => exact h.server

theorem Serving.turns (h : Serving d n b) (hslot : slot < n) {label : Label}
    (hs : b.step d label = some b') :
    System.Turns b.system b'.system slot (label.own slot) (label.polls slot) := by
  cases moves_of_step hs with
  | system hl ht =>
    rw [system_of_ofPlugin hl ht]
    exact h.system.turns hslot ht
  | _ => exact .elsewhere rfl rfl rfl

/-- The connection of the thread is that of an open socket of a window that has heard its
events. -/
structure Attached (b : Broadcast) (slot : ℕ) (w : Window) : Prop where
  exists_socket : ∃ (channel : Channel) (id : ℕ) (worker : Worker) (socket : Socket)
    (client : Client), b.channels[slot]? = some channel ∧
      b.server.workers[slot]? = some (id, worker) ∧ b.windows[channel.client]? = some w ∧
      w.client.sockets[channel.socket]? = some socket ∧ socket.readyState = .opened ∧
      b.server.privacyState.clients.lookup id = some client
  listening : w.listening = true
  editors : w.editorsPending = false
  configuration : w.configurationPending = false

theorem blocked_of_waiting {channel : Channel} {id : ℕ} {worker : Worker}
    (hchannel : b.channels[slot]? = some channel)
    (hworker : b.server.workers[slot]? = some (id, worker)) (hp : worker.point = .read)
    (hunread : b.system.unread channel = []) : b.system.Blocked slot :=
  System.blocked_of_waiting hchannel hworker hp hunread

theorem Attached.reporting {w : Window} (h : b.Attached slot w)
    (hdelivered : b.system.Delivered slot) : b.Reporting w := by
  obtain ⟨channel, id, worker, socket, client, hchannel, hworker, hw, hsocket, hopened, hl⟩ :=
    h.exists_socket
  have hmem : id ∈ b.server.privacyState.clients := AList.lookup_isSome.mp (by simp [hl])
  obtain ⟨hunread, hpending⟩ := hdelivered channel id worker hchannel hworker hmem
  have hclient : b.system.clients[channel.client]? = some w.client := by simp [system, hw]
  exact ⟨List.mem_of_getElem? hw, ⟨client, ⟨slot, channel, id, worker, socket, hchannel, hworker,
    hclient, hsocket, hl, hopened, hunread, hpending⟩⟩, h.listening, h.editors, h.configuration⟩

theorem serving_of_run {timeout : ℤ} {clientIds : List { clientId : Bytes // Uuid clientId }}
    {watermarkAvailable : Bool} {labels : List Label}
    (hstop : ∀ label ∈ labels, label.stops = false)
    (hn : (labels.map Label.opens).sum < wordSize)
    (hrun : Transition.run (step d) (start timeout clientIds watermarkAvailable) labels = some b) :
    Serving d (labels.map Label.opens).sum b := by
  have h : Serving d (0 + (labels.map Label.opens).sum) b :=
    Transition.run_weighted (fun n b l b' h hl hn hs => h.step hl hn hs)
      ⟨linked_start timeout clientIds watermarkAvailable, Server.sound_start timeout⟩ hstop
      (by rwa [Nat.zero_add]) hrun
  rwa [Nat.zero_add] at h

/-- However the windows, the threads, the callback and OBS are scheduled, a connection thread
takes a bounded number of steps for what its window has written; where it has no step left, the
next callback covers the output if the window shows a matching file or is disabled. -/
theorem reacts_of_run {timeout : ℤ} {clientIds : List { clientId : Bytes // Uuid clientId }}
    {watermarkAvailable : Bool} {earlier later : List Label}
    (hstop : ∀ label ∈ earlier ++ later, label.stops = false)
    (hn : ((earlier ++ later).map Label.opens).sum < wordSize)
    (hm : ((earlier ++ later).map Label.requests).sum + 1 < wordSize)
    (hearlier : Transition.run (step d) (start timeout clientIds watermarkAvailable) earlier =
      some b₀)
    (hlater : Transition.run (step d) b₀ later = some b) (hslot : slot < b₀.channels.length) :
    later.countP (Label.own slot) + b.system.owes slot + 7 * b₀.system.carried slot ≤
        b₀.system.owes slot + 7 * b.system.carried slot + later.countP (Label.polls slot) ∧
      (b.system.Blocked slot → b.server.privacyState.enabled = true →
        ∀ w configuredRules, b.Attached slot w →
          w.configuration.getRules = .array configuredRules → ¬ Clear d w configuredRules →
            ∀ now b', Transition.run (step d) b (callback now) = some b' →
              b'.display.controller.Covers b'.server.privacyState.mode) := by
  have hrun := Transition.run_append.mpr ⟨b₀, hearlier, hlater⟩
  obtain ⟨hfirst, hthen⟩ := List.forall_mem_append.mp hstop
  have hserving := serving_of_run hstop hn hrun
  constructor
  · rw [List.map_append, List.sum_append] at hn
    have h := serving_of_run hfirst (by omega) hearlier
    have hchannels : b₀.channels.length = (earlier.map Label.opens).sum := h.linked.system.channels
    rw [hchannels] at hslot
    exact Transition.countP_le_of_weighted (I := fun k b => slot < k ∧ Serving d k b)
      (fun k b l b' hk hl hn hs =>
        have hnext := hk.2.step hl hn hs
        ⟨⟨by omega, hnext⟩,
          hk.2.system.owes_turn hnext.system hk.1 (by omega) (hk.2.turns hk.1 hs)⟩)
      ⟨hslot, h⟩ hthen hn hlater
  · intro hblocked henabled w configuredRules hw hrules hclear now b' hcallback
    have hsound : Sound d (((earlier ++ later) ++ callback now).map Label.opens).sum
        (((earlier ++ later) ++ callback now).map Label.requests).sum b' := by
      refine run_sound ?_ ?_ (Transition.run_append.mpr ⟨b, hrun, hcallback⟩)
      · simpa [callback, Label.opens] using hn
      · simpa [callback, Label.requests, Nat.add_assoc] using hm
    exact (forwarded_of_callback hcallback).covers hserving.linked hn hsound henabled
      (hw.reporting (hserving.system.delivered hblocked)) hrules hclear

def shown : Broadcast :=
  (Transition.run (step greek) (start 2000 oneWindow true) (streaming ++ secret.take 2)).get
    (by decide +kernel)

def hearing : List Label := secret.drop 2 ++ [.system (.server (.proceed 0))]

def heard : Broadcast :=
  (Transition.run (step greek) shown hearing).get (by decide +kernel)

theorem exists_attached_heard : ∃ w configuredRules, heard.Attached 0 w ∧
    w.configuration.getRules = .array configuredRules ∧ ¬ Clear greek w configuredRules ∧
      heard.system.Blocked 0 := by
  -- The run is evaluated once, for all that is read off its last state.
  obtain ⟨honly, w, hmem, ⟨channel, -, worker, -, socket, -, hchannel, hworker, hfirst, hsocket,
      hopened, hl, hpoint, hunread⟩, hlistening, heditors, hconfiguration, hmatches⟩ :
      heard.windows.length = 1 ∧ ∃ w ∈ heard.windows, (∃ channel ∈ heard.channels,
        ∃ worker ∈ heard.server.workers, ∃ socket ∈ w.client.sockets,
          heard.channels[0]? = some channel ∧ heard.server.workers[0]? = some (1, worker.2) ∧
          channel.client = 0 ∧ w.client.sockets[channel.socket]? = some socket ∧
          socket.readyState = .opened ∧
          (heard.server.privacyState.clients.lookup 1).isSome = true ∧
          worker.2.point = .read ∧ heard.system.unread channel = []) ∧
        w.listening = true ∧ w.editorsPending = false ∧ w.configurationPending = false ∧
        (match w.configuration.getRules with
          | .array rules =>
            w.visibleTextEditors.any fun path => matchesFile greek path (filterRules rules)
          | .other => false) = true := by
    decide +kernel
  obtain ⟨client, hclient⟩ := Option.isSome_iff_exists.mp hl
  obtain ⟨only, hwindows⟩ := List.length_eq_one_iff.mp honly
  obtain rfl : w = only := by simpa [hwindows] using hmem
  have hw : heard.windows[channel.client]? = some w := by simp [hwindows, hfirst]
  cases hrules : w.configuration.getRules with
  | other => simp [hrules] at hmatches
  | array configuredRules =>
    rw [hrules] at hmatches
    obtain ⟨path, hpath, hmatch⟩ := List.any_eq_true.mp hmatches
    refine ⟨w, configuredRules, ⟨⟨channel, 1, worker.2, socket, client, hchannel, hworker, hw,
      hsocket, hopened, hclient⟩, hlistening, heditors, hconfiguration⟩, hrules, fun hclear => ?_,
      blocked_of_waiting hchannel hworker hpoint hunread⟩
    simp [hclear.2 path hpath] at hmatch

theorem reacts_heard : ∃ b, Transition.run (step greek) heard (callback 50) = some b ∧
    b.display.controller.Covers b.server.privacyState.mode ∧
    hearing.countP (Label.own 0) + heard.system.owes 0 + 7 * shown.system.carried 0 ≤
      shown.system.owes 0 + 7 * heard.system.carried 0 + hearing.countP (Label.polls 0) := by
  obtain ⟨w, configuredRules, hw, hrules, hclear, hblocked⟩ := exists_attached_heard
  have hreported : Transition.run (step greek) (start 2000 oneWindow true)
      (streaming ++ secret.take 2) = some shown := (Option.some_get _).symm
  have hheard : Transition.run (step greek) shown hearing = some heard :=
    (Option.some_get _).symm
  have hstop : ∀ label ∈ (streaming ++ secret.take 2) ++ hearing, label.stops = false := by decide
  obtain ⟨hpaid, hcovers⟩ := reacts_of_run hstop (by decide) (by decide) hreported hheard
    (show 0 < shown.channels.length by decide +kernel)
  exact ⟨(Transition.run (step greek) heard (callback 50)).get (by decide +kernel),
    (Option.some_get _).symm,
    hcovers hblocked (by decide +kernel) w configuredRules hw hrules hclear 50 _
      (Option.some_get _).symm, hpaid⟩

end Broadcast

end PrivacyGuard
