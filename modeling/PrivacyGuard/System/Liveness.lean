import PrivacyGuard.System.Calls

/-! # Reports arrive

A connection thread is never stuck with bytes it has been sent. Its steps are paid for by the
bytes that it has to read and apply, whatever the other threads do, and where it has no step
left, everything that its client has written is applied or its connection is gone.
-/

namespace PrivacyGuard

/-! ### Work left -/

/-- The steps to the next test of the read loop, or to the end. -/
def Point.rank : Point → ℕ
  | .returned => 0
  | .close => 1
  | .cleanup => 2
  | .read => 3
  | .loop => 4
  | .fail => 5
  | .apply _ _ => 6
  | .scan => 7

namespace Worker

variable {w w' : Worker}

def work (w : Worker) : ℕ := 2 * w.pending.length + w.point.rank

theorem work_scanPending (hp : w.point = .scan) : w.scanPending.work < w.work := by
  unfold scanPending
  split
  case h_1 => split <;> simp [work, hp, Point.rank]
  case h_2 => split <;> simp [work, hp, Point.rank]

theorem work_applied (h : w.Placed) {frame : Frame} {position : ℕ}
    (hp : w.point = .apply frame position) (result : FrameResult) :
    (w.applied position result).work < w.work := by
  have hposition : position < w.pending.length := by
    have hat := h.2
    rw [hp] at hat
    exact (List.idxOf?_eq_some_iff.mp hat.2.1).1
  cases result with
  | invalid => simp [applied, work, hp, Point.rank]
  | continues =>
    simp only [applied, work, hp, Point.rank, List.length_drop]
    omega
  | goodbye =>
    simp only [applied, work, hp, Point.rank, List.length_drop]
    omega

theorem work_nothing (hs : w.step .nothing = some w') : w'.work ≤ w.work + 1 := by
  cases moves_of_step hs with
  | nothing hp => simp [work, hp, Point.rank]

/-- A step is work done, unless it reads or waits. -/
theorem work_step (h : w.Placed) {input : Input} (hs : w.step input = some w')
    (hnothing : input ≠ .nothing) (hbytes : ∀ chunk, input ≠ .bytes chunk) :
    w'.work + 1 ≤ w.work := by
  cases moves_of_step hs with
  | loop hp running =>
    simp only [work, hp]
    split <;> simp [Point.rank]
  | scan hp running => exact work_scanPending hp
  | cleanup hp running =>
    simp only [work, hp]
    split <;> simp [Point.rank]
  | nothing hp => exact absurd rfl hnothing
  | bytes hp hne hlen => exact absurd rfl (hbytes _)
  | ended hp => simp [work, hp, Point.rank]
  | @apply frame position hp accepted => exact work_applied h hp (applyFrame frame accepted)
  | fail hp accepted => simp [work, hp, Point.rank]
  | close hp accepted => simp [work, hp, Point.rank]

theorem work_read {chunk : Bytes} (hs : w.step (.bytes chunk) = some w') :
    w'.work + 1 ≤ w.work + 7 * chunk.length := by
  cases moves_of_step hs with
  | bytes hp hne hlen =>
    have := List.length_pos_of_ne_nil hne
    simp only [work, hp, Point.rank, List.length_append]
    omega

theorem step_reply_ne_none {call : Call} (hcall : w.call = some call) (accepted : Bool) :
    w.step (.reply accepted) ≠ none := by
  cases hp : w.point <;> simp [Worker.call, hp] at hcall <;> simp [step, hp]

theorem waiting_cases (hproceed : w.step (.proceed true) = none) (hcall : w.call = none) :
    w.point = .read ∨ w.point = .returned := by
  cases hp : w.point <;> simp [step, call, hp] at hproceed hcall ⊢

end Worker

namespace System

open PrivacyState (Counted)

variable {n m id slot : ℕ} {s t : System} {channel : Channel} {w : Worker}

def carried (s : System) (slot : ℕ) : ℕ :=
  match s.channels[slot]? with
  | some channel => (written s.clients channel).flatten.length
  | none => 0

/-- What a connection thread still has to do for the bytes that its client has written. -/
def owes (s : System) (slot : ℕ) : ℕ :=
  match s.channels[slot]?, s.server.workers[slot]? with
  | some channel, some (_, w) => 7 * (s.unread channel).length + w.work
  | _, _ => 0

/-- A step of the connection thread, whose pipe stays up and has bytes for it if it reads. -/
def Label.own (slot : ℕ) : Label → Bool
  | .read t _ => decide (t = slot)
  | .server (.proceed t) => decide (t = slot)
  | .server (.call t _) => decide (t = slot)
  | _ => false

/-- The thread peeks at its pipe in vain. -/
def Label.polls (slot : ℕ) : Label → Bool
  | .server (.nothing t) => decide (t = slot)
  | _ => false

/-- What a step does to one connection, whose thread takes it or peeks in vain or does neither. -/
inductive Turns (s t : System) (slot : ℕ) (own polls : Bool) : Prop
  | elsewhere (hown : own = false)
      (hchannel : t.channels[slot]? = s.channels[slot]?)
      (hworker : t.server.workers[slot]? = s.server.workers[slot]?)
  | goes {id : ℕ} {w w' : Worker} {input : Input} (hworker : s.server.workers[slot]? = some (id, w))
      (hstep : w.step input = some w') (hbytes : ∀ chunk, input ≠ .bytes chunk)
      (hnothing : input = .nothing → own = false ∧ polls = true)
      (hclients : t.clients = s.clients) (hchannel : t.channels[slot]? = s.channels[slot]?)
      (hworker' : t.server.workers[slot]? = some (id, w'))
  | reads {channel : Channel} {id : ℕ} {w w' : Worker} {length : ℕ}
      (hchannel : s.channels[slot]? = some channel)
      (hworker : s.server.workers[slot]? = some (id, w))
      (hstep : w.step (.bytes ((s.unread channel).take length)) = some w')
      (hclients : t.clients = s.clients)
      (hchannel' : t.channels[slot]? = some { channel with
        delivered := channel.delivered + ((s.unread channel).take length).length })
      (hworker' : t.server.workers[slot]? = some (id, w'))

theorem turns_of_worker {mover : ℕ} {input : Input} {w w' : Worker} {label : Label}
    (hworker : s.server.workers[mover]? = some (id, w)) (hstep : w.step input = some w')
    (hbytes : ∀ chunk, input ≠ .bytes chunk)
    (hown : mover ≠ slot → label.own slot = false)
    (hnothing : input = .nothing → label.own mover = false ∧ label.polls mover = true)
    (hclients : t.clients = s.clients) (hchannels : t.channels = s.channels)
    (hworkers : t.server.workers = s.server.workers.set mover (id, w')) :
    Turns s t slot (label.own slot) (label.polls slot) := by
  by_cases hmover : mover = slot
  · subst hmover
    refine .goes hworker hstep hbytes hnothing hclients (by rw [hchannels]) ?_
    rw [hworkers]
    exact List.getElem?_set_self (List.getElem?_eq_some_iff.mp hworker).1
  · refine .elsewhere (hown hmover) (by rw [hchannels]) ?_
    rw [hworkers]
    exact List.getElem?_set_ne hmover

theorem turns_of_step {label : Label} (hchannels : slot < s.channels.length)
    (hworkers : slot < s.server.workers.length) (hs : s.step label = some t) :
    Turns s t slot (label.own slot) (label.polls slot) := by
  cases moves_of_step hs with
  | client hc hstep => exact .elsewhere rfl rfl rfl
  | accept hc hk now =>
    exact .elsewhere rfl (List.getElem?_append_left hchannels) (List.getElem?_append_left hworkers)
  | @read reader length id channel w w' hchannel hworker hstep =>
    by_cases hreader : reader = slot
    · subst hreader
      exact .reads hchannel hworker hstep rfl (List.getElem?_set_self hchannels)
        (List.getElem?_set_self hworkers)
    · exact .elsewhere (by simp [Label.own, hreader]) (List.getElem?_set_ne hreader)
        (List.getElem?_set_ne hreader)
  | worker hlocal hworker hstep =>
    refine turns_of_worker hworker hstep ?_ ?_ ?_ rfl rfl rfl
    all_goals cases hlocal <;> simp [Label.own, Label.polls]
  | call hworker hcall now hstep =>
    exact turns_of_worker hworker hstep (by simp) (by simp [Label.own]) (by simp) rfl rfl rfl
  | tick now | setEnabled enabled | stop => exact .elsewhere rfl rfl rfl

/-! ### Every step is paid for -/

structure Serving (n : ℕ) (s : System) : Prop where
  sound : Sound n s
  server : s.server.Sound n

theorem Serving.step (h : Serving n s) {label : Label} (hstop : label ≠ .server .stop)
    (hn : n + label.opens < wordSize) (hs : s.step label = some t) :
    Serving (n + label.opens) t where
  sound := h.sound.step hn hs
  server := by
    rcases server_step hs with hsame | ⟨l, hopens, -, hl, hserver⟩
    · have hlength := (h.sound.step hn hs).workers
      rw [hsame, h.sound.workers] at hlength
      rw [hsame, ← hlength]
      exact h.server
    · rw [← hopens] at hn ⊢
      exact h.server.step (fun he => hstop (he ▸ hl he)) hn hserver

theorem carried_eq (hchannel : s.channels[slot]? = some channel) :
    s.carried slot = (written s.clients channel).flatten.length := by
  simp [carried, hchannel]

theorem owes_eq (hchannel : s.channels[slot]? = some channel)
    (hworker : s.server.workers[slot]? = some (id, w)) :
    s.owes slot = 7 * (s.unread channel).length + w.work := by
  simp [owes, hchannel, hworker]

theorem Serving.exists_connection (h : Serving n s) (hslot : slot < n) :
    ∃ channel id w, s.channels[slot]? = some channel ∧
      s.server.workers[slot]? = some (id, w) ∧ w.Placed ∧
      (s.unread channel).length + channel.delivered = s.carried slot := by
  have hchannel := List.getElem?_eq_getElem (h.sound.channels ▸ hslot)
  have hworker := List.getElem?_eq_getElem (h.sound.workers ▸ hslot)
  have hattended := h.server.workers _ (List.mem_of_getElem? hworker)
  refine ⟨_, _, _, hchannel, hworker, hattended.placed, ?_⟩
  have hdelivered := (h.sound.served _ _ _ _ hchannel hworker).delivered_le
  rw [carried_eq hchannel, unread, List.length_drop]
  omega

/-- What the thread owes grows by what its client writes and by peeks in vain only, and
every step of its own lowers it. -/
theorem Serving.owes_turn (h : Serving n s) (ht : Serving m t) (hslot : slot < n) (hm : n ≤ m)
    {own polls : Bool} (hturns : Turns s t slot own polls) :
    t.owes slot + 7 * s.carried slot + (if own then 1 else 0) ≤
      s.owes slot + 7 * t.carried slot + (if polls then 1 else 0) := by
  obtain ⟨channel, id, w, hchannel, hworker, hplaced, hunread⟩ := h.exists_connection hslot
  obtain ⟨channel', id', w', hchannel', hworker', -, hunread'⟩ :=
    ht.exists_connection (hslot.trans_le hm)
  rw [owes_eq hchannel hworker, owes_eq hchannel' hworker']
  cases hturns with
  | elsewhere hown hc hw =>
    obtain rfl := Option.some.inj (hchannel'.symm.trans (hc.trans hchannel))
    obtain ⟨rfl, rfl⟩ := Prod.mk.inj (Option.some.inj (hworker'.symm.trans (hw.trans hworker)))
    simp only [hown, Bool.false_eq_true, if_false]
    omega
  | @goes _ w₁ w₁' input hw hstep hbytes hnothing hclients hc hw' =>
    obtain rfl := Option.some.inj (hchannel'.symm.trans (hc.trans hchannel))
    obtain ⟨rfl, rfl⟩ := Prod.mk.inj (Option.some.inj (hworker.symm.trans hw))
    obtain ⟨rfl, rfl⟩ := Prod.mk.inj (Option.some.inj (hworker'.symm.trans hw'))
    by_cases hinput : input = .nothing
    · subst hinput
      have := Worker.work_nothing hstep
      simp only [hnothing rfl, Bool.false_eq_true, if_false, if_true]
      omega
    · have := Worker.work_step hplaced hstep hinput hbytes
      split <;> omega
  | reads hc hw hstep hclients hc' hw' =>
    obtain rfl := Option.some.inj (hchannel.symm.trans hc)
    obtain ⟨rfl, rfl⟩ := Prod.mk.inj (Option.some.inj (hworker.symm.trans hw))
    obtain rfl := Option.some.inj (hchannel'.symm.trans hc')
    obtain ⟨rfl, rfl⟩ := Prod.mk.inj (Option.some.inj (hworker'.symm.trans hw'))
    have := Worker.work_read hstep
    have hcarried : t.carried slot = s.carried slot := by
      rw [carried_eq hchannel', carried_eq hchannel, hclients]
      rfl
    simp only at hunread'
    split <;> omega

theorem Serving.turns (h : Serving n s) (hslot : slot < n) {label : Label}
    (hs : s.step label = some t) : Turns s t slot (label.own slot) (label.polls slot) :=
  turns_of_step (h.sound.channels ▸ hslot) (h.sound.workers ▸ hslot) hs

theorem Serving.carried_of_own (h : Serving n s) (hslot : slot < n) {label : Label}
    (hown : label.own slot = true) (hs : s.step label = some t) :
    t.carried slot = s.carried slot := by
  cases h.turns hslot hs with
  | elsewhere hnot => rw [hown] at hnot; cases hnot
  | goes hworker hstep hbytes hnothing hclients hchannel => simp only [carried, hchannel, hclients]
  | reads hchannel hworker hstep hclients hchannel' =>
    rw [carried_eq hchannel', carried_eq hchannel, hclients]
    rfl

/-! ### Where no step is left -/

/-- No step of the thread is possible. -/
def Blocked (s : System) (slot : ℕ) : Prop :=
  ∀ label, Label.own slot label = true → s.step label = none

/-- Everything that the client of a live connection has written is read and applied. -/
def Delivered (s : System) (slot : ℕ) : Prop :=
  ∀ channel id w, s.channels[slot]? = some channel → s.server.workers[slot]? = some (id, w) →
    id ∈ s.server.privacyState.clients → s.unread channel = [] ∧ w.pending = []

theorem Serving.delivered (h : Serving n s) (hblocked : s.Blocked slot) : s.Delivered slot := by
  intro channel id w hchannel hworker hlive
  have hattended := h.server.workers _ (List.mem_of_getElem? hworker)
  have hproceed : w.step (.proceed true) = none := by
    have hnone := hblocked (.server (.proceed slot)) (by simp [Label.own])
    simpa [System.step, Server.step, Server.move, hworker, h.server.running] using hnone
  have hcall : w.call = none := by
    cases hcall : w.call with
    | none => rfl
    | some call =>
      have hnone := hblocked (.server (.call slot 0)) (by simp [Label.own])
      simp only [System.step, Server.step, Server.move, Server.perform, hworker, hcall,
        Option.map_eq_none_iff] at hnone
      exact absurd hnone (Worker.step_reply_ne_none hcall _)
  rcases Worker.waiting_cases hproceed hcall with hp | hp
  · have hunread : s.unread channel = [] := by
      by_contra hne
      have hnone := hblocked (.read slot 1) (by simp [Label.own])
      simp [System.step, Server.step, Server.move, hworker, hchannel, Worker.step, hp, hne,
        pipeBufferSize] at hnone
    obtain ⟨done, todo, htexts, hfed, -⟩ := (h.sound.served _ _ _ _ hchannel hworker).reports
    change w.Fed todo (s.unread channel) at hfed
    rw [hunread] at hfed
    have hat := hattended.placed.2
    simp only [hp] at hat
    obtain rfl := hfed.eq_nil hat.2.1
    exact ⟨hunread, (List.append_eq_nil_iff.mp hfed.stream).1⟩
  · exact absurd hlive (AList.lookup_eq_none.mp (hattended.returned hp))

theorem Serving.exists_run_delivered (h : Serving n s) (hslot : slot < n) (hn : n < wordSize) :
    ∃ rest t, (∀ label ∈ rest, Label.own slot label = true) ∧ rest.length ≤ s.owes slot ∧
      Transition.run System.step s rest = some t ∧ t.Delivered slot := by
  induction hr : s.owes slot using Nat.strongRecOn generalizing s with
  | ind r ih =>
    by_cases hblocked : s.Blocked slot
    · exact ⟨[], s, by simp, by simp, rfl, h.delivered hblocked⟩
    · obtain ⟨label, hown, hstep⟩ : ∃ label, Label.own slot label = true ∧ s.step label ≠ none := by
        simpa [Blocked] using hblocked
      obtain ⟨u, hu⟩ := Option.ne_none_iff_exists'.mp hstep
      have hquiet : label.opens = 0 ∧ label ≠ .server .stop ∧ label.polls slot = false := by
        cases label with
        | server label => cases label <;> simp [Label.own, Label.polls, Label.opens] at hown ⊢
        | _ => simp [Label.own, Label.polls, Label.opens] at hown ⊢
      obtain ⟨hopens, hstop, hpolls⟩ := hquiet
      have hserving := h.step hstop (by omega) hu
      rw [hopens] at hserving
      have hpaid := h.owes_turn hserving hslot le_rfl (h.turns hslot hu)
      have hcarried := h.carried_of_own hslot hown hu
      simp only [hown, hpolls, if_true, Bool.false_eq_true, if_false] at hpaid
      obtain ⟨rest, t, hrest, hlength, hrun, hdelivered⟩ := ih _ (by omega) hserving rfl
      refine ⟨label :: rest, t, List.forall_mem_cons.mpr ⟨hown, hrest⟩, ?_,
        Transition.run_cons.mpr ⟨u, hu, hrun⟩, hdelivered⟩
      rw [List.length_cons]
      omega

/-- What has been sent arrives. In every run the steps of a connection thread are paid for by
what it owes, by what its client writes and by peeks in vain; where it has no step left, and
after at most as many steps of its own as it owes, everything is applied. -/
theorem delivers_of_run {timeout : ℤ} {clientIds : List { clientId : Bytes // Uuid clientId }}
    {earlier later : List Label} (hstop : .server .stop ∉ earlier ++ later)
    (hn : ((earlier ++ later).map Label.opens).sum < wordSize)
    (hearlier : Transition.run System.step (start timeout clientIds) earlier = some s)
    (hlater : Transition.run System.step s later = some t) (hslot : slot < s.channels.length) :
    later.countP (Label.own slot) + t.owes slot + 7 * s.carried slot ≤
        s.owes slot + 7 * t.carried slot + later.countP (Label.polls slot) ∧
      (t.Blocked slot → t.Delivered slot) ∧
      ∃ rest u, (∀ label ∈ rest, Label.own slot label = true) ∧ rest.length ≤ t.owes slot ∧
        Transition.run System.step t rest = some u ∧ u.Delivered slot := by
  rw [List.map_append, List.sum_append] at hn
  have hadmitted : ∀ label ∈ earlier ++ later, label ≠ .server .stop := by
    rintro label hl rfl
    exact hstop hl
  obtain ⟨hfirst, hthen⟩ := List.forall_mem_append.mp hadmitted
  have h : Serving (0 + (earlier.map Label.opens).sum) s :=
    Transition.run_weighted (fun n s l t h hl hn hs => h.step hl hn hs)
      ⟨sound_start timeout clientIds, Server.sound_start timeout⟩ hfirst
      (show 0 + (earlier.map Label.opens).sum < wordSize by omega) hearlier
  rw [Nat.zero_add] at h
  rw [h.sound.channels] at hslot
  have ht : Serving _ t :=
    Transition.run_weighted (fun n s l t h hl hn hs => h.step hl hn hs) h hthen hn hlater
  refine ⟨?_, ht.delivered, ht.exists_run_delivered (by omega) hn⟩
  exact Transition.countP_le_of_weighted (I := fun k s => slot < k ∧ Serving k s)
    (fun k s l t hk hl hn hs =>
      have hnext := hk.2.step hl hn hs
      ⟨⟨by omega, hnext⟩, hk.2.owes_turn hnext hk.1 (by omega) (hk.2.turns hk.1 hs)⟩)
    ⟨hslot, h⟩ hthen hn hlater

theorem delivers_greeting :
    let s := (Transition.run System.step (start 2000 editors) (greeting.take 4)).get
      (by decide +kernel)
    let t := (Transition.run System.step s (greeting.drop 4)).get (by decide +kernel)
    (greeting.drop 4).countP (Label.own 0) + t.owes 0 + 7 * s.carried 0 ≤
        s.owes 0 + 7 * t.carried 0 + (greeting.drop 4).countP (Label.polls 0) ∧
      (t.Blocked 0 → t.Delivered 0) ∧
      ∃ rest u, (∀ label ∈ rest, Label.own 0 label = true) ∧ rest.length ≤ t.owes 0 ∧
        Transition.run System.step t rest = some u ∧ u.Delivered 0 :=
  delivers_of_run (show .server .stop ∉ greeting.take 4 ++ greeting.drop 4 by decide) (by decide)
    (Option.some_get _).symm (Option.some_get _).symm (by decide +kernel)

end System

end PrivacyGuard
