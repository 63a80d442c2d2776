import PrivacyGuard.Pipe.Server
import PrivacyGuard.State.Recovery

/-! # Every connection ends once

A connection id is handed out once, its entry is removed once, and at most one
failure is recorded for it, in the counter or in the latch. What a call does to an
entry decides each count; the workers add that none returns while its entry is there.
-/

namespace PrivacyGuard

namespace PrivacyState

variable {n : ℕ} {s : PrivacyState} {op : Op} {id : ℕ}

/-- An entry that is gone does not come back. -/
theorem perform_absent (hc : Counted n s) (hn : n + opens op < wordSize) (hid : id ≤ n)
    (hl : s.clients.lookup id = none) : (s.perform op).1.clients.lookup id = none := by
  rw [Option.eq_none_iff_forall_ne_some]
  intro c' h
  cases perform_client h with
  | kept h => simp [hl] at h
  | opened now op_eq id_eq =>
    subst op_eq
    have := hc.next_eq hn
    omega
  | greeted c clientId now op_eq h => simp [hl] at h
  | published c sequence sensitive now op_eq h => simp [hl] at h
  | rearmed c op_eq disabled h => simp [hl] at h

theorem perform_of_targets (hop : op.targets id = true) (hl : s.clients.lookup id = none) :
    (s.perform op).1 = s ∧ (isFrame op = true → (s.perform op).2 = .accepted false) := by
  cases op with
  | helloReceived connectionId clientId now =>
    obtain rfl : connectionId = id := by simpa [Op.targets] using hop
    simp [perform, helloReceived, hl]
  | stateReceived connectionId sequence sensitive now =>
    obtain rfl : connectionId = id := by simpa [Op.targets] using hop
    simp [perform, stateReceived, hl]
  | goodbyeReceived connectionId =>
    obtain rfl : connectionId = id := by simpa [Op.targets] using hop
    simp [perform, goodbyeReceived, hl]
  | protocolError connectionId =>
    obtain rfl : connectionId = id := by simpa [Op.targets] using hop
    exact ⟨removeFailed_of_none hl, by simp [isFrame]⟩
  | connectionClosed connectionId =>
    obtain rfl : connectionId = id := by simpa [Op.targets] using hop
    exact ⟨removeFailed_of_none hl, by simp [isFrame]⟩
  | connectionOpened now => simp [Op.targets] at hop
  | tick now => simp [Op.targets] at hop
  | setEnabled enabled => simp [Op.targets] at hop

theorem removeFailed_lookup_self : (s.removeFailed id).clients.lookup id = none := by
  cases hl : s.clients.lookup id with
  | none => rwa [removeFailed_of_none hl]
  | some c => simp [removeFailed_of_some hl]

@[simp] theorem alone_disconnectedClients : (s.alone id).disconnectedClients = 0 := rfl

@[simp] theorem alone_untrustedFailureLatched : (s.alone id).untrustedFailureLatched = false := rfl

@[simp] theorem entries_alone :
    (s.alone id).clients.entries = (s.clients.lookup id).toList.map fun c => ⟨id, c⟩ :=
  AList.entries_filter_key id s.clients

theorem Counted.alone (hc : Counted n s) (id : ℕ) : Counted n (s.alone id) :=
  hc.of_le rfl (fun _ h => (s.clients.entries.filter_sublist.map Sigma.fst).subset h)
    (Nat.add_le_add (Nat.zero_le _) (List.length_filter_le _ _))

@[simp] theorem failing_alone (e : Entry) : (s.alone id).failing op e = s.failing op e := by
  cases op <;> rfl

theorem failing_of_unfailed (hop : removesFailed op = false) (e : Entry) :
    s.failing op e = false := by
  cases op <;> first | rfl | cases hop

theorem perform_unfailed (hop : removesFailed op = false) :
    (s.perform op).1.disconnectedClients ≤ s.disconnectedClients ∧
      ((s.perform op).1.untrustedFailureLatched = true → s.untrustedFailureLatched = true) := by
  cases op with
  | connectionOpened now => exact ⟨le_rfl, id⟩
  | helloReceived connectionId clientId now =>
    rcases s.helloReceived_cases connectionId clientId now with hr | ⟨c, -, -, -, hr⟩ <;>
      simp [perform, hr]
  | stateReceived connectionId sequence sensitive now =>
    rcases s.stateReceived_cases connectionId sequence sensitive now with hr | ⟨c, -, -, -, hr⟩
    · simp [perform, hr]
    · simp only [perform, hr, publishState]
      split <;> simp
  | goodbyeReceived connectionId =>
    rcases s.goodbyeReceived_cases connectionId with hr | ⟨c, -, -, hr⟩ <;> simp [perform, hr]
  | setEnabled enabled =>
    simp only [perform, setEnabled]
    split
    · simp
    · split <;> simp
  | protocolError | connectionClosed | tick => cases hop

theorem goodbye_lookup_self (h : (s.perform (.goodbyeReceived id)).2.isAccepted = true) :
    (s.perform (.goodbyeReceived id)).1.clients.lookup id = none ∧
      (s.clients.lookup id).isSome = true := by
  rcases s.goodbyeReceived_cases id with hg | ⟨c, hl, -, hg⟩
  · simp [perform, hg, Reply.isAccepted] at h
  · simp [perform, hg, hl]

end PrivacyState

open PrivacyState

/-! ### One call -/

namespace Record

variable {n : ℕ} {s : PrivacyState} {op : Op} {id : ℕ}

theorem opens_of (s : PrivacyState) (op : Op) (id : ℕ) :
    (Record.of s op).opens id = true ↔ PrivacyGuard.opens op = 1 ∧ id = s.nextConnectionId := by
  cases op <;>
    simp [Record.of, Record.opens, perform, PrivacyGuard.opens, connectionOpened, eq_comm]

theorem removes_of : (Record.of s op).removes id = true ↔
    (s.clients.lookup id).isSome = true ∧ (s.perform op).1.clients.lookup id = none := by
  simp [Record.removes, Record.of]

theorem counted_of (hc : Counted n s) (hn : n < wordSize) :
    (Record.of s op).counted id =
      ((s.clients.lookup id).any fun c => s.failing op ⟨id, c⟩ && c.sensitive.isSome).toNat := by
  cases hop : removesFailed op with
  | false =>
    have hnone : ((s.alone id).perform op).1.disconnectedClients = 0 :=
      Nat.le_zero.mp (perform_unfailed hop).1
    rw [Record.counted, Record.of, hnone]
    simp [failing_of_unfailed hop]
  | true =>
    have ha := (afterFailure_perform (hc.alone id) hn hop).count
    rw [Record.counted, Record.of, ha, outstanding, entries_alone]
    cases s.clients.lookup id with
    | none => rfl
    | some c => simp [Bool.toNat, Bool.cond_eq_ite]

theorem latched_of (hc : Counted n s) (hn : n < wordSize) :
    (Record.of s op).latched id =
      (s.clients.lookup id).any fun c => s.failing op ⟨id, c⟩ && !c.sensitive.isSome := by
  cases hop : removesFailed op with
  | false =>
    have hnone : ((s.alone id).perform op).1.untrustedFailureLatched = false := by
      by_contra h
      cases (perform_unfailed hop).2 (Bool.of_not_eq_false h)
    rw [Record.latched, Record.of, hnone]
    simp [failing_of_unfailed hop]
  | true =>
    have ha := (afterFailure_perform (hc.alone id) hn hop).latched
    rw [Record.latched, Record.of, ha, entries_alone]
    cases s.clients.lookup id with
    | none => rfl
    | some c => simp

theorem failures_of (hc : Counted n s) (hn : n < wordSize) :
    (Record.of s op).failures id =
      ((s.clients.lookup id).any fun c => s.failing op ⟨id, c⟩).toNat := by
  rw [Record.failures, counted_of hc hn, latched_of hc hn]
  cases s.clients.lookup id with
  | none => rfl
  | some c => cases hf : s.failing op ⟨id, c⟩ <;> cases hs : c.sensitive <;> simp [hf, hs]

theorem removes_of_failing (hc : Counted n s) (hn : n < wordSize) {c : Client}
    (hl : s.clients.lookup id = some c) (hf : s.failing op ⟨id, c⟩ = true) :
    (Record.of s op).removes id = true := by
  have hop : removesFailed op = true := by
    by_contra hop
    cases hf.symm.trans (failing_of_unfailed (Bool.of_not_eq_true hop) _)
  rw [removes_of, (afterFailure_perform hc hn hop).clients, AList.lookup_filter_eq_none]
  refine ⟨by simp [hl], fun c' hc' => ?_⟩
  obtain rfl := Option.some.inj (hl.symm.trans hc')
  simp [hf]

theorem removes_of_goodbye (h : (Record.of s op).goodbye id = true) :
    (Record.of s op).removes id = true ∧ removesFailed op = false := by
  rw [Record.goodbye, Bool.and_eq_true, decide_eq_true_iff, decide_eq_true_iff] at h
  obtain ⟨hop, hreply⟩ : op = .goodbyeReceived id ∧ (s.perform op).2 = .accepted true := h
  subst hop
  have haccepted : (s.perform (.goodbyeReceived id)).2.isAccepted = true := by
    rw [hreply]
    rfl
  obtain ⟨hgone, hbefore⟩ := goodbye_lookup_self haccepted
  exact ⟨removes_of.mpr ⟨hbefore, hgone⟩, rfl⟩

/-- A call removes what it records as failed or accepts the GOODBYE of, once. -/
theorem failures_add_goodbye (hc : Counted n s) (hn : n < wordSize) :
    (Record.of s op).failures id + ((Record.of s op).goodbye id).toNat ≤
      ((Record.of s op).removes id).toNat := by
  rw [failures_of hc hn]
  cases hf : (s.clients.lookup id).any fun c => s.failing op ⟨id, c⟩ with
  | false =>
    cases hg : (Record.of s op).goodbye id with
    | false => exact Nat.zero_le _
    | true => simp [(removes_of_goodbye hg).1]
  | true =>
    obtain ⟨c, hl, hfailing⟩ := (Option.any_eq_true _ _).mp hf
    have hg : (Record.of s op).goodbye id = false := by
      by_contra hg
      have hop := (removes_of_goodbye (Bool.of_not_eq_false hg)).2
      cases hfailing.symm.trans (failing_of_unfailed hop _)
    simp [hg, removes_of_failing hc hn hl hfailing]

/-- The connections of the map account for the whole change of the counter and the latch. -/
theorem accounted_of (hc : Counted n s) (hn : n < wordSize) : (Record.of s op).Accounted := by
  cases hop : removesFailed op with
  | false =>
    obtain ⟨hcount, hlatch⟩ := perform_unfailed (s := s) hop
    exact ⟨hcount.trans (Nat.le_add_right _ _), fun h => Or.inl (hlatch h)⟩
  | true =>
    have ha := afterFailure_perform hc hn hop
    constructor
    case count =>
      have hsum : (s.clients.keys.map fun id => (Record.of s op).counted id).sum =
          s.clients.entries.countP fun e => s.failing op e && e.2.sensitive.isSome := by
        apply AList.sum_map_keys
        intro id c hl
        rw [counted_of hc hn, hl, Option.any_some]
      exact ha.count.le.trans (Nat.add_le_add_left hsum.ge _)
    case latch =>
      intro h
      have hlatched := ha.latched.symm.trans h
      rw [Bool.or_eq_true, List.any_eq_true] at hlatched
      refine hlatched.imp_right ?_
      rintro ⟨⟨id, c⟩, hmem, hf⟩
      refine ⟨id, ?_⟩
      rw [latched_of hc hn, AList.mem_entries_iff.mp hmem]
      exact hf

end Record

/-! ### The log of a run -/

/-- What the log of completed calls says about every connection after `n` openings. -/
structure Logged (n : ℕ) (s : PrivacyState) (log : List Record) : Prop where
  counted : Counted n s
  opened : ∀ id, log.countP (Record.opens id) ≤ 1
  fresh : ∀ id, n < id → log.countP (Record.opens id) = 0
  removed : ∀ id, log.countP (Record.removes id) ≤ 1
  gone : ∀ r ∈ log, ∀ id, r.removes id = true → id ≤ n ∧ s.clients.lookup id = none
  outcome : ∀ id, (log.map (Record.failures id)).sum + log.countP (Record.goodbye id) ≤
    log.countP (Record.removes id)
  accounted : ∀ r ∈ log, r.Accounted
  silent : ∀ id later r earlier, log = later ++ r :: earlier → r.removes id = true →
    ∀ r' ∈ later, r'.op.targets id = true →
      r'.after = r'.before ∧ (isFrame r'.op = true → r'.reply = .accepted false)

variable {n : ℕ} {s : PrivacyState} {op : Op} {log : List Record}

theorem logged_init (timeout : ℤ) : Logged 0 (init timeout) [] where
  counted := counted_init timeout
  opened _ := Nat.zero_le _
  fresh _ _ := rfl
  removed _ := Nat.zero_le _
  gone := by simp
  outcome _ := le_rfl
  accounted := by simp
  silent := by simp

theorem Logged.countP_removes (h : Logged n s log) {id : ℕ}
    (hr : (Record.of s op).removes id = true) : log.countP (Record.removes id) = 0 := by
  rw [List.countP_eq_zero]
  intro r hmem hremoves
  obtain ⟨hbefore, -⟩ := Record.removes_of.mp hr
  rw [(h.gone r hmem id hremoves).2] at hbefore
  simp at hbefore

theorem Logged.perform (h : Logged n s log) (hn : n + opens op < wordSize) :
    Logged (n + opens op) (s.perform op).1 (.of s op :: log) where
  counted := h.counted.perform op hn
  opened id := by
    rw [List.countP_cons]
    split
    case isFalse => exact h.opened id
    case isTrue ho =>
      obtain ⟨hop, rfl⟩ := (Record.opens_of s op id).mp ho
      rw [h.fresh _ (by have := h.counted.next_eq (by omega); omega)]
  fresh id hid := by
    rw [List.countP_cons, h.fresh id (by omega), if_neg]
    intro ho
    obtain ⟨hop, rfl⟩ := (Record.opens_of s op id).mp ho
    have := h.counted.next_eq (by omega)
    omega
  removed id := by
    rw [List.countP_cons]
    split
    case isFalse => exact h.removed id
    case isTrue hr => rw [h.countP_removes hr]
  gone r hr id hremoves := by
    rcases List.mem_cons.mp hr with rfl | hr
    · obtain ⟨hbefore, hafter⟩ := Record.removes_of.mp hremoves
      obtain ⟨c, hc⟩ := Option.isSome_iff_exists.mp hbefore
      exact ⟨(h.counted.keys id c hc).trans (Nat.le_add_right _ _), hafter⟩
    · obtain ⟨hid, hl⟩ := h.gone r hr id hremoves
      exact ⟨hid.trans (Nat.le_add_right _ _), perform_absent h.counted hn hid hl⟩
  outcome id := by
    have hold := h.outcome id
    have hnew : (Record.of s op).failures id + ((Record.of s op).goodbye id).toNat ≤
        ((Record.of s op).removes id).toNat :=
      Record.failures_add_goodbye h.counted (by omega)
    simp only [List.countP_cons, List.map_cons, List.sum_cons, ← Bool.cond_eq_ite]
    simp only [Bool.toNat] at hnew
    omega
  accounted := List.forall_mem_cons.mpr
    ⟨Record.accounted_of h.counted (by omega), h.accounted⟩
  silent id later r earlier heq hremoves := by
    cases later with
    | nil => simp
    | cons r' later =>
      obtain ⟨rfl, rfl⟩ := List.cons.inj heq
      obtain ⟨-, hl⟩ := h.gone r (by simp) id hremoves
      refine List.forall_mem_cons.mpr ⟨fun ht => ?_, ?_⟩
      · exact perform_of_targets ht hl
      · exact h.silent id later r earlier rfl hremoves

/-! ### The workers -/

structure Attended (n : ℕ) (s : PrivacyState) (id : ℕ) (w : Worker) : Prop where
  id_le : id ≤ n
  placed : w.Placed
  inactive : w.stateEntryActive = false → s.clients.lookup id = none
  returned : w.point = .returned → s.clients.lookup id = none

namespace Attended

variable {id : ℕ} {w w' : Worker}

theorem perform (h : Attended n s id w) (hc : Counted n s) (hn : n + opens op < wordSize) :
    Attended (n + opens op) (s.perform op).1 id w where
  id_le := h.id_le.trans (Nat.le_add_right _ _)
  placed := h.placed
  inactive ha := perform_absent hc hn h.id_le (h.inactive ha)
  returned hr := perform_absent hc hn h.id_le (h.returned hr)

theorem scanPending_point : w.scanPending.point ≠ .returned ∧
    w.scanPending.stateEntryActive = w.stateEntryActive := by
  unfold Worker.scanPending
  split <;> split <;> simp

theorem move (h : Attended n s id w) {input : Input} (hs : w.step input = some w')
    (hrunning : input ≠ .proceed false) (hreply : ∀ accepted, input ≠ .reply accepted) :
    Attended n s id w' := by
  have hplaced := h.placed.step hs
  cases Worker.moves_of_step hs with
  | loop hp running =>
    exact ⟨h.id_le, hplaced, h.inactive, fun hr => by simp only at hr; split at hr <;> cases hr⟩
  | scan hp running =>
    obtain ⟨hpoint, hactive⟩ := scanPending_point (w := w)
    exact ⟨h.id_le, hplaced, fun ha => h.inactive (hactive ▸ ha), fun hr => absurd hr hpoint⟩
  | cleanup hp running =>
    obtain rfl : running = true := Bool.of_not_eq_false fun hf => hrunning (by rw [hf])
    refine ⟨h.id_le, hplaced, h.inactive, fun hr => h.inactive ?_⟩
    simp only [Bool.and_true] at hr
    split at hr
    case isTrue => cases hr
    case isFalse ha => exact Bool.of_not_eq_true ha
  | nothing hp => exact ⟨h.id_le, hplaced, h.inactive, fun hr => by cases hr⟩
  | bytes hp hne hlen => exact ⟨h.id_le, hplaced, h.inactive, fun hr => by cases hr⟩
  | ended hp => exact ⟨h.id_le, hplaced, h.inactive, fun hr => by cases hr⟩
  | apply hp accepted => exact absurd rfl (hreply accepted)
  | fail hp accepted => exact absurd rfl (hreply accepted)
  | close hp accepted => exact absurd rfl (hreply accepted)

theorem reply (h : Attended n s id w) {call : Call} (hcall : w.call = some call) {now : ℤ}
    (hs : w.step (.reply (s.perform (call.op id now)).2.isAccepted) = some w') :
    Attended n (s.perform (call.op id now)).1 id w' := by
  have hplaced := h.placed.step hs
  cases Worker.moves_of_step hs with
  | @apply frame position hp =>
    obtain ⟨hactive, hat⟩ := h.placed
    rw [hp] at hat
    rw [hat.1] at hactive
    obtain rfl : frame.call = call := by simpa [Worker.call, hp] using hcall
    generalize hr : (s.perform (frame.call.op id now)).2.isAccepted = accepted at hplaced ⊢
    refine ⟨h.id_le, hplaced, fun ha => ?_, fun hret => ?_⟩
    · cases hkind : frame.kind <;> cases accepted <;>
        simp [applyFrame, hkind, Worker.applied, hactive] at ha
      simp only [Frame.call, hkind, Call.op] at hr ⊢
      exact (goodbye_lookup_self hr).1
    · cases hkind : frame.kind <;> cases accepted <;>
        simp [applyFrame, hkind, Worker.applied] at hret
  | fail hp =>
    obtain rfl : Call.protocolError = call := by simpa [Worker.call, hp] using hcall
    exact ⟨h.id_le, hplaced, fun _ => removeFailed_lookup_self, fun _ => removeFailed_lookup_self⟩
  | close hp =>
    obtain rfl : Call.connectionClosed = call := by simpa [Worker.call, hp] using hcall
    exact ⟨h.id_le, hplaced, fun _ => removeFailed_lookup_self, fun _ => removeFailed_lookup_self⟩

end Attended

/-! ### Runs of the server -/

namespace Server

structure Sound (n : ℕ) (s : Server) : Prop where
  logged : Logged n s.privacyState s.log
  running : s.running = true
  workers : ∀ e ∈ s.workers, Attended n s.privacyState e.1 e.2

variable {s t : Server}

theorem Sound.perform (h : Sound n s) (op : Op) (hn : n + opens op < wordSize) :
    Sound (n + opens op) (s.perform op) where
  logged := h.logged.perform hn
  running := h.running
  workers e he := (h.workers e he).perform h.logged.counted hn

theorem Sound.move (h : Sound n s) {slot : ℕ} {input : Input} (hs : s.move slot input = some t)
    (hw : ∀ id w w', s.workers[slot]? = some (id, w) → w.step input = some w' →
      Attended n s.privacyState id w') : Sound n t := by
  unfold Server.move at hs
  split at hs
  case h_2 => cases hs
  case h_1 id w hslot =>
    obtain ⟨_, hstep, rfl⟩ := Option.map_eq_some_iff.mp hs
    refine ⟨h.logged, h.running, fun e he => ?_⟩
    rcases List.mem_or_eq_of_mem_set he with he | rfl
    · exact h.workers e he
    · exact hw id w _ hslot hstep

theorem Sound.local (h : Sound n s) {slot : ℕ} {input : Input} (hs : s.move slot input = some t)
    (hrunning : input ≠ .proceed false) (hreply : ∀ accepted, input ≠ .reply accepted) :
    Sound n t :=
  h.move hs fun id w _ hslot hstep =>
    (h.workers (id, w) (List.mem_of_getElem? hslot)).move hstep hrunning hreply

theorem Sound.step (h : Sound n s) {l : Label} (hstop : l ≠ .stop)
    (hn : n + l.opens < wordSize) (hs : s.step l = some t) : Sound (n + l.opens) t := by
  cases l with
  | accept now =>
    rw [Server.step, if_pos h.running] at hs
    obtain rfl := Option.some.inj hs
    have hp := h.perform (.connectionOpened now) hn
    refine ⟨hp.logged, hp.running, fun e he => ?_⟩
    rcases List.mem_append.mp he with he | he
    · exact hp.workers e he
    · obtain rfl := List.mem_singleton.mp he
      refine ⟨(h.logged.counted.next_eq hn).le, Worker.placed_init, fun ha => ?_, fun hr => ?_⟩
      · simp at ha
      · simp at hr
  | proceed slot => exact h.local hs (by simp [h.running]) (by simp)
  | nothing slot => exact h.local hs (by simp) (by simp)
  | bytes slot chunk => exact h.local hs (by simp) (by simp)
  | ended slot => exact h.local hs (by simp) (by simp)
  | call slot now =>
    simp only [Server.step] at hs
    split at hs
    case h_2 => cases hs
    case h_1 id w hslot =>
      split at hs
      case h_2 => cases hs
      case h_1 call hcall =>
        have hopens : opens (call.op id now) = 0 := by cases call <;> rfl
        have hp := h.perform (call.op id now) (by omega)
        rw [hopens] at hp
        refine hp.move hs fun id' w₀ _ hslot' hstep => ?_
        obtain ⟨rfl, rfl⟩ := Prod.mk.inj (Option.some.inj (hslot.symm.trans hslot'))
        exact (h.workers (id, w) (List.mem_of_getElem? hslot)).reply hcall hstep
  | tick now =>
    obtain rfl := Option.some.inj hs
    exact h.perform (.tick now) hn
  | setEnabled enabled =>
    obtain rfl := Option.some.inj hs
    exact h.perform (.setEnabled enabled) hn
  | stop => exact absurd rfl hstop

theorem sound_start (timeout : ℤ) : Sound 0 (start timeout) :=
  ⟨logged_init timeout, rfl, by simp [start]⟩

structure EndsOnce (s : Server) (id : ℕ) : Prop where
  opened : s.log.countP (Record.opens id) ≤ 1
  removed : s.log.countP (Record.removes id) ≤ 1
  failed : (s.log.map (Record.failures id)).sum ≤ 1
  graceful : (∃ r ∈ s.log, r.goodbye id = true) → (s.log.map (Record.failures id)).sum = 0
  accounted : ∀ r ∈ s.log, r.Accounted
  silent : ∀ later r earlier, s.log = later ++ r :: earlier → r.removes id = true →
    ∀ r' ∈ later, r'.op.targets id = true →
      r'.after = r'.before ∧ (isFrame r'.op = true → r'.reply = .accepted false)
  returned : ∀ w, (id, w) ∈ s.workers → w.point = .returned →
    s.privacyState.clients.lookup id = none

theorem Sound.endsOnce (h : Sound n s) (id : ℕ) : s.EndsOnce id where
  opened := h.logged.opened id
  removed := h.logged.removed id
  failed := by
    have := h.logged.outcome id
    have := h.logged.removed id
    omega
  graceful := by
    rintro ⟨r, hr, hg⟩
    have := List.countP_pos_iff.mpr ⟨r, hr, hg⟩
    have := h.logged.outcome id
    have := h.logged.removed id
    omega
  accounted := h.logged.accounted
  silent := h.logged.silent id
  returned w hw hr := (h.workers (id, w) hw).returned hr

/-- In every run with `running_` true that does not wrap the identifiers, every connection
ends once. -/
theorem endsOnce_of_run {timeout : ℤ} {ls : List Label} (hstop : .stop ∉ ls)
    (hn : (ls.map Label.opens).sum < wordSize)
    (hrun : Transition.run Server.step (start timeout) ls = some s) (id : ℕ) : s.EndsOnce id := by
  have hadmitted : ∀ l ∈ ls, l ≠ .stop := by
    rintro l hl rfl
    exact hstop hl
  have h : Sound (0 + (ls.map Label.opens).sum) s :=
    Transition.run_weighted (fun n s l t h hl hn hs => h.step hl hn hs) (sound_start timeout)
      hadmitted (show 0 + (ls.map Label.opens).sum < wordSize by omega) hrun
  exact h.endsOnce id

def gracefulRun : List Label :=
  [.accept 0, .proceed 0,
    .bytes 0 (ascii "PG/1 HELLO 01234567-89ab-cdef-0123-456789ABCDEF\nPG/1 GOODBYE\n"),
    .proceed 0, .call 0 1, .proceed 0, .call 0 2, .proceed 0, .proceed 0, .tick 9000]

theorem endsOnce_gracefulRun :
    ((Transition.run Server.step (start 2000) gracefulRun).get (by decide +kernel)).EndsOnce 1 :=
  endsOnce_of_run (by decide) (by decide) (Option.some_get _).symm 1

end Server

end PrivacyGuard
