import Mathlib.Logic.Function.Iterate
import PrivacyGuard.State.Basic

/-! # What each operation does

One specification lemma per operation of the state machine. Later modules cite
these lemmas and never unfold an operation.
-/

namespace PrivacyGuard

theorem increment_of_lt {n : ℕ} (h : n + 1 < wordSize) : increment n = n + 1 :=
  Nat.mod_eq_of_lt h

theorem increment_iterate {n k : ℕ} (h : n + k < wordSize) : increment^[k] n = n + k := by
  induction k generalizing n with
  | zero => rfl
  | succ k ih =>
    rw [Function.iterate_succ_apply, increment_of_lt (by omega), ih (by omega)]
    omega

namespace Client

variable (c : Client)

def greet (clientId : Bytes) (now : ℤ) : Client :=
  { c with clientId, helloReceived := true, lastUpdate := now }

def Accepts (sequence : UInt64) : Prop :=
  ∀ last, c.lastSequence = some last → last < sequence

def publish (sequence : UInt64) (sensitive : Bool) (now : ℤ) : Client :=
  { c with lastSequence := some sequence, sensitive := some sensitive, lastUpdate := now }

end Client

namespace PrivacyState

variable {s : PrivacyState} {id : ℕ} {now : ℤ}

section RecordConnectionFailure

variable (s) (c : Client)

@[simp] theorem recordConnectionFailure_livenessTimeout :
    (s.recordConnectionFailure c).livenessTimeout = s.livenessTimeout := by
  unfold recordConnectionFailure; split <;> rfl

@[simp] theorem recordConnectionFailure_nextConnectionId :
    (s.recordConnectionFailure c).nextConnectionId = s.nextConnectionId := by
  unfold recordConnectionFailure; split <;> rfl

@[simp] theorem recordConnectionFailure_enabled :
    (s.recordConnectionFailure c).enabled = s.enabled := by
  unfold recordConnectionFailure; split <;> rfl

@[simp] theorem recordConnectionFailure_disconnectedClients :
    (s.recordConnectionFailure c).disconnectedClients =
      if c.sensitive.isSome then increment s.disconnectedClients else s.disconnectedClients := by
  unfold recordConnectionFailure; split <;> rfl

@[simp] theorem recordConnectionFailure_untrustedFailureLatched :
    (s.recordConnectionFailure c).untrustedFailureLatched =
      (s.untrustedFailureLatched || !c.sensitive.isSome) := by
  unfold recordConnectionFailure; split <;> simp_all

end RecordConnectionFailure

/-! ### Opening and handshake -/

theorem connectionOpened_of_fresh (h : s.clients.lookup s.nextConnectionId = none) :
    s.connectionOpened now =
      ({ s with
          clients := s.clients.insert s.nextConnectionId { lastUpdate := now }
          nextConnectionId := increment s.nextConnectionId }, s.nextConnectionId) := by
  have hn : s.nextConnectionId ∉ s.clients := AList.lookup_eq_none.mp h
  simp [connectionOpened, hn]

theorem duplicateIdentity_iff {clientId : Bytes} :
    s.duplicateIdentity id clientId = true ↔
      ∃ other c, s.clients.lookup other = some c ∧ other ≠ id ∧ c.helloReceived = true ∧
        c.clientId = clientId := by
  rw [duplicateIdentity, List.any_eq_true, AList.exists_entries_iff]
  simp [and_assoc]

theorem helloReceived_cases (s : PrivacyState) (id : ℕ) (clientId : Bytes)
    (now : ℤ) :
    s.helloReceived id clientId now = (s, false) ∨
      ∃ c, s.clients.lookup id = some c ∧ c.helloReceived = false ∧
        s.duplicateIdentity id clientId = false ∧
        s.helloReceived id clientId now =
          ({ s with clients := s.clients.replace id (c.greet clientId now) }, true) := by
  unfold helloReceived
  cases hl : s.clients.lookup id with
  | none => exact Or.inl rfl
  | some c =>
    cases hh : c.helloReceived with
    | true => left; simp [hh]
    | false =>
      cases hd : s.duplicateIdentity id clientId with
      | true => left; simp [hh]
      | false => right; exact ⟨c, rfl, hh, rfl, by simp [hh, Client.greet]⟩

theorem helloReceived_of_fresh {clientId : Bytes} {c : Client}
    (hl : s.clients.lookup id = some c) (hh : c.helloReceived = false)
    (hd : s.duplicateIdentity id clientId = false) :
    s.helloReceived id clientId now =
      ({ s with clients := s.clients.replace id (c.greet clientId now) }, true) := by
  simp [helloReceived, hl, hh, hd, Client.greet]

/-! ### States -/

def publishState (s : PrivacyState) (id : ℕ) (c : Client) (sequence : UInt64)
    (sensitive : Bool) (now : ℤ) : PrivacyState :=
  { s with
    clients := s.clients.replace id (c.publish sequence sensitive now)
    untrustedFailureLatched := false
    disconnectedClients :=
      if c.sensitive.isSome then s.disconnectedClients else s.disconnectedClients - 1 }

theorem acceptSequence_of_accepts {c : Client} {sequence : UInt64} (h : c.Accepts sequence) :
    acceptSequence c sequence = ({ c with lastSequence := some sequence }, true) := by
  unfold acceptSequence
  cases hl : c.lastSequence with
  | none => rfl
  | some last => simp [UInt64.not_le.mpr (h last hl)]

theorem acceptSequence_of_not_accepts {c : Client} {sequence : UInt64}
    (h : ¬ c.Accepts sequence) : acceptSequence c sequence = (c, false) := by
  unfold acceptSequence
  cases hl : c.lastSequence with
  | none => exact absurd (by simp [Client.Accepts, hl]) h
  | some last =>
    have hle : sequence ≤ last := by
      by_contra hn
      exact h (by simpa [Client.Accepts, hl] using hn)
    simp [hle]

theorem stateReceived_of_accepts {c : Client} {sequence : UInt64} {sensitive : Bool}
    (hl : s.clients.lookup id = some c) (hh : c.helloReceived = true)
    (ha : c.Accepts sequence) :
    s.stateReceived id sequence sensitive now =
      (s.publishState id c sequence sensitive now, true) := by
  simp only [stateReceived, hl, hh, Bool.not_true, Bool.false_eq_true, if_false,
    acceptSequence_of_accepts ha, publishState, Client.publish]
  cases hs : c.sensitive with
  | some _ => simp
  | none =>
    by_cases hd : 0 < s.disconnectedClients
    · simp [hd]
    · simp [Nat.eq_zero_of_not_pos hd]

theorem stateReceived_cases (s : PrivacyState) (id : ℕ) (sequence : UInt64)
    (sensitive : Bool) (now : ℤ) :
    s.stateReceived id sequence sensitive now = (s, false) ∨
      ∃ c, s.clients.lookup id = some c ∧ c.helloReceived = true ∧ c.Accepts sequence ∧
        s.stateReceived id sequence sensitive now =
          (s.publishState id c sequence sensitive now, true) := by
  cases hl : s.clients.lookup id with
  | none => left; simp [stateReceived, hl]
  | some c =>
    cases hh : c.helloReceived with
    | false => left; simp [stateReceived, hl, hh]
    | true =>
      by_cases ha : c.Accepts sequence
      · exact Or.inr ⟨c, rfl, hh, ha, stateReceived_of_accepts hl hh ha⟩
      · left; simp [stateReceived, hl, hh, acceptSequence_of_not_accepts ha]

/-! ### Removal -/

theorem goodbyeReceived_cases (s : PrivacyState) (id : ℕ) :
    s.goodbyeReceived id = (s, false) ∨
      ∃ c, s.clients.lookup id = some c ∧ c.helloReceived = true ∧
        s.goodbyeReceived id = ({ s with clients := s.clients.erase id }, true) := by
  unfold goodbyeReceived
  cases hl : s.clients.lookup id with
  | none => exact Or.inl rfl
  | some c =>
    cases hh : c.helloReceived with
    | false => left; simp [hh]
    | true => right; exact ⟨c, rfl, hh, by simp [hh]⟩

theorem removeFailed_of_none (h : s.clients.lookup id = none) : s.removeFailed id = s := by
  simp [removeFailed, h]

theorem removeFailed_of_some {c : Client} (h : s.clients.lookup id = some c) :
    s.removeFailed id =
      { s.recordConnectionFailure c with clients := s.clients.erase id } := by
  simp [removeFailed, h]

theorem removeFailed_enabled (s : PrivacyState) (id : ℕ) :
    (s.removeFailed id).enabled = s.enabled := by
  unfold removeFailed; split <;> simp

theorem removeFailed_livenessTimeout (s : PrivacyState) (id : ℕ) :
    (s.removeFailed id).livenessTimeout = s.livenessTimeout := by
  unfold removeFailed; split <;> simp

def expiredEntries (s : PrivacyState) (now : ℤ) : List Entry :=
  s.clients.entries.filter fun e => s.expired now e.2

theorem foldl_tickEntry (s : PrivacyState) (now : ℤ)
    (l : List Entry) :
    l.foldl (tickEntry now) s =
      { s with
        clients := s.clients.eraseAll (fun e => s.expired now e.2) l
        disconnectedClients :=
          increment^[(l.filter fun e => s.expired now e.2).countP fun e => e.2.sensitive.isSome]
            s.disconnectedClients
        untrustedFailureLatched :=
          s.untrustedFailureLatched ||
            (l.filter fun e => s.expired now e.2).any fun e => !e.2.sensitive.isSome } := by
  induction l generalizing s with
  | nil => simp [AList.eraseAll]
  | cons e l ih =>
    rw [List.foldl_cons, ih]
    by_cases he : s.expired now e.2 = true
    · have ht : tickEntry now s e =
          { s.recordConnectionFailure e.2 with clients := s.clients.erase e.1 } := by
        simp [tickEntry, he]
      have hx : ∀ c, (tickEntry now s e).expired now c = s.expired now c := by
        intro c; simp [ht, expired]
      simp only [hx, List.filter_cons_of_pos (p := fun e => s.expired now e.2) he]
      simp only [ht, recordConnectionFailure_livenessTimeout,
        recordConnectionFailure_nextConnectionId, recordConnectionFailure_enabled,
        recordConnectionFailure_disconnectedClients,
        recordConnectionFailure_untrustedFailureLatched, Bool.or_assoc]
      cases hs : e.2.sensitive with
      | none => simp [hs, AList.eraseAll, he]
      | some b => simp [hs, AList.eraseAll, he]
    · have ht : tickEntry now s e = s := by simp [tickEntry, he]
      rw [ht, List.filter_cons_of_neg (by simpa using he)]
      simp [AList.eraseAll, he]

/-- The erasing loop visits every entry once: its effect does not depend on the loop. -/
theorem tick_eq (s : PrivacyState) (now : ℤ) :
    s.tick now =
      { s with
        clients := s.clients.filter fun e => !s.expired now e.2
        disconnectedClients :=
          increment^[(s.expiredEntries now).countP fun e => e.2.sensitive.isSome]
            s.disconnectedClients
        untrustedFailureLatched :=
          s.untrustedFailureLatched ||
            (s.expiredEntries now).any fun e => !e.2.sensitive.isSome } := by
  rw [tick, foldl_tickEntry, AList.eraseAll_entries]
  rfl

/-! ### Aggregation -/

theorem aggregate_eq_safe_iff (anySensitive : Bool) (l : List Entry) :
    aggregate anySensitive l = .safe ↔
      anySensitive = false ∧
        ∀ e ∈ l, e.2.helloReceived = true ∧ e.2.sensitive = some false := by
  induction l generalizing anySensitive with
  | nil => cases anySensitive <;> simp [aggregate]
  | cons e l ih =>
    rw [List.forall_mem_cons]
    cases hh : e.2.helloReceived with
    | false => simp [aggregate, hh]
    | true =>
      cases hs : e.2.sensitive with
      | none => simp [aggregate, hh, hs]
      | some flag => cases flag <;> simp [aggregate, hh, hs, ih]

/-- Output is shown as safe only when nothing is uncertain. -/
theorem mode_eq_safe_iff (s : PrivacyState) :
    s.mode = .safe ↔
      s.enabled = true ∧ s.untrustedFailureLatched = false ∧ s.disconnectedClients = 0 ∧
        (∃ id, s.clients.lookup id ≠ none) ∧
        ∀ id c, s.clients.lookup id = some c →
          c.helloReceived = true ∧ c.sensitive = some false := by
  have hne : s.clients.entries ≠ [] ↔ ∃ id, s.clients.lookup id ≠ none := by
    rw [ne_eq, AList.entries_eq_nil_iff, not_forall]
  have hall : (∀ id c, s.clients.lookup id = some c →
      c.helloReceived = true ∧ c.sensitive = some false) ↔
        ∀ e ∈ s.clients.entries, e.2.helloReceived = true ∧ e.2.sensitive = some false :=
    (AList.forall_entries_iff (P := fun e : Entry =>
      e.2.helloReceived = true ∧ e.2.sensitive = some false)).symm
  rw [← hne, hall]
  unfold mode
  cases he : s.enabled with
  | false => simp
  | true =>
    cases hl : s.untrustedFailureLatched with
    | true => simp
    | false =>
      by_cases hd : s.disconnectedClients = 0
      · cases hn : s.clients.entries with
        | nil => simp [hd]
        | cons e l =>
          rw [← hn]
          simp [hd, hn, aggregate_eq_safe_iff]
      · simp [hd, Nat.pos_of_ne_zero hd]

end PrivacyState

end PrivacyGuard
