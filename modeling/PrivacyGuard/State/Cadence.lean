import PrivacyGuard.State.Operations

/-! # Traversal orders and the cadence of ticks

The client map is unordered: the loops of `tick` and `mode` may visit its entries in any
order. Here they run over an arbitrary order, and neither result depends on it. A tick does
to the state what its time alone prescribes, so an earlier tick changes nothing of it.
-/

namespace PrivacyGuard

namespace PrivacyState

/-- An order in which a loop over the client map can visit the entries. -/
def Traverses (order : List Entry) (s : PrivacyState) : Prop := order.Perm s.clients.entries

def tickOver (order : List Entry) (s : PrivacyState) (now : ℤ) : PrivacyState :=
  order.foldl (tickEntry now) s

def modeOver (order : List Entry) (s : PrivacyState) : Mode :=
  if !s.enabled then .disabled
  else if s.untrustedFailureLatched || decide (0 < s.disconnectedClients) then .disconnected
  else if order.isEmpty then .awaitingConnection
  else aggregate false order

variable {s : PrivacyState} {order : List Entry} {now t₁ t₂ : ℤ}

/-! ### No order matters -/

theorem tickOver_eq_tick (h : Traverses order s) (now : ℤ) : s.tickOver order now = s.tick now := by
  have hexpired : (order.filter fun e => s.expired now e.2).Perm (s.expiredEntries now) :=
    h.filter _
  rw [tickOver, foldl_tickEntry, AList.eraseAll_of_mem_iff _ fun e => h.mem_iff,
    hexpired.countP_eq, hexpired.any_eq, tick_eq]

/-- The loop stops at an entry without an explicit state, wherever it stands; otherwise it
finds a sensitive one if there is any. -/
theorem aggregate_eq (anySensitive : Bool) (l : List Entry) :
    aggregate anySensitive l =
      if l.all fun e => e.2.helloReceived && e.2.sensitive.isSome then
        if anySensitive || l.any fun e => e.2.sensitive == some true then .sensitive else .safe
      else .awaitingConnection := by
  induction l generalizing anySensitive with
  | nil => simp [aggregate]
  | cons e l ih =>
    cases hh : e.2.helloReceived with
    | false => simp [aggregate, hh]
    | true =>
      cases hs : e.2.sensitive with
      | none => simp [aggregate, hh, hs]
      | some flag =>
        have hflag : (e.2.sensitive == some true) = flag := by rw [hs]; cases flag <;> rfl
        simp only [aggregate, hh, hs]
        rw [ih, List.all_cons, List.any_cons, hflag, hh, hs, Bool.or_assoc]
        rfl

theorem modeOver_eq_mode (h : Traverses order s) : s.modeOver order = s.mode := by
  rw [modeOver, mode, aggregate_eq, aggregate_eq, h.all_eq, h.any_eq, h.isEmpty_eq]

/-! ### What a tick does -/

/-- The connections that a tick removes and counts: silent ones with a recorded state. -/
def countedAt (s : PrivacyState) (now : ℤ) : Finset ℕ :=
  s.clients.keys.toFinset.filter fun id =>
    (s.clients.lookup id).any fun c => s.expired now c && c.sensitive.isSome

theorem mem_countedAt {id : ℕ} : id ∈ s.countedAt now ↔
    ∃ c, s.clients.lookup id = some c ∧ now - c.lastUpdate > s.livenessTimeout ∧
      c.sensitive ≠ none := by
  rw [countedAt, Finset.mem_filter, List.mem_toFinset, ← AList.mem_keys, ← AList.lookup_isSome,
    Option.any_eq_true, Option.isSome_iff_exists]
  simp only [expired, Bool.and_eq_true, decide_eq_true_eq, Option.isSome_iff_ne_none]
  constructor
  · rintro ⟨-, c, h⟩; exact ⟨c, h⟩
  · rintro ⟨c, h⟩; exact ⟨⟨c, h.1⟩, c, h⟩

theorem card_countedAt (s : PrivacyState) (now : ℤ) :
    (s.countedAt now).card = (s.expiredEntries now).countP fun e => e.2.sensitive.isSome := by
  rw [countedAt,
    AList.card_filter_keys (fun e : Entry => s.expired now e.2 && e.2.sensitive.isSome),
    expiredEntries, List.countP_filter]
  simp only [Bool.and_comm]

structure TickEffect (s : PrivacyState) (now : ℤ) (s' : PrivacyState) : Prop where
  kept : ∀ id c, s'.clients.lookup id = some c ↔
    s.clients.lookup id = some c ∧ now - c.lastUpdate ≤ s.livenessTimeout
  /-- The counter is a 64-bit word. -/
  counted : s'.disconnectedClients = increment^[(s.countedAt now).card] s.disconnectedClients
  counted_of_lt : s.disconnectedClients + (s.countedAt now).card < wordSize →
    s'.disconnectedClients = s.disconnectedClients + (s.countedAt now).card
  latched : s'.untrustedFailureLatched = true ↔
    s.untrustedFailureLatched = true ∨
      ∃ id c, s.clients.lookup id = some c ∧ now - c.lastUpdate > s.livenessTimeout ∧
        c.sensitive = none
  livenessTimeout : s'.livenessTimeout = s.livenessTimeout
  nextConnectionId : s'.nextConnectionId = s.nextConnectionId
  enabled : s'.enabled = s.enabled

theorem tickEffect_tick (s : PrivacyState) (now : ℤ) : TickEffect s now (s.tick now) := by
  have hcounted : (s.tick now).disconnectedClients =
      increment^[(s.countedAt now).card] s.disconnectedClients := by
    rw [tick_eq, card_countedAt]
  constructor
  case kept =>
    intro id c
    rw [tick_eq, AList.lookup_filter_eq_some]
    simp [expired]
  case counted => exact hcounted
  case counted_of_lt =>
    intro h
    rw [hcounted, increment_iterate h]
  case latched =>
    rw [tick_eq, Bool.or_eq_true, List.any_eq_true]
    simp only [expiredEntries, List.mem_filter, and_assoc]
    rw [AList.exists_entries_iff (P := fun e : Entry =>
      s.expired now e.2 = true ∧ (!e.2.sensitive.isSome) = true)]
    simp [expired]
  case livenessTimeout => rw [tick_eq]
  case nextConnectionId => rw [tick_eq]
  case enabled => rw [tick_eq]

/-! ### An earlier tick is absorbed -/

theorem expired_tick (s : PrivacyState) (t₁ t₂ : ℤ) (c : Client) :
    (s.tick t₁).expired t₂ c = s.expired t₂ c := by
  simp [expired, tick_eq]

theorem expired_of_le (ht : t₁ ≤ t₂) {c : Client} (h : s.expired t₁ c = true) :
    s.expired t₂ c = true := by
  simp only [expired, decide_eq_true_eq] at h ⊢
  omega

/-- What the later tick would remove is what both remove, one after the other. -/
theorem expiredEntries_perm (ht : t₁ ≤ t₂) :
    (s.expiredEntries t₁ ++ (s.tick t₁).expiredEntries t₂).Perm (s.expiredEntries t₂) := by
  have hfirst : (s.expiredEntries t₂).filter (fun e => s.expired t₁ e.2) = s.expiredEntries t₁ := by
    rw [expiredEntries, expiredEntries, List.filter_filter]
    refine List.filter_congr fun e _ => ?_
    rw [Bool.eq_iff_iff, Bool.and_eq_true]
    exact ⟨fun h => h.1, fun h => ⟨h, expired_of_le ht h⟩⟩
  have hsecond : (s.expiredEntries t₂).filter (fun e => !s.expired t₁ e.2) =
      (s.tick t₁).expiredEntries t₂ := by
    simp only [expiredEntries, expired_tick]
    rw [tick_eq, AList.entries_filter, List.filter_filter, List.filter_filter]
    simp only [Bool.and_comm]
  rw [← hfirst, ← hsecond]
  exact List.filter_append_perm _ _

/-- A tick absorbs every earlier one. -/
theorem tick_tick (ht : t₁ ≤ t₂) : (s.tick t₁).tick t₂ = s.tick t₂ := by
  have hperm := expiredEntries_perm (s := s) ht
  have hclients :
      (s.clients.filter fun e => !s.expired t₁ e.2).filter (fun e => !s.expired t₂ e.2) =
        s.clients.filter fun e => !s.expired t₂ e.2 := by
    apply AList.ext
    simp only [AList.entries_filter, List.filter_filter]
    refine List.filter_congr fun e _ => ?_
    rw [Bool.eq_iff_iff]
    simp only [Bool.and_eq_true, Bool.not_eq_true', Bool.eq_false_iff, ne_eq]
    exact ⟨fun h => h.1, fun h => ⟨h, mt (expired_of_le ht) h⟩⟩
  rw [tick_eq (s.tick t₁) t₂, tick_eq s t₂]
  simp only [expired_tick]
  rw [← hperm.countP_eq, ← hperm.any_eq, List.countP_append, Nat.add_comm,
    Function.iterate_add_apply, List.any_append, ← Bool.or_assoc, ← hclients, tick_eq s t₁]

/-- Whatever the orders of the loops, the later tick does what its time prescribes, an
earlier tick leaves no trace, and `mode` has one value. -/
structure Cadenced (s : PrivacyState) (t₁ t₂ : ℤ) : Prop where
  effect : ∀ order, Traverses order s → TickEffect s t₂ (s.tickOver order t₂)
  absorbed : ∀ order₁ order₂ order, Traverses order₁ s →
    Traverses order₂ (s.tickOver order₁ t₁) → Traverses order s →
      (s.tickOver order₁ t₁).tickOver order₂ t₂ = s.tickOver order t₂
  mode : ∀ order order', Traverses order s → Traverses order' s →
    s.modeOver order = s.modeOver order'

theorem cadenced_of_le (s : PrivacyState) {t₁ t₂ : ℤ} (ht : t₁ ≤ t₂) : Cadenced s t₁ t₂ := by
  constructor
  case effect =>
    intro order h
    rw [tickOver_eq_tick h]
    exact tickEffect_tick s t₂
  case absorbed =>
    intro order₁ order₂ order h₁ h₂ h
    rw [tickOver_eq_tick h₂, tickOver_eq_tick h₁, tickOver_eq_tick h, tick_tick ht]
  case mode =>
    intro order order' h h'
    rw [modeOver_eq_mode h, modeOver_eq_mode h']

theorem cadenced_twoSilent :
    Cadenced (((init 15).connectionOpened 0).1.connectionOpened 10).1 20 30 :=
  cadenced_of_le _ (by decide)

end PrivacyState

end PrivacyGuard
