import PrivacyGuard.State.Operations

/-! # Identifiers and the failure counter do not wrap

As long as fewer openings than values of a word have been made, identifiers are
handed out once, in increasing order, and the failure counter stays below the
number of openings: every counted failure used up a connection of its own.
-/

namespace PrivacyGuard

namespace PrivacyState

/-- The state after `n` openings: identifiers up to `n` are in use. -/
structure Counted (n : ℕ) (s : PrivacyState) : Prop where
  next : s.nextConnectionId = (n + 1) % wordSize
  keys : ∀ id c, s.clients.lookup id = some c → id ≤ n
  total : s.disconnectedClients + s.clients.entries.length ≤ n

variable {n : ℕ} {s : PrivacyState}

theorem Counted.next_eq (hc : Counted n s) (hn : n + 1 < wordSize) :
    s.nextConnectionId = n + 1 := by
  rw [hc.next, Nat.mod_eq_of_lt hn]

theorem Counted.next_fresh (hc : Counted n s) (hn : n + 1 < wordSize) :
    s.clients.lookup s.nextConnectionId = none := by
  cases hl : s.clients.lookup s.nextConnectionId with
  | none => rfl
  | some c =>
    have := hc.keys _ _ hl
    rw [hc.next_eq hn] at this
    omega

theorem Counted.of_le {s' : PrivacyState} (hc : Counted n s)
    (hnext : s'.nextConnectionId = s.nextConnectionId)
    (hkeys : ∀ id ∈ s'.clients.keys, id ∈ s.clients.keys)
    (htotal : s'.disconnectedClients + s'.clients.entries.length ≤
      s.disconnectedClients + s.clients.entries.length) : Counted n s' where
  next := by rw [hnext, hc.next]
  keys id c hl := by
    have hm : id ∈ s'.clients.keys := AList.mem_keys.mp (AList.lookup_isSome.mp (by simp [hl]))
    obtain ⟨c', hc'⟩ := Option.isSome_iff_exists.mp
      (AList.lookup_isSome.mpr (AList.mem_keys.mpr (hkeys id hm)))
    exact hc.keys id c' hc'
  total := Nat.le_trans htotal hc.total

theorem length_entries_eq_keys (t : Clients) : t.entries.length = t.keys.length := by
  simp [AList.keys, List.keys]

@[simp] theorem length_replace (t : Clients) (id : ℕ) (c : Client) :
    (t.replace id c).entries.length = t.entries.length := by
  rw [length_entries_eq_keys, AList.keys_replace, length_entries_eq_keys]

@[simp] theorem length_mapVal (t : Clients) (f : ℕ → Client → Client) :
    (t.mapVal f).entries.length = t.entries.length := by
  simp [AList.mapVal]

theorem mem_keys_of_mem_erase {t : Clients} {id other : ℕ}
    (h : other ∈ (t.erase id).keys) : other ∈ t.keys := by
  rw [AList.keys_erase] at h
  exact List.mem_of_mem_erase h

theorem length_expired_add_kept (s : PrivacyState) (now : ℤ) :
    (s.expiredEntries now).length +
      (s.clients.filter fun e => !s.expired now e.2).entries.length =
        s.clients.entries.length := by
  rw [expiredEntries, AList.entries_filter, ← List.countP_eq_length_filter,
    ← List.countP_eq_length_filter]
  have := List.length_eq_countP_add_countP (fun e => s.expired now e.2) (l := s.clients.entries)
  simpa [Bool.not_eq_true] using this.symm

/-- The failures a tick counts, and the counter after them when it does not wrap. -/
theorem Counted.tick_disconnectedClients (hc : Counted n s) (hn : n < wordSize)
    (now : ℤ) :
    (s.tick now).disconnectedClients =
      s.disconnectedClients + (s.expiredEntries now).countP fun e => e.2.sensitive.isSome := by
  rw [tick_eq]
  apply increment_iterate
  have hle := List.countP_le_length (p := fun e => e.2.sensitive.isSome)
    (l := s.expiredEntries now)
  have := s.length_expired_add_kept now
  have := hc.total
  omega

theorem Counted.removeFailed_disconnectedClients {id : ℕ} {c : Client}
    (hc : Counted n s) (hn : n < wordSize) (hl : s.clients.lookup id = some c) :
    (s.removeFailed id).disconnectedClients =
      s.disconnectedClients + if c.sensitive.isSome then 1 else 0 := by
  have hlen := AList.length_erase_add_one hl
  have := hc.total
  rw [removeFailed_of_some hl]
  simp only [recordConnectionFailure_disconnectedClients]
  split
  · exact increment_of_lt (by omega)
  · rfl

theorem Counted.removeFailed (hc : Counted n s) (hn : n < wordSize) (id : ℕ) :
    Counted n (s.removeFailed id) := by
  cases hl : s.clients.lookup id with
  | none => rwa [removeFailed_of_none hl]
  | some c =>
    have hd := hc.removeFailed_disconnectedClients hn hl
    have hlen := AList.length_erase_add_one hl
    refine hc.of_le ?_ ?_ ?_
    · simp [removeFailed_of_some hl]
    · intro other ho
      rw [removeFailed_of_some hl] at ho
      exact mem_keys_of_mem_erase ho
    · rw [hd]
      simp only [removeFailed_of_some hl]
      split <;> omega

theorem Counted.tick (hc : Counted n s) (hn : n < wordSize) (now : ℤ) :
    Counted n (s.tick now) := by
  have hd := hc.tick_disconnectedClients hn now
  have hlen := s.length_expired_add_kept now
  have hle := List.countP_le_length (p := fun e => e.2.sensitive.isSome)
    (l := s.expiredEntries now)
  refine hc.of_le (by simp [tick_eq]) ?_ ?_
  · intro id hid
    rw [tick_eq] at hid
    exact (List.filter_sublist.map Sigma.fst).subset hid
  · rw [hd]
    simp only [tick_eq]
    omega

theorem Counted.perform (hc : Counted n s) (op : Op) (hn : n + opens op < wordSize) :
    Counted (n + opens op) (s.perform op).1 := by
  cases op with
  | connectionOpened now =>
    have hfresh := hc.next_fresh hn
    have hnot : s.nextConnectionId ∉ s.clients := AList.lookup_eq_none.mp hfresh
    simp only [PrivacyState.perform, connectionOpened_of_fresh hfresh, opens]
    have hnext := hc.next_eq hn
    constructor
    · simp only [hnext, increment]
    · intro id c hl
      by_cases hid : id = s.nextConnectionId
      · omega
      · rw [AList.lookup_insert_ne hid] at hl
        have := hc.keys id c hl
        omega
    · have := hc.total
      simp only [AList.entries_insert_of_notMem hnot, List.length_cons]
      omega
  | helloReceived id clientId now =>
    rcases s.helloReceived_cases id clientId now with h | ⟨c, -, -, -, h⟩
    · rw [PrivacyState.perform, h]; exact hc
    · simp only [PrivacyState.perform, h]
      exact hc.of_le rfl (by simp) (by simp)
  | stateReceived id sequence sensitive now =>
    rcases s.stateReceived_cases id sequence sensitive now with h | ⟨c, -, -, -, h⟩
    · rw [PrivacyState.perform, h]; exact hc
    · simp only [PrivacyState.perform, h, publishState]
      refine hc.of_le rfl (by simp) ?_
      simp only [length_replace]
      split <;> omega
  | goodbyeReceived id =>
    rcases s.goodbyeReceived_cases id with h | ⟨c, hl, -, h⟩
    · rw [PrivacyState.perform, h]; exact hc
    · simp only [PrivacyState.perform, h]
      have := AList.length_erase_add_one hl
      exact hc.of_le rfl (fun _ => mem_keys_of_mem_erase) (by simp only; omega)
  | protocolError id => exact hc.removeFailed hn id
  | connectionClosed id => exact hc.removeFailed hn id
  | tick now => exact hc.tick hn now
  | setEnabled b =>
    simp only [PrivacyState.perform, setEnabled]
    split
    · exact hc
    · split
      · exact hc.of_le rfl (by simp) (by simp)
      · exact hc.of_le rfl (fun _ h => h) le_rfl

theorem counted_init (timeout : ℤ) : Counted 0 (init timeout) where
  next := rfl
  keys id c hl := by simp [init] at hl
  total := Nat.le_refl 0

/-- What every call preserves, counting openings, holds after a run that does not wrap. -/
theorem execFrom_invariant {R : ℕ → List Event → PrivacyState → Prop}
    (step : ∀ n h s op, R n h s → n + opens op < wordSize →
      R (n + opens op) ((op, (s.perform op).2) :: h) (s.perform op).1)
    {n : ℕ} {h : List Event} {s : PrivacyState} (hR : R n h s) (ops : List Op)
    (hn : n + openings ops < wordSize) :
    R (n + openings ops) (execFrom s h ops).2 (execFrom s h ops).1 := by
  induction ops generalizing n h s with
  | nil => exact hR
  | cons op ops ih =>
    simp only [openings, List.map_cons, List.sum_cons] at hn ⊢
    rw [← Nat.add_assoc] at hn ⊢
    exact ih (step n h s op hR (by omega)) hn

theorem Counted.execFrom {n : ℕ} {s : PrivacyState} (hc : Counted n s) (h : List Event)
    (ops : List Op) (hn : n + openings ops < wordSize) :
    Counted (n + openings ops) (execFrom s h ops).1 :=
  execFrom_invariant (R := fun n _ s => Counted n s) (fun _ _ _ op hc => hc.perform op) hc ops hn

theorem counted_exec (timeout : ℤ) (ops : List Op) (hn : openings ops < wordSize) :
    Counted (openings ops) (exec timeout ops).1 := by
  have h := (counted_init timeout).execFrom [] ops (by omega)
  rwa [Nat.zero_add] at h

theorem openings_append (ops ops' : List Op) :
    openings (ops ++ ops') = openings ops + openings ops' := by
  simp [openings]

end PrivacyState

end PrivacyGuard
