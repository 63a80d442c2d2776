import PrivacyGuard.State.Numbering

/-! # Where a record can come from

Every client record after a call is one from before, or the record that the call
itself opened, greeted, published or re-armed. Invariants of single records
follow by cases on this.
-/

namespace PrivacyGuard

namespace PrivacyState

inductive ClientStep (s : PrivacyState) (op : Op) (id : ℕ) (c' : Client) : Prop
  | kept (lookup : s.clients.lookup id = some c')
  | opened (now : ℤ) (op_eq : op = .connectionOpened now) (id_eq : id = s.nextConnectionId)
      (lookup : s.clients.lookup id = none) (record : c' = { lastUpdate := now })
  | greeted (c : Client) (clientId : Bytes) (now : ℤ) (op_eq : op = .helloReceived id clientId now)
      (lookup : s.clients.lookup id = some c) (pending : c.helloReceived = false)
      (unique : s.duplicateIdentity id clientId = false) (record : c' = c.greet clientId now)
  | published (c : Client) (sequence : UInt64) (sensitive : Bool) (now : ℤ)
      (op_eq : op = .stateReceived id sequence sensitive now)
      (lookup : s.clients.lookup id = some c) (greeted : c.helloReceived = true)
      (accepts : c.Accepts sequence) (record : c' = c.publish sequence sensitive now)
  | rearmed (c : Client) (op_eq : op = .setEnabled true) (disabled : s.enabled = false)
      (lookup : s.clients.lookup id = some c) (record : c' = { c with sensitive := none })

variable {s : PrivacyState} {op : Op} {id : ℕ} {c' : Client}

theorem lookup_replace_cases {t : Clients} {other : ℕ} {c d : Client}
    (hl : t.lookup other = some d) (h : (t.replace other c).lookup id = some c') :
    (id = other ∧ c' = c) ∨ t.lookup id = some c' := by
  by_cases hid : id = other
  · subst hid
    rw [AList.lookup_replace (AList.lookup_isSome.mp (by simp [hl]))] at h
    exact Or.inl ⟨rfl, (Option.some.inj h).symm⟩
  · rw [AList.lookup_replace_ne hid] at h
    exact Or.inr h

theorem removeFailed_lookup {other : ℕ}
    (h : (s.removeFailed other).clients.lookup id = some c') :
    s.clients.lookup id = some c' := by
  cases hl : s.clients.lookup other with
  | none => rwa [removeFailed_of_none hl] at h
  | some c =>
    rw [removeFailed_of_some hl] at h
    exact (AList.lookup_erase_eq_some.mp h).2

theorem perform_client (h : (s.perform op).1.clients.lookup id = some c') :
    ClientStep s op id c' := by
  cases op with
  | connectionOpened now =>
    simp only [perform, connectionOpened] at h
    split at h
    · exact .kept h
    · rename_i hn
      by_cases hid : id = s.nextConnectionId
      · subst hid
        rw [AList.lookup_insert] at h
        exact .opened now rfl rfl (AList.lookup_eq_none.mpr hn) (Option.some.inj h).symm
      · rw [AList.lookup_insert_ne hid] at h
        exact .kept h
  | helloReceived other clientId now =>
    rcases s.helloReceived_cases other clientId now with hg | ⟨c, hl, hh, hd, hg⟩
    · simp only [perform, hg] at h
      exact .kept h
    · simp only [perform, hg] at h
      rcases lookup_replace_cases hl h with ⟨rfl, rfl⟩ | hk
      · exact .greeted c clientId now rfl hl hh hd rfl
      · exact .kept hk
  | stateReceived other sequence sensitive now =>
    rcases s.stateReceived_cases other sequence sensitive now with hg | ⟨c, hl, hh, ha, hg⟩
    · simp only [perform, hg] at h
      exact .kept h
    · simp only [perform, hg] at h
      rcases lookup_replace_cases hl h with ⟨rfl, rfl⟩ | hk
      · exact .published c sequence sensitive now rfl hl hh ha rfl
      · exact .kept hk
  | goodbyeReceived other =>
    rcases s.goodbyeReceived_cases other with hg | ⟨c, -, -, hg⟩
    · simp only [perform, hg] at h
      exact .kept h
    · simp only [perform, hg] at h
      exact .kept (AList.lookup_erase_eq_some.mp h).2
  | protocolError other => exact .kept (removeFailed_lookup h)
  | connectionClosed other => exact .kept (removeFailed_lookup h)
  | tick now =>
    simp only [perform, tick_eq] at h
    exact .kept (AList.lookup_filter_eq_some.mp h).1
  | setEnabled b =>
    simp only [perform, setEnabled] at h
    split at h
    · exact .kept h
    · rename_i hb
      split at h
      · rename_i ht
        rw [AList.lookup_mapVal] at h
        obtain ⟨c, hc, rfl⟩ := Option.map_eq_some_iff.mp h
        exact .rearmed c (by rw [ht]) (by simpa [ht] using hb) hc rfl
      · exact .kept h

theorem perform_enabled (s : PrivacyState) (op : Op) :
    (s.perform op).1.enabled = match op with
      | .setEnabled b => b
      | _ => s.enabled := by
  cases op with
  | connectionOpened now => rfl
  | helloReceived id clientId now =>
    rcases s.helloReceived_cases id clientId now with h | ⟨c, -, -, -, h⟩ <;> simp [perform, h]
  | stateReceived id sequence sensitive now =>
    rcases s.stateReceived_cases id sequence sensitive now with h | ⟨c, -, -, -, h⟩ <;>
      simp [perform, h, publishState]
  | goodbyeReceived id =>
    rcases s.goodbyeReceived_cases id with h | ⟨c, -, -, h⟩ <;> simp [perform, h]
  | protocolError id => exact removeFailed_enabled s id
  | connectionClosed id => exact removeFailed_enabled s id
  | tick now => simp [perform, tick_eq]
  | setEnabled b =>
    simp only [perform, setEnabled]
    split
    · assumption
    · split <;> rfl

theorem perform_livenessTimeout (s : PrivacyState) (op : Op) :
    (s.perform op).1.livenessTimeout = s.livenessTimeout := by
  cases op with
  | connectionOpened now => rfl
  | helloReceived id clientId now =>
    rcases s.helloReceived_cases id clientId now with h | ⟨c, -, -, -, h⟩ <;> simp [perform, h]
  | stateReceived id sequence sensitive now =>
    rcases s.stateReceived_cases id sequence sensitive now with h | ⟨c, -, -, -, h⟩ <;>
      simp [perform, h, publishState]
  | goodbyeReceived id =>
    rcases s.goodbyeReceived_cases id with h | ⟨c, -, -, h⟩ <;> simp [perform, h]
  | protocolError id => exact removeFailed_livenessTimeout s id
  | connectionClosed id => exact removeFailed_livenessTimeout s id
  | tick now => simp [perform, tick_eq]
  | setEnabled b =>
    simp only [perform, setEnabled]
    split
    · rfl
    · split <;> rfl

theorem execFrom_livenessTimeout (s : PrivacyState) (h : List Event) (ops : List Op) :
    (execFrom s h ops).1.livenessTimeout = s.livenessTimeout := by
  induction ops generalizing s h with
  | nil => rfl
  | cons op ops ih => exact (ih _ _).trans (s.perform_livenessTimeout op)

/-! ### Runs in parts -/

theorem execFrom_append (s : PrivacyState) (h : List Event) (ops ops' : List Op) :
    execFrom s h (ops ++ ops') = execFrom (execFrom s h ops).1 (execFrom s h ops).2 ops' := by
  induction ops generalizing s h with
  | nil => rfl
  | cons op ops ih => exact ih _ _

theorem execFrom_eq (s : PrivacyState) (h : List Event) (ops : List Op) :
    execFrom s h ops = ((execFrom s [] ops).1, (execFrom s [] ops).2 ++ h) := by
  induction ops generalizing s h with
  | nil => rfl
  | cons op ops ih =>
    simp only [execFrom]
    rw [ih _ (_ :: h), ih _ [_]]
    simp

theorem exec_append (timeout : ℤ) (ops ops' : List Op) :
    exec timeout (ops ++ ops') =
      ((execFrom (exec timeout ops).1 [] ops').1,
        (execFrom (exec timeout ops).1 [] ops').2 ++ (exec timeout ops).2) := by
  rw [exec, execFrom_append, execFrom_eq]
  rfl

theorem execFrom_concat (s : PrivacyState) (ops : List Op) (op : Op) :
    execFrom s [] (ops ++ [op]) =
      (((execFrom s [] ops).1.perform op).1,
        (op, ((execFrom s [] ops).1.perform op).2) :: (execFrom s [] ops).2) := by
  rw [execFrom_append]; rfl

end PrivacyState

/-- A record before the handshake is blank, and a recorded flag comes with a sequence. -/
structure Client.WellFormed (c : Client) : Prop where
  blank : c.helloReceived = false →
    c.clientId = [] ∧ c.lastSequence = none ∧ c.sensitive = none
  sequenced : c.sensitive ≠ none → c.lastSequence ≠ none

namespace PrivacyState

def RecordsWellFormed (s : PrivacyState) : Prop :=
  ∀ (id : ℕ) (c : Client), s.clients.lookup id = some c → c.WellFormed

variable {s : PrivacyState}

theorem RecordsWellFormed.perform (hs : s.RecordsWellFormed) (op : Op) :
    (s.perform op).1.RecordsWellFormed := by
  intro id c' h
  cases perform_client h with
  | kept hl => exact hs id c' hl
  | opened now _ _ _ record => subst record; exact ⟨by simp, by simp⟩
  | greeted c clientId now _ hl _ _ record =>
    subst record
    exact ⟨by simp [Client.greet], (hs id c hl).sequenced⟩
  | published c sequence sensitive now _ _ hh _ record =>
    subst record
    exact ⟨by simp [Client.publish, hh], by simp [Client.publish]⟩
  | rearmed c _ _ hl record =>
    subst record
    refine ⟨fun hh => ?_, by simp⟩
    obtain ⟨hid, hseq, -⟩ := (hs id c hl).blank hh
    exact ⟨hid, hseq, rfl⟩

theorem RecordsWellFormed.execFrom (hs : s.RecordsWellFormed) (h : List Event) (ops : List Op) :
    (execFrom s h ops).1.RecordsWellFormed := by
  induction ops generalizing s h with
  | nil => exact hs
  | cons op ops ih => exact ih (hs.perform op) _

theorem recordsWellFormed_exec (timeout : ℤ) (ops : List Op) :
    (exec timeout ops).1.RecordsWellFormed := by
  apply RecordsWellFormed.execFrom
  intro id c hl
  simp [init] at hl

end PrivacyState

end PrivacyGuard
