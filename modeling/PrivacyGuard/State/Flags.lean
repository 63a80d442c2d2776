import PrivacyGuard.State.Lifetime

/-! # Flags choose between safe and sensitive only

Whether a record has a flag drives the accounting of failures, recovery and
aggregation; which flag it has decides nothing but the choice between the safe and
the sensitive mode. Forgetting the values of all flags commutes with every call.
-/

namespace PrivacyGuard

open History

/-- Forget which flag a record has, but not whether it has one. -/
def Client.blind (c : Client) : Client := { c with sensitive := c.sensitive.map fun _ => false }

def Op.blind : Op → Op
  | .stateReceived connectionId sequence _ now => .stateReceived connectionId sequence false now
  | op => op

def blindCall (e : Event) : Event := (e.1.blind, e.2)

def PrivacyState.blind (s : PrivacyState) : PrivacyState :=
  { s with clients := s.clients.mapVal fun _ client => client.blind }

namespace Client

variable (c : Client)

@[simp] theorem blind_isSome : c.blind.sensitive.isSome = c.sensitive.isSome := by
  simp [blind]

@[simp] theorem blind_helloReceived : c.blind.helloReceived = c.helloReceived := rfl

theorem blind_greet (clientId : Bytes) (now : ℤ) :
    (c.greet clientId now).blind = c.blind.greet clientId now := rfl

theorem blind_publish (sequence : UInt64) (sensitive : Bool) (now : ℤ) :
    (c.publish sequence sensitive now).blind = c.blind.publish sequence false now := rfl

end Client

namespace PrivacyState

/-! ### Forgetting flags commutes with every call -/

section Blind

variable (s : PrivacyState) (id : ℕ)

@[simp] theorem blind_lookup :
    s.blind.clients.lookup id = (s.clients.lookup id).map Client.blind :=
  AList.lookup_mapVal _ _ _

theorem mem_blind : id ∈ s.blind.clients ↔ id ∈ s.clients := AList.mem_mapVal

theorem blind_duplicateIdentity (clientId : Bytes) :
    s.blind.duplicateIdentity id clientId = s.duplicateIdentity id clientId := by
  rw [duplicateIdentity, duplicateIdentity, blind, AList.entries_mapVal, List.any_map]
  rfl

theorem blind_recordConnectionFailure (c : Client) :
    s.blind.recordConnectionFailure c.blind = (s.recordConnectionFailure c).blind := by
  rw [recordConnectionFailure, recordConnectionFailure, Client.blind_isSome]
  split <;> rfl

theorem blind_connectionOpened (now : ℤ) :
    s.blind.connectionOpened now =
      ((s.connectionOpened now).1.blind, (s.connectionOpened now).2) := by
  have hnext : s.blind.nextConnectionId = s.nextConnectionId := rfl
  simp only [connectionOpened, mem_blind, hnext]
  split
  · rfl
  · simp only [blind, AList.mapVal_insert]
    rfl

theorem blind_helloReceived (clientId : Bytes) (now : ℤ) :
    s.blind.helloReceived id clientId now =
      ((s.helloReceived id clientId now).1.blind, (s.helloReceived id clientId now).2) := by
  rcases s.helloReceived_cases id clientId now with h | ⟨c, hl, hh, hd, h⟩
  · rcases s.blind.helloReceived_cases id clientId now with hb | ⟨c', hl', hh', hd', -⟩
    · rw [h, hb]
    · rw [blind_lookup, Option.map_eq_some_iff] at hl'
      obtain ⟨c, hl, rfl⟩ := hl'
      rw [blind_duplicateIdentity] at hd'
      rw [helloReceived_of_fresh hl hh' hd'] at h
      simp at h
  · rw [h, helloReceived_of_fresh (c := c.blind) (by simp [hl]) hh
      ((s.blind_duplicateIdentity id clientId).trans hd), ← Client.blind_greet]
    simp only [blind, AList.mapVal_replace]

theorem blind_stateReceived (sequence : UInt64) (sensitive : Bool) (now : ℤ) :
    s.blind.stateReceived id sequence false now =
      ((s.stateReceived id sequence sensitive now).1.blind,
        (s.stateReceived id sequence sensitive now).2) := by
  rcases s.stateReceived_cases id sequence sensitive now with h | ⟨c, hl, hh, ha, h⟩
  · rcases s.blind.stateReceived_cases id sequence false now with hb | ⟨c', hl', hh', ha', -⟩
    · rw [h, hb]
    · rw [blind_lookup, Option.map_eq_some_iff] at hl'
      obtain ⟨c, hl, rfl⟩ := hl'
      rw [stateReceived_of_accepts hl hh' ha'] at h
      simp at h
  · rw [h, stateReceived_of_accepts (c := c.blind) (by simp [hl]) hh ha]
    simp only [publishState, Client.blind_isSome, ← Client.blind_publish c sequence sensitive now]
    simp only [blind, AList.mapVal_replace]

theorem blind_goodbyeReceived :
    s.blind.goodbyeReceived id = ((s.goodbyeReceived id).1.blind, (s.goodbyeReceived id).2) := by
  rcases s.goodbyeReceived_cases id with h | ⟨c, hl, hh, h⟩
  · rcases s.blind.goodbyeReceived_cases id with hb | ⟨c', hl', hh', -⟩
    · rw [h, hb]
    · rw [blind_lookup, Option.map_eq_some_iff] at hl'
      obtain ⟨c, hl, rfl⟩ := hl'
      rw [Client.blind_helloReceived] at hh'
      simp [goodbyeReceived, hl, hh'] at h
  · rw [h]
    simp only [goodbyeReceived, blind_lookup, hl, Option.map_some, Client.blind_helloReceived, hh]
    simp only [blind, AList.mapVal_erase]
    rfl

theorem blind_removeFailed : s.blind.removeFailed id = (s.removeFailed id).blind := by
  cases hl : s.clients.lookup id with
  | none => rw [removeFailed_of_none hl, removeFailed_of_none (by simp [hl])]
  | some c =>
    rw [removeFailed_of_some hl, removeFailed_of_some (c := c.blind) (by simp [hl]),
      blind_recordConnectionFailure]
    simp only [blind, AList.mapVal_erase]

theorem blind_expiredEntries (now : ℤ) :
    s.blind.expiredEntries now =
      (s.expiredEntries now).map fun e => ⟨e.1, e.2.blind⟩ := by
  rw [expiredEntries, blind, AList.entries_mapVal, List.filter_map]
  rfl

theorem blind_tick (now : ℤ) : s.blind.tick now = (s.tick now).blind := by
  rw [tick_eq, tick_eq, blind_expiredEntries, List.countP_map, List.any_map]
  simp only [Function.comp_def, Client.blind_isSome]
  simp only [blind, AList.mapVal_filter]
  rfl

theorem blind_setEnabled (b : Bool) : s.blind.setEnabled b = (s.setEnabled b).blind := by
  have hen : s.blind.enabled = s.enabled := rfl
  simp only [setEnabled, hen]
  split
  · rfl
  · split
    · simp only [blind, AList.mapVal_mapVal]
      rfl
    · rfl

/-- Forgetting all flags commutes with every call, and no answer depends on a flag. -/
theorem blind_perform (op : Op) :
    s.blind.perform op.blind = ((s.perform op).1.blind, (s.perform op).2) := by
  cases op with
  | connectionOpened now => simp only [Op.blind, perform, blind_connectionOpened]
  | helloReceived id clientId now => simp only [Op.blind, perform, blind_helloReceived]
  | stateReceived id sequence sensitive now =>
    simp only [Op.blind, perform, s.blind_stateReceived id sequence sensitive now]
  | goodbyeReceived id => simp only [Op.blind, perform, blind_goodbyeReceived]
  | protocolError id =>
    simp only [Op.blind, perform, protocolError, blind_removeFailed]
  | connectionClosed id =>
    simp only [Op.blind, perform, connectionClosed, blind_removeFailed]
  | tick now => simp only [Op.blind, perform, blind_tick]
  | setEnabled b => simp only [Op.blind, perform, blind_setEnabled]

end Blind

theorem blind_execFrom (s : PrivacyState) (h : List Event) (ops : List Op) :
    execFrom s.blind (h.map blindCall) (ops.map Op.blind) =
      ((execFrom s h ops).1.blind, (execFrom s h ops).2.map blindCall) := by
  induction ops generalizing s h with
  | nil => rfl
  | cons op ops ih =>
    rw [List.map_cons, execFrom, blind_perform]
    exact ih (s.perform op).1 ((op, (s.perform op).2) :: h)

/-! ### Aggregation -/

theorem aggregate_blind (anySensitive : Bool) (l : List Entry) :
    aggregate false (l.map fun e => ⟨e.1, e.2.blind⟩) =
      if aggregate anySensitive l = .sensitive then .safe else aggregate anySensitive l := by
  induction l generalizing anySensitive with
  | nil => cases anySensitive <;> rfl
  | cons e l ih =>
    rw [List.map_cons]
    cases hh : e.2.helloReceived with
    | false => simp [aggregate, hh]
    | true =>
      cases hs : e.2.sensitive with
      | none => simp [aggregate, hh, hs, Client.blind]
      | some flag =>
        have hb : e.2.blind.sensitive = some false := by simp [Client.blind, hs]
        simp only [aggregate, Client.blind_helloReceived, hh, hb, hs, Bool.or_false]
        exact ih (anySensitive || flag)

theorem mode_blind (s : PrivacyState) :
    s.blind.mode = if s.mode = .sensitive then .safe else s.mode := by
  have hen : s.blind.enabled = s.enabled := rfl
  have hlat : s.blind.untrustedFailureLatched = s.untrustedFailureLatched := rfl
  have hd : s.blind.disconnectedClients = s.disconnectedClients := rfl
  have hentries : s.blind.clients.entries =
      s.clients.entries.map fun e => ⟨e.1, e.2.blind⟩ := rfl
  simp only [mode, hen, hlat, hd, hentries, List.isEmpty_map]
  split
  · rfl
  · split
    · rfl
    · split
      · rfl
      · exact aggregate_blind false s.clients.entries

/-! ### Two runs -/

theorem blind_exec {ops ops' : List Op} (timeout : ℤ)
    (h : ops.map Op.blind = ops'.map Op.blind) :
    (exec timeout ops).1.blind = (exec timeout ops').1.blind ∧
      (exec timeout ops).2.map blindCall = (exec timeout ops').2.map blindCall := by
  have hrun := blind_execFrom (init timeout) [] ops
  rw [h, blind_execFrom (init timeout) [] ops'] at hrun
  obtain ⟨hs, he⟩ := Prod.mk.inj hrun
  exact ⟨hs.symm, he.symm⟩

end PrivacyState

open PrivacyState

def Op.reported : Op → Option Bool
  | .stateReceived _ _ sensitive _ => some sensitive
  | _ => none

/-- The calls are the same, or the second one reports its client as sensitive. -/
def Op.Raises (op op' : Op) : Prop := op = op' ∨ op'.reported = some true

/-- The completed calls agree up to a flag that the second run may have raised. -/
structure RaisedCall (e e' : Event) : Prop where
  blind : blindCall e = blindCall e'
  raises : e.1.Raises e'.1

theorem acceptedUpdate_blindCall (id : ℕ) (e : Event) :
    acceptedUpdate id (blindCall e) = (acceptedUpdate id e).map fun u => (false, u.2) := by
  obtain ⟨op, r⟩ := e
  cases op with
  | stateReceived i sequence sensitive now =>
    cases r with
    | accepted b =>
      cases b with
      | true =>
        by_cases hi : i = id
        · simp [blindCall, Op.blind, acceptedUpdate, hi]
        · simp [blindCall, Op.blind, acceptedUpdate, hi]
      | false => rfl
    | _ => rfl
  | _ => rfl

/-- A STATE that reports safe in the second run reported safe in the first. -/
theorem latestUpdate_of_raised {id : ℕ} {t : ℤ} {h h' : List Event}
    (hr : List.Forall₂ RaisedCall h h') (hu : latestUpdate id h' = some (false, t)) :
    latestUpdate id h = some (false, t) := by
  induction hr with
  | nil => exact hu
  | @cons e e' h h' he _ ih =>
    rw [latestUpdate, findSome?_cons_eq_or] at hu ⊢
    have hb := congrArg (acceptedUpdate id) he.blind
    rw [acceptedUpdate_blindCall, acceptedUpdate_blindCall] at hb
    cases hs : acceptedUpdate id e' with
    | none =>
      rw [hs, Option.none_or] at hu
      rw [hs, Option.map_none, Option.map_eq_none_iff] at hb
      rw [hb, Option.none_or]
      exact ih hu
    | some u =>
      rw [hs, Option.some_or] at hu
      obtain rfl := Option.some.inj hu
      rcases he.raises with heq | hflag
      · obtain rfl : e = e' := Prod.ext heq (Prod.mk.inj he.blind).2
        rw [hs, Option.some_or]
      · unfold acceptedUpdate at hs
        split at hs <;> simp_all [Op.reported]

theorem forall₂_lifeFrom {s s' : PrivacyState} {id : ℕ} {h h' : List Event} {ops ops' : List Op}
    (hs : s.blind = s'.blind) (hh : List.Forall₂ RaisedCall h h')
    (hops : List.Forall₂ (fun op op' => op.blind = op'.blind ∧ op.Raises op') ops ops') :
    List.Forall₂ RaisedCall (lifeFrom s id h ops) (lifeFrom s' id h' ops') := by
  induction hops generalizing s s' h h' with
  | nil => exact hh
  | @cons op op' ops ops' hop _ ih =>
    have hp := s.blind_perform op
    rw [hs, hop.1, s'.blind_perform op'] at hp
    obtain ⟨hs', hreply⟩ := Prod.mk.inj hp
    have hmem : id ∈ (s.perform op).1.clients ↔ id ∈ (s'.perform op').1.clients := by
      rw [← mem_blind, ← hs', mem_blind]
    have hlife : List.Forall₂ RaisedCall
        (if id ∈ (s.perform op).1.clients then (op, (s.perform op).2) :: h else [])
        (if id ∈ (s'.perform op').1.clients then (op', (s'.perform op').2) :: h' else []) := by
      by_cases hid : id ∈ (s.perform op).1.clients
      · rw [if_pos hid, if_pos (hmem.mp hid)]
        exact .cons ⟨Prod.ext hop.1 hreply.symm, hop.2⟩ hh
      · rw [if_neg hid, if_neg (mt hmem.mpr hid)]
        exact .nil
    exact ih hs'.symm hlife

/-- Two runs that differ in the flags of their STATEs differ in the recorded flags and in the
choice between safe and sensitive, and raised flags never make the output safe. -/
structure FlagsChoose (timeout : ℤ) (ops ops' : List Op) : Prop where
  replies : (exec timeout ops).2.map Prod.snd = (exec timeout ops').2.map Prod.snd
  states : (exec timeout ops).1.blind = (exec timeout ops').1.blind
  modes : (exec timeout ops).1.mode = (exec timeout ops').1.mode ∨
    ((exec timeout ops).1.mode = .safe ∨ (exec timeout ops).1.mode = .sensitive) ∧
      ((exec timeout ops').1.mode = .safe ∨ (exec timeout ops').1.mode = .sensitive)
  monotone : List.Forall₂ Op.Raises ops ops' →
    (exec timeout ops').1.mode = .safe → (exec timeout ops).1.mode = .safe

theorem forall₂_of_map_eq {α β : Type} {f : α → β} {R : α → α → Prop} {l l' : List α}
    (h : l.map f = l'.map f) (hR : List.Forall₂ R l l') :
    List.Forall₂ (fun a a' => f a = f a' ∧ R a a') l l' := by
  induction hR with
  | nil => exact .nil
  | cons ha _ ih =>
    obtain ⟨h₁, h₂⟩ := List.cons.inj h
    exact .cons ⟨h₁, ha⟩ (ih h₂)

theorem flagsChoose_of_blind {ops ops' : List Op} (timeout : ℤ)
    (h : ops.map Op.blind = ops'.map Op.blind) : FlagsChoose timeout ops ops' := by
  obtain ⟨hs, he⟩ := blind_exec timeout h
  constructor
  case replies =>
    have hr := congrArg (List.map Prod.snd) he
    rwa [List.map_map, List.map_map] at hr
  case states => exact hs
  case modes =>
    have hm := congrArg PrivacyState.mode hs
    rw [mode_blind, mode_blind] at hm
    split at hm <;> split at hm <;> simp_all
  case monotone =>
    intro hraise hsafe
    obtain ⟨hen, hlat, hd, ⟨other, hother⟩, hall⟩ := (mode_eq_safe_iff _).mp hsafe
    have hlook : ∀ id, ((exec timeout ops).1.clients.lookup id).map Client.blind =
        ((exec timeout ops').1.clients.lookup id).map Client.blind := by
      intro id
      rw [← blind_lookup, ← blind_lookup, hs]
    rw [mode_eq_safe_iff]
    refine ⟨(congrArg PrivacyState.enabled hs).trans hen,
      (congrArg PrivacyState.untrustedFailureLatched hs).trans hlat,
      (congrArg PrivacyState.disconnectedClients hs).trans hd, ⟨other, ?_⟩, ?_⟩
    · intro hnone
      have hl := hlook other
      rw [hnone, Option.map_none, eq_comm, Option.map_eq_none_iff] at hl
      exact hother hl
    · intro id c hl
      have hb := hlook id
      rw [hl, Option.map_some, eq_comm, Option.map_eq_some_iff] at hb
      obtain ⟨c', hl', hc⟩ := hb
      obtain ⟨hh, hflag⟩ := hall id c' hl'
      have hh' : c.helloReceived = true := (congrArg Client.helloReceived hc).symm.trans hh
      refine ⟨hh', ?_⟩
      have hsome := congrArg (Option.isSome ∘ Client.sensitive) hc
      simp only [Function.comp_apply, Client.blind_isSome, hflag] at hsome
      obtain ⟨flag, hf⟩ := Option.isSome_iff_exists.mp hsome.symm
      -- The flag of a record is that of its latest STATE, which the second run reported safe.
      have hu := ((lived_exec timeout ops' id).recorded c' hl').update false hflag
      have hu' := latestUpdate_of_raised
        (forall₂_lifeFrom rfl .nil (forall₂_of_map_eq h hraise)) hu
      have hu'' := ((lived_exec timeout ops id).recorded c hl).update flag hf
      rw [life, hu'] at hu''
      rw [hf, ← (Prod.mk.inj (Option.some.inj hu'')).1]

/-- Runs of the same calls up to flags stay alike, at every point of the runs. -/
theorem flagsChoose_take {ops ops' : List Op} (timeout : ℤ)
    (h : ops.map Op.blind = ops'.map Op.blind) (k : ℕ) :
    FlagsChoose timeout (ops.take k) (ops'.take k) :=
  flagsChoose_of_blind timeout (by rw [List.map_take, h, List.map_take])

theorem flagsChoose_two_clients :
    FlagsChoose 2000
      ([Op.connectionOpened 0, .connectionOpened 0, .helloReceived 1 [97] 0,
        .helloReceived 2 [98] 0, .stateReceived 1 1 false 0, .stateReceived 2 1 true 0,
        .connectionClosed 2, .tick 1000].take 6)
      ([Op.connectionOpened 0, .connectionOpened 0, .helloReceived 1 [97] 0,
        .helloReceived 2 [98] 0, .stateReceived 1 1 true 0, .stateReceived 2 1 false 0,
        .connectionClosed 2, .tick 1000].take 6) :=
  flagsChoose_take 2000 (by decide) 6

end PrivacyGuard
