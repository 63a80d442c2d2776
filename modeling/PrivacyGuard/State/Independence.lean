import PrivacyGuard.Foundations.Interleaving
import PrivacyGuard.State.Records

/-! # Independent clients

Frames of connections that never use each other's identities commute, although
they share the counter, the latch and the scan for duplicate identities. A frame is
first judged on the record of its own connection, then committed.
-/

namespace PrivacyGuard

def Op.connection : Op → Option ℕ
  | .helloReceived connectionId _ _ => some connectionId
  | .stateReceived connectionId _ _ _ => some connectionId
  | .goodbyeReceived connectionId => some connectionId
  | _ => none

def Op.identity : Op → Option Bytes
  | .helloReceived _ clientId _ => some clientId
  | _ => none

namespace PrivacyState

/-- What an accepted frame does: the record it leaves, and whether it answers the latch and
a counted failure. -/
structure Outcome where
  record : Option Client
  unlatches : Bool := false
  recovers : Bool := false

/-- The outcome of a frame on the record of its connection, identities of others aside. -/
def outcome (c : Client) : Op → Option Outcome
  | .helloReceived _ clientId now =>
    if c.helloReceived then none else some { record := some (c.greet clientId now) }
  | .stateReceived _ sequence sensitive now =>
    if c.helloReceived && (acceptSequence c sequence).2 then
      some
        { record := some (c.publish sequence sensitive now)
          unlatches := true
          recovers := !c.sensitive.isSome }
    else none
  | .goodbyeReceived _ => if c.helloReceived then some { record := none } else none
  | _ => none

def blocked (s : PrivacyState) (id : ℕ) (op : Op) : Bool :=
  op.identity.any (s.duplicateIdentity id)

def judge (s : PrivacyState) (id : ℕ) (op : Op) : Option Outcome :=
  if s.blocked id op then none else (s.clients.lookup id).bind (outcome · op)

def writeRecord (t : Clients) (id : ℕ) : Option Client → Clients
  | some c => t.replace id c
  | none => t.erase id

def commit (s : PrivacyState) (id : ℕ) (o : Outcome) : PrivacyState :=
  { s with
    clients := writeRecord s.clients id o.record
    untrustedFailureLatched := s.untrustedFailureLatched && !o.unlatches
    disconnectedClients := s.disconnectedClients - if o.recovers then 1 else 0 }

section Judge

variable {s : PrivacyState} {id other : ℕ} {op : Op}

theorem perform_of_connection (hop : op.connection = some id) :
    s.perform op = match s.judge id op with
      | none => (s, .accepted false)
      | some o => (s.commit id o, .accepted true) := by
  cases op with
  | helloReceived i clientId now =>
    obtain rfl := Option.some.inj hop
    cases hd : s.duplicateIdentity i clientId with
    | true =>
      have hb : s.blocked i (.helloReceived i clientId now) = true := hd
      rw [judge, hb]
      cases hl : s.clients.lookup i with
      | none => simp [perform, helloReceived, hl]
      | some c => simp [perform, helloReceived, hl, hd]
    | false =>
      have hb : s.blocked i (.helloReceived i clientId now) = false := hd
      rw [judge, hb]
      cases hl : s.clients.lookup i with
      | none => simp [perform, helloReceived, hl]
      | some c =>
        cases hh : c.helloReceived with
        | true => simp [perform, helloReceived, hl, outcome, hh]
        | false =>
          simp only [perform, helloReceived_of_fresh hl hh hd]
          simp [outcome, hh, commit, writeRecord]
  | stateReceived i sequence sensitive now =>
    obtain rfl := Option.some.inj hop
    have hb : s.blocked i (.stateReceived i sequence sensitive now) = false := rfl
    rw [judge, hb]
    cases hl : s.clients.lookup i with
    | none => simp [perform, stateReceived, hl]
    | some c =>
      cases hh : c.helloReceived with
      | false => simp [perform, stateReceived, hl, outcome, hh]
      | true =>
        by_cases ha : c.Accepts sequence
        · simp only [perform, stateReceived_of_accepts hl hh ha]
          simp only [Option.bind_some, outcome, hh, acceptSequence_of_accepts ha, Bool.and_self,
            if_true, Bool.false_eq_true, if_false, commit, writeRecord, publishState]
          cases c.sensitive <;> simp
        · have hr : s.stateReceived i sequence sensitive now = (s, false) := by
            simp [stateReceived, hl, hh, acceptSequence_of_not_accepts ha]
          simp [perform, hr, outcome, hh, acceptSequence_of_not_accepts ha]
  | goodbyeReceived i =>
    obtain rfl := Option.some.inj hop
    have hb : s.blocked i (.goodbyeReceived i) = false := rfl
    rw [judge, hb]
    cases hl : s.clients.lookup i with
    | none => simp [perform, goodbyeReceived, hl]
    | some c =>
      cases hh : c.helloReceived with
      | false => simp [perform, goodbyeReceived, hl, outcome, hh]
      | true => simp [perform, goodbyeReceived, hl, outcome, hh, commit, writeRecord]
  | _ => simp [Op.connection] at hop

theorem perform_fst (hop : op.connection = some id) :
    (s.perform op).1 = (s.judge id op).elim s (s.commit id) := by
  rw [perform_of_connection hop]
  cases s.judge id op <;> rfl

theorem perform_snd (hop : op.connection = some id) :
    (s.perform op).2 = .accepted (s.judge id op).isSome := by
  rw [perform_of_connection hop]
  cases s.judge id op <;> rfl

theorem writeRecord_comm (hne : id ≠ other) (t : Clients) (r r' : Option Client) :
    writeRecord (writeRecord t id r) other r' = writeRecord (writeRecord t other r') id r := by
  cases r with
  | none =>
    cases r' with
    | none => exact AList.ext (List.kerase_comm _ _ _)
    | some c' => exact (AList.erase_replace hne.symm t).symm
  | some c =>
    cases r' with
    | none => exact AList.erase_replace hne t
    | some c' => exact AList.replace_comm hne t

theorem commit_comm (hne : id ≠ other) (s : PrivacyState) (o o' : Outcome) :
    (s.commit id o).commit other o' = (s.commit other o').commit id o := by
  simp only [commit, writeRecord_comm hne, Bool.and_right_comm, Nat.sub_right_comm]

theorem lookup_writeRecord_ne (hne : other ≠ id) (t : Clients) (r : Option Client) :
    (writeRecord t id r).lookup other = t.lookup other := by
  cases r with
  | none => exact AList.lookup_erase_ne hne
  | some c => exact AList.lookup_replace_ne hne

theorem perform_lookup_ne (hop : op.connection = some id) (hne : other ≠ id) :
    (s.perform op).1.clients.lookup other = s.clients.lookup other := by
  rw [perform_fst hop]
  cases s.judge id op with
  | none => rfl
  | some o => exact lookup_writeRecord_ne hne s.clients o.record

end Judge

/-! ### Identities -/

def identities (s : PrivacyState) (id : ℕ) (script : List Op) : List Bytes :=
  (((s.clients.lookup id).filter Client.helloReceived).map Client.clientId).toList ++
    script.filterMap Op.identity

/-- No two of the connections with frames to send hold or ask for a common identity. -/
def Independent (s : PrivacyState) (scripts : ℕ → List Op) : Prop :=
  ∀ id other, id ≠ other → scripts id ≠ [] → scripts other ≠ [] →
    ∀ clientId ∈ s.identities id (scripts id), clientId ∉ s.identities other (scripts other)

/-- The connections of the scripts hold identities of their own only. -/
def Owned (start : PrivacyState) (scripts : ℕ → List Op) (s : PrivacyState) : Prop :=
  ∀ id c, scripts id ≠ [] → s.clients.lookup id = some c → c.helloReceived = true →
    c.clientId ∈ start.identities id (scripts id)

def Scripted (scripts : ℕ → List Op) (op : Op) : Prop :=
  ∃ id, op.connection = some id ∧ op ∈ scripts id

section Owned

variable {start s s' : PrivacyState} {scripts : ℕ → List Op} {id other : ℕ} {op : Op}

theorem owned_self (s : PrivacyState) (scripts : ℕ → List Op) : Owned s scripts s := by
  intro id c _ hl hh
  simp [identities, hl, hh, Option.filter]

theorem Owned.perform (hs : Owned start scripts s) (hop : Scripted scripts op) :
    Owned start scripts (s.perform op).1 := by
  intro id c hne hl hh
  cases perform_client hl with
  | kept hk => exact hs id c hne hk hh
  | opened now op_eq => subst op_eq; obtain ⟨_, hc, -⟩ := hop; cases hc
  | greeted c₀ clientId now op_eq _ _ _ record =>
    subst record op_eq
    obtain ⟨_, hc, hmem⟩ := hop
    obtain rfl := Option.some.inj hc
    exact List.mem_append_right _ (List.mem_filterMap.mpr ⟨_, hmem, rfl⟩)
  | published c₀ sequence sensitive now _ hk hg _ record =>
    subst record
    exact hs id c₀ hne hk hg
  | rearmed _ op_eq => subst op_eq; obtain ⟨_, hc, -⟩ := hop; cases hc

theorem blocked_congr (hind : Independent start scripts) (hs : Owned start scripts s)
    (hs' : Owned start scripts s') (hne : id ≠ other) (hother : scripts other ≠ [])
    (hop : op ∈ scripts id)
    (hagree : ∀ i, i ≠ other → s'.clients.lookup i = s.clients.lookup i) :
    s'.blocked id op = s.blocked id op := by
  cases hx : op.identity with
  | none => simp [blocked, hx]
  | some clientId =>
    have hmem : clientId ∈ start.identities id (scripts id) :=
      List.mem_append_right _ (List.mem_filterMap.mpr ⟨op, hop, hx⟩)
    have hdisj := hind id other hne (List.ne_nil_of_mem hop) hother
    -- The changed connection holds none of the identities in question, before or after.
    have hfree : ∀ t : PrivacyState, Owned start scripts t → ∀ c,
        t.clients.lookup other = some c → c.helloReceived = true → c.clientId ≠ clientId := by
      rintro t ht c hl hh rfl
      exact hdisj _ hmem (ht other c hother hl hh)
    simp only [blocked, hx, Option.any_some]
    rw [Bool.eq_iff_iff, duplicateIdentity_iff, duplicateIdentity_iff]
    constructor
    · rintro ⟨i, c, hl, hi, hh, hc⟩
      have hio : i ≠ other := fun h => hfree s' hs' c (h ▸ hl) hh hc
      exact ⟨i, c, hagree i hio ▸ hl, hi, hh, hc⟩
    · rintro ⟨i, c, hl, hi, hh, hc⟩
      have hio : i ≠ other := fun h => hfree s hs c (h ▸ hl) hh hc
      exact ⟨i, c, (hagree i hio).trans hl, hi, hh, hc⟩

/-- A frame is judged alike before and after a frame of another connection. -/
theorem judge_perform (hind : Independent start scripts) (hs : Owned start scripts s)
    {op' : Op} (hmem : op ∈ scripts id) (hop' : op'.connection = some other)
    (hmem' : op' ∈ scripts other) (hne : id ≠ other) :
    (s.perform op').1.judge id op = s.judge id op := by
  rw [judge, judge, perform_lookup_ne hop' hne,
    blocked_congr hind hs (hs.perform ⟨other, hop', hmem'⟩) hne (List.ne_nil_of_mem hmem') hmem
      fun i hi => perform_lookup_ne hop' hi]

theorem commutes_perform (hind : Independent start scripts) :
    Interleaving.Commutes PrivacyState.perform Op.connection (Owned start scripts)
      (Scripted scripts) where
  inv _ _ := Owned.perform
  state := by
    rintro s op op' hs ⟨id, hop, hmem⟩ ⟨other, hop', hmem'⟩ hne
    have hid : id ≠ other := fun h => hne (by rw [hop, hop', h])
    rw [perform_fst (s := (s.perform op).1) hop', perform_fst (s := (s.perform op').1) hop,
      judge_perform hind hs hmem hop' hmem' hid,
      judge_perform hind hs hmem' hop hmem hid.symm, perform_fst hop, perform_fst hop']
    cases s.judge id op with
    | none => cases s.judge other op' <;> rfl
    | some o =>
      cases s.judge other op' with
      | none => rfl
      | some o' => exact commit_comm hid s o o'
  answer := by
    rintro s op op' hs ⟨id, hop, hmem⟩ ⟨other, hop', hmem'⟩ hne
    have hid : id ≠ other := fun h => hne (by rw [hop, hop', h])
    rw [perform_snd hop', perform_snd (s := s) hop',
      judge_perform hind hs hmem' hop hmem hid.symm]

end Owned

/-! ### Interleavings -/

/-- The frames of the scripts in some order that keeps the order of each script. -/
structure Interleaves (scripts : ℕ → List Op) (ops : List Op) : Prop where
  frames : ∀ op ∈ ops, op.connection ≠ none
  order : ∀ id, Interleaving.project Op.connection (some id) ops = scripts id

section Interleaves

variable {scripts : ℕ → List Op} {ops ops' : List Op}

theorem Interleaves.scripted (h : Interleaves scripts ops) : ∀ op ∈ ops, Scripted scripts op := by
  intro op hop
  obtain ⟨id, hid⟩ := Option.ne_none_iff_exists'.mp (h.frames op hop)
  refine ⟨id, hid, ?_⟩
  rw [← h.order id]
  exact List.mem_filter.mpr ⟨hop, by simp [hid]⟩

theorem Interleaves.project_eq (h : Interleaves scripts ops) (h' : Interleaves scripts ops')
    (i : Option ℕ) :
    Interleaving.project Op.connection i ops = Interleaving.project Op.connection i ops' := by
  cases i with
  | none =>
    rw [Interleaving.project_eq_nil_iff.mpr h.frames, Interleaving.project_eq_nil_iff.mpr h'.frames]
  | some id => rw [h.order id, h'.order id]

theorem execFrom_eq_perform (s : PrivacyState) (ops : List Op) :
    execFrom s [] ops =
      ((Interleaving.perform PrivacyState.perform s ops).1,
        (Interleaving.perform PrivacyState.perform s ops).2.reverse) := by
  induction ops generalizing s with
  | nil => rfl
  | cons op ops ih =>
    rw [execFrom, execFrom_eq, ih]
    simp [Interleaving.perform]

/-- From every reachable state, the order in which independent clients are served does not
matter: every client gets the same answers, and the final states are equal. -/
theorem interleaving_irrelevant (timeout : ℤ) (pre : List Op)
    (hind : (exec timeout pre).1.Independent scripts) (h : Interleaves scripts ops)
    (h' : Interleaves scripts ops') :
    (execFrom (exec timeout pre).1 [] ops).1 = (execFrom (exec timeout pre).1 [] ops').1 ∧
      ∀ id, (execFrom (exec timeout pre).1 [] ops).2.filter (·.1.connection = some id) =
        (execFrom (exec timeout pre).1 [] ops').2.filter (·.1.connection = some id) := by
  have ha := (commutes_perform hind).alike (owned_self _ scripts) h.scripted h'.scripted
    (h.project_eq h')
  rw [execFrom_eq_perform, execFrom_eq_perform]
  refine ⟨ha.state, fun id => ?_⟩
  have hid := ha.answers (some id)
  rw [List.filter_reverse, List.filter_reverse]
  exact congrArg List.reverse hid

def leaveAndJoin : ℕ → List Op
  | 1 => [.stateReceived 1 5 false 9, .goodbyeReceived 1]
  | 2 => [.helloReceived 2 [98] 9, .stateReceived 2 0 true 9]
  | _ => []

theorem interleaves_leaveAndJoin {ops : List Op} (hframes : ∀ op ∈ ops, op.connection ≠ none)
    (hids : ∀ op ∈ ops, op.connection = some 1 ∨ op.connection = some 2)
    (h₁ : Interleaving.project Op.connection (some 1) ops = leaveAndJoin 1)
    (h₂ : Interleaving.project Op.connection (some 2) ops = leaveAndJoin 2) :
    Interleaves leaveAndJoin ops where
  frames := hframes
  order id := by
    by_cases hid : id = 1
    · rw [hid, h₁]
    · by_cases hid' : id = 2
      · rw [hid', h₂]
      · have hnil : leaveAndJoin id = [] := by
          unfold leaveAndJoin
          split <;> simp_all
        rw [hnil, Interleaving.project_eq_nil_iff]
        intro op hop he
        rcases hids op hop with h | h <;> simp_all

theorem interleaving_irrelevant_leaveAndJoin :
    (execFrom (exec 2000 [.connectionOpened 0, .connectionOpened 0, .helloReceived 1 [97] 0]).1 []
        [.stateReceived 1 5 false 9, .helloReceived 2 [98] 9, .goodbyeReceived 1,
          .stateReceived 2 0 true 9]).1 =
      (execFrom (exec 2000 [.connectionOpened 0, .connectionOpened 0,
          .helloReceived 1 [97] 0]).1 []
        [.helloReceived 2 [98] 9, .stateReceived 2 0 true 9, .stateReceived 1 5 false 9,
          .goodbyeReceived 1]).1 := by
  have hind : (exec 2000 [.connectionOpened 0, .connectionOpened 0,
      .helloReceived 1 [97] 0]).1.Independent leaveAndJoin := by
    have hmem : ∀ id, leaveAndJoin id ≠ [] → id = 1 ∨ id = 2 := by
      intro id h
      unfold leaveAndJoin at h
      split at h <;> simp_all
    intro id other hne hid hother
    rcases hmem id hid with rfl | rfl <;> rcases hmem other hother with rfl | rfl
    · exact absurd rfl hne
    · decide
    · decide
    · exact absurd rfl hne
  exact (interleaving_irrelevant 2000 _ hind
    (interleaves_leaveAndJoin (by decide) (by decide) rfl rfl)
    (interleaves_leaveAndJoin (by decide) (by decide) rfl rfl)).1

end Interleaves

end PrivacyState

end PrivacyGuard
