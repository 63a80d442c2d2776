import Mathlib.Data.List.Induction
import PrivacyGuard.State.Records
import PrivacyGuard.State.History

/-! # The lifetime of a connection

What was accepted on one connection between the creation of its entry and its
removal. The last sequence, the flag and the last update of a record are read off
the calls of that period, whatever happens to other connections in between.
-/

namespace PrivacyGuard

namespace History

def acceptedSequence (id : ℕ) : Event → Option UInt64
  | (.stateReceived i sequence _ _, .accepted true) => if i = id then some sequence else none
  | _ => none

def acceptedUpdate (id : ℕ) : Event → Option (Bool × ℤ)
  | (.stateReceived i _ flag now, .accepted true) => if i = id then some (flag, now) else none
  | _ => none

def greetingTime (id : ℕ) : Event → Option ℤ
  | (.helloReceived i _ now, .accepted true) => if i = id then some now else none
  | _ => none

def frameTime (id : ℕ) (e : Event) : Option ℤ :=
  (greetingTime id e).or ((acceptedUpdate id e).map Prod.snd)

def openingTime (id : ℕ) : Event → Option ℤ
  | (.connectionOpened now, .opened i) => if i = id then some now else none
  | _ => none

def acceptedSequences (id : ℕ) (h : List Event) : List UInt64 := h.filterMap (acceptedSequence id)

def latestUpdate (id : ℕ) (h : List Event) : Option (Bool × ℤ) := h.findSome? (acceptedUpdate id)

def greetedAt (id : ℕ) (h : List Event) : Option ℤ := h.findSome? (greetingTime id)

/-- The time of the call that created the entry, the oldest of a lifetime. -/
def openedAt (id : ℕ) (h : List Event) : Option ℤ := h.getLast?.bind (openingTime id)

/-- The time of the most recent accepted operation: a HELLO or a STATE, else the opening. -/
def lastAccepted (id : ℕ) (h : List Event) : Option ℤ :=
  (h.findSome? (frameTime id)).or (openedAt id h)

variable {id : ℕ} {e : Event} {h : List Event}

theorem findSome?_cons_eq_or {α β : Type} (f : α → Option β) (a : α) (l : List α) :
    (a :: l).findSome? f = (f a).or (l.findSome? f) := by
  rw [List.findSome?_cons]
  cases f a <;> rfl

theorem openedAt_cons (hne : h ≠ []) : openedAt id (e :: h) = openedAt id h := by
  rw [openedAt, openedAt, List.getLast?_cons, List.getLast?_eq_some_getLast hne]
  rfl

theorem ne_nil_of_lastAccepted {t : ℤ} (hl : lastAccepted id h = some t) : h ≠ [] := by
  rintro rfl
  simp [lastAccepted, openedAt] at hl

theorem lastAccepted_cons (hne : h ≠ []) :
    lastAccepted id (e :: h) = (frameTime id e).or (lastAccepted id h) := by
  rw [lastAccepted, lastAccepted, openedAt_cons hne, findSome?_cons_eq_or, Option.or_assoc]

theorem quiet_of_frameTime (he : frameTime id e = none) :
    greetingTime id e = none ∧ acceptedUpdate id e = none ∧ acceptedSequence id e = none ∧
      acceptedHello id e = false := by
  obtain ⟨hg, hu⟩ := Option.or_eq_none_iff.mp he
  rw [Option.map_eq_none_iff] at hu
  refine ⟨hg, hu, ?_, ?_⟩
  · cases hs : acceptedSequence id e with
    | none => rfl
    | some q =>
      unfold acceptedSequence at hs
      split at hs <;> simp_all [acceptedUpdate]
  · cases hs : acceptedHello id e with
    | false => rfl
    | true =>
      unfold acceptedHello at hs
      split at hs <;> simp_all [greetingTime]

/-- Without an accepted STATE the most recent operation is the HELLO, else the opening. -/
theorem lastAccepted_of_silent (hs : latestUpdate id h = none) :
    lastAccepted id h = (greetedAt id h).or (openedAt id h) := by
  rw [lastAccepted, greetedAt]
  congr 1
  rw [latestUpdate, List.findSome?_eq_none_iff] at hs
  induction h with
  | nil => rfl
  | cons e h ih =>
    obtain ⟨he, hh⟩ := List.forall_mem_cons.mp hs
    rw [findSome?_cons_eq_or, findSome?_cons_eq_or, ih hh, frameTime, he, Option.map_none,
      Option.or_none]

end History

open History

namespace PrivacyState

/-- The completed calls since the entry of a connection was created, newest first; none
while the connection is not live. -/
def lifeFrom (s : PrivacyState) (id : ℕ) (life : List Event) : List Op → List Event
  | [] => life
  | op :: ops =>
    let (s', reply) := s.perform op
    lifeFrom s' id (if id ∈ s'.clients then (op, reply) :: life else []) ops

def life (timeout : ℤ) (ops : List Op) (id : ℕ) : List Event := lifeFrom (init timeout) id [] ops

/-- A record holds what its lifetime says about the connection. -/
structure Recorded (id : ℕ) (h : List Event) (c : Client) : Prop where
  seen : lastAccepted id h = some c.lastUpdate
  greeted : c.helloReceived = greeted id h
  increasing : (acceptedSequences id h).Pairwise (· > ·)
  last : c.lastSequence = (acceptedSequences id h).head?
  update : ∀ flag, c.sensitive = some flag → latestUpdate id h = some (flag, c.lastUpdate)

section Recorded

variable {s : PrivacyState} {id : ℕ} {c : Client} {h : List Event} {e : Event}

theorem Recorded.opening (now : ℤ) :
    Recorded id [(.connectionOpened now, .opened id)] { lastUpdate := now } where
  seen := by simp [lastAccepted, openedAt, openingTime, frameTime, greetingTime, acceptedUpdate]
  greeted := rfl
  increasing := List.Pairwise.nil
  last := rfl
  update := by simp

theorem Recorded.quiet (hr : Recorded id h c) (he : frameTime id e = none) {flag : Option Bool}
    (hflag : flag = c.sensitive ∨ flag = none) :
    Recorded id (e :: h) { c with sensitive := flag } := by
  obtain ⟨-, hu, hq, hg⟩ := quiet_of_frameTime he
  have hseq : acceptedSequences id (e :: h) = acceptedSequences id h := by
    rw [acceptedSequences, List.filterMap_cons_none hq]
    rfl
  constructor
  case seen =>
    rw [lastAccepted_cons (ne_nil_of_lastAccepted hr.seen), he, Option.none_or, hr.seen]
  case greeted => rw [greeted_cons, hg, Bool.false_or, hr.greeted]
  case increasing => rw [hseq]; exact hr.increasing
  case last => rw [hseq]; exact hr.last
  case update =>
    intro f hf
    rw [latestUpdate, findSome?_cons_eq_or, hu, Option.none_or]
    rcases hflag with rfl | rfl
    · exact hr.update f hf
    · cases hf

theorem Recorded.kept (hr : Recorded id h c) (he : frameTime id e = none) :
    Recorded id (e :: h) c :=
  hr.quiet he (Or.inl rfl)

theorem Recorded.greet (hr : Recorded id h c) (hw : c.WellFormed) (hh : c.helloReceived = false)
    (clientId : Bytes) (now : ℤ) :
    Recorded id ((.helloReceived id clientId now, .accepted true) :: h)
      (c.greet clientId now) where
  seen := by
    rw [lastAccepted_cons (ne_nil_of_lastAccepted hr.seen)]
    simp [frameTime, greetingTime, Client.greet]
  greeted := by simp [greeted_cons, acceptedHello, Client.greet]
  increasing := hr.increasing
  last := hr.last
  -- A second HELLO is refused, so no flag is recorded yet.
  update flag hf := by
    have hs : c.sensitive = some flag := hf
    simp [(hw.blank hh).2.2] at hs

theorem Recorded.accepts_iff (hr : Recorded id h c) (sequence : UInt64) :
    c.Accepts sequence ↔ ∀ q ∈ acceptedSequences id h, q < sequence := by
  rw [Client.Accepts, hr.last]
  have hi := hr.increasing
  cases hq : acceptedSequences id h with
  | nil => simp
  | cons q qs =>
    rw [hq, List.pairwise_cons] at hi
    constructor
    · rintro ha q' hq'
      have hlast := ha q rfl
      rcases List.mem_cons.mp hq' with rfl | hm
      · exact hlast
      · exact UInt64.lt_trans (hi.1 q' hm) hlast
    · rintro ha last hl
      obtain rfl := Option.some.inj hl
      exact ha q List.mem_cons_self

theorem Recorded.publish (hr : Recorded id h c) (hh : c.helloReceived = true)
    {sequence : UInt64} (ha : c.Accepts sequence) (sensitive : Bool) (now : ℤ) :
    Recorded id ((.stateReceived id sequence sensitive now, .accepted true) :: h)
      (c.publish sequence sensitive now) := by
  have hseq : acceptedSequences id
      ((.stateReceived id sequence sensitive now, .accepted true) :: h) =
        sequence :: acceptedSequences id h := by
    simp [acceptedSequences, acceptedSequence]
  constructor
  case seen =>
    rw [lastAccepted_cons (ne_nil_of_lastAccepted hr.seen)]
    simp [frameTime, greetingTime, acceptedUpdate, Client.publish]
  case greeted =>
    have hg := hr.greeted
    rw [hh] at hg
    simp [greeted_cons, ← hg, Client.publish, hh]
  case increasing =>
    rw [hseq, List.pairwise_cons]
    exact ⟨(hr.accepts_iff sequence).mp ha, hr.increasing⟩
  case last => rw [hseq]; rfl
  case update =>
    intro flag hf
    obtain rfl : sensitive = flag := Option.some.inj hf
    simp [latestUpdate, acceptedUpdate, Client.publish]

end Recorded

/-! ### Runs -/

structure Lived (id : ℕ) (h : List Event) (s : PrivacyState) : Prop where
  wellFormed : s.RecordsWellFormed
  recorded : ∀ c, s.clients.lookup id = some c → Recorded id h c
  ended : s.clients.lookup id = none → h = []

section Lived

variable {s : PrivacyState} {id : ℕ} {h : List Event}

theorem Lived.kept (hs : Lived id h s) {c' : Client} {e : Event}
    (hl : s.clients.lookup id = some c') (he : frameTime id e = none) : Recorded id (e :: h) c' :=
  (hs.recorded c' hl).kept he

theorem Lived.recorded_perform (hs : Lived id h s) (op : Op) {c' : Client}
    (hl : (s.perform op).1.clients.lookup id = some c') :
    Recorded id ((op, (s.perform op).2) :: h) c' := by
  cases op with
  | connectionOpened now =>
    simp only [perform, connectionOpened] at hl ⊢
    split at hl
    · exact hs.kept hl rfl
    · rename_i hn
      by_cases hid : id = s.nextConnectionId
      · subst hid
        rw [AList.lookup_insert] at hl
        obtain rfl := Option.some.inj hl
        rw [hs.ended (AList.lookup_eq_none.mpr hn)]
        exact Recorded.opening now
      · rw [AList.lookup_insert_ne hid] at hl
        exact hs.kept hl rfl
  | helloReceived other clientId now =>
    rcases s.helloReceived_cases other clientId now with hg | ⟨c, hlc, hh, -, hg⟩
    · simp only [perform, hg] at hl ⊢
      exact hs.kept hl rfl
    · simp only [perform, hg] at hl ⊢
      by_cases ho : id = other
      · subst ho
        rw [AList.lookup_replace (AList.lookup_isSome.mp (by simp [hlc]))] at hl
        obtain rfl := Option.some.inj hl
        exact (hs.recorded c hlc).greet (hs.wellFormed id c hlc) hh clientId now
      · rw [AList.lookup_replace_ne ho] at hl
        exact hs.kept hl (by simp [frameTime, greetingTime, acceptedUpdate, Ne.symm ho])
  | stateReceived other sequence sensitive now =>
    rcases s.stateReceived_cases other sequence sensitive now with hg | ⟨c, hlc, hh, ha, hg⟩
    · simp only [perform, hg] at hl ⊢
      exact hs.kept hl rfl
    · simp only [perform, hg, publishState] at hl ⊢
      by_cases ho : id = other
      · subst ho
        rw [AList.lookup_replace (AList.lookup_isSome.mp (by simp [hlc]))] at hl
        obtain rfl := Option.some.inj hl
        exact (hs.recorded c hlc).publish hh ha sensitive now
      · rw [AList.lookup_replace_ne ho] at hl
        exact hs.kept hl (by simp [frameTime, greetingTime, acceptedUpdate, Ne.symm ho])
  | goodbyeReceived other =>
    rcases s.goodbyeReceived_cases other with hg | ⟨c, -, -, hg⟩
    · simp only [perform, hg] at hl ⊢
      exact hs.kept hl rfl
    · simp only [perform, hg] at hl ⊢
      exact hs.kept (AList.lookup_erase_eq_some.mp hl).2 rfl
  | protocolError other => exact hs.kept (removeFailed_lookup hl) rfl
  | connectionClosed other => exact hs.kept (removeFailed_lookup hl) rfl
  | tick now =>
    simp only [perform, tick_eq] at hl
    exact hs.kept (AList.lookup_filter_eq_some.mp hl).1 rfl
  | setEnabled b =>
    cases perform_client hl with
    | kept hk => exact hs.kept hk rfl
    | rearmed c _ _ hk record =>
      subst record
      exact (hs.recorded c hk).quiet rfl (Or.inr rfl)
    | opened _ op_eq => cases op_eq
    | greeted _ _ _ op_eq => cases op_eq
    | published _ _ _ _ op_eq => cases op_eq

/-- One call extends the lifetime of a connection it leaves live, and ends any other. -/
theorem Lived.perform (hs : Lived id h s) (op : Op) :
    Lived id (if id ∈ (s.perform op).1.clients then (op, (s.perform op).2) :: h else [])
      (s.perform op).1 where
  wellFormed := hs.wellFormed.perform op
  recorded c hl := by
    rw [if_pos (AList.lookup_isSome.mp (by simp [hl]))]
    exact hs.recorded_perform op hl
  ended hl := if_neg (AList.lookup_eq_none.mp hl)

theorem Lived.lifeFrom (hs : Lived id h s) (events : List Event) (ops : List Op) :
    Lived id (lifeFrom s id h ops) (execFrom s events ops).1 := by
  induction ops generalizing s h events with
  | nil => exact hs
  | cons op ops ih => exact ih (hs.perform op) _

end Lived

theorem lived_exec (timeout : ℤ) (ops : List Op) (id : ℕ) :
    Lived id (life timeout ops id) (exec timeout ops).1 := by
  apply Lived.lifeFrom
  constructor
  case wellFormed => exact recordsWellFormed_exec timeout []
  case recorded => simp [init]
  case ended => intro _; rfl

theorem lifeFrom_append (s : PrivacyState) (id : ℕ) (h : List Event) (ops ops' : List Op) :
    lifeFrom s id h (ops ++ ops') =
      lifeFrom (execFrom s [] ops).1 id (lifeFrom s id h ops) ops' := by
  induction ops generalizing s h with
  | nil => rfl
  | cons op ops ih =>
    simp only [List.cons_append, lifeFrom, execFrom]
    rw [ih, execFrom_eq _ [_]]

theorem life_concat (timeout : ℤ) (ops : List Op) (op : Op) (id : ℕ) :
    life timeout (ops ++ [op]) id =
      if id ∈ ((exec timeout ops).1.perform op).1.clients then
        (op, ((exec timeout ops).1.perform op).2) :: life timeout ops id
      else [] := by
  rw [life, lifeFrom_append]
  rfl

theorem life_isPrefix (timeout : ℤ) (ops : List Op) (id : ℕ) :
    life timeout ops id <+: (exec timeout ops).2 := by
  induction ops using List.reverseRecOn with
  | nil => exact List.nil_prefix
  | append_singleton ops op ih =>
    rw [life_concat, exec_append]
    split
    · exact List.cons_prefix_cons.mpr ⟨rfl, ih⟩
    · exact List.nil_prefix

/-! ### Replayed frames -/

/-- A call that answers with a refusal changes nothing at all. -/
theorem perform_refused {s : PrivacyState} {op : Op} (h : (s.perform op).2 = .accepted false) :
    (s.perform op).1 = s := by
  cases op with
  | helloReceived id clientId now =>
    rcases s.helloReceived_cases id clientId now with hg | ⟨c, -, -, -, hg⟩ <;>
      simp_all [perform]
  | stateReceived id sequence sensitive now =>
    rcases s.stateReceived_cases id sequence sensitive now with hg | ⟨c, -, -, -, hg⟩ <;>
      simp_all [perform]
  | goodbyeReceived id =>
    rcases s.goodbyeReceived_cases id with hg | ⟨c, -, -, hg⟩ <;> simp_all [perform]
  | _ => simp [perform] at h

theorem stateReceived_accepted_iff {s : PrivacyState} {id : ℕ} {sequence : UInt64}
    {sensitive : Bool} {now : ℤ} :
    (s.stateReceived id sequence sensitive now).2 = true ↔
      ∃ c, s.clients.lookup id = some c ∧ c.helloReceived = true ∧ c.Accepts sequence := by
  constructor
  · intro h
    rcases s.stateReceived_cases id sequence sensitive now with hg | ⟨c, hl, hh, ha, -⟩
    · simp [hg] at h
    · exact ⟨c, hl, hh, ha⟩
  · rintro ⟨c, hl, hh, ha⟩
    rw [stateReceived_of_accepts hl hh ha]

/-- After a run, replayed and reordered STATEs are told apart exactly, and refusals are atomic. -/
structure RejectsReplays (timeout : ℤ) (ops : List Op) : Prop where
  increasing : ∀ id, (acceptedSequences id (life timeout ops id)).Pairwise (· > ·)
  exact : ∀ id sequence sensitive now,
    ((exec timeout ops).1.stateReceived id sequence sensitive now).2 = true ↔
      (∃ c, (exec timeout ops).1.clients.lookup id = some c ∧ c.helloReceived = true) ∧
        ∀ q ∈ acceptedSequences id (life timeout ops id), q < sequence
  atomic : ∀ op, ((exec timeout ops).1.perform op).2 = .accepted false →
    ((exec timeout ops).1.perform op).1 = (exec timeout ops).1

theorem rejectsReplays (timeout : ℤ) (ops : List Op) : RejectsReplays timeout ops where
  increasing id := by
    have hs := lived_exec timeout ops id
    cases hl : (exec timeout ops).1.clients.lookup id with
    | none => rw [hs.ended hl]; exact List.Pairwise.nil
    | some c => exact (hs.recorded c hl).increasing
  exact id sequence sensitive now := by
    have hs := lived_exec timeout ops id
    rw [stateReceived_accepted_iff]
    constructor
    · rintro ⟨c, hl, hh, ha⟩
      exact ⟨⟨c, hl, hh⟩, ((hs.recorded c hl).accepts_iff sequence).mp ha⟩
    · rintro ⟨⟨c, hl, hh⟩, hq⟩
      exact ⟨c, hl, hh, ((hs.recorded c hl).accepts_iff sequence).mpr hq⟩
  atomic _ := perform_refused

/-! ### Silent connections -/

/-- After a run, a tick removes exactly the connections silent for longer than the timeout. -/
structure DetectsSilence (timeout : ℤ) (ops : List Op) : Prop where
  exact : ∀ id ∈ (exec timeout ops).1.clients,
    ∃ seen, lastAccepted id (life timeout ops id) = some seen ∧
      ∀ now, id ∉ ((exec timeout ops).1.tick now).clients ↔ now - seen > timeout
  kept : ∀ op, ((exec timeout ops).1.perform op).2 = .accepted false ∨ (∃ b, op = .setEnabled b) →
    ∀ id, lastAccepted id (life timeout (ops ++ [op]) id) = lastAccepted id (life timeout ops id)
  fresh : ∀ now, ((exec timeout ops).1.tick now).mode = .safe →
    ∀ id ∈ ((exec timeout ops).1.tick now).clients,
      ∃ t, latestUpdate id (life timeout (ops ++ [.tick now]) id) = some (false, t) ∧
        now - timeout ≤ t
  silent : ∀ id, latestUpdate id (life timeout ops id) = none →
    ∀ t ∈ (greetedAt id (life timeout ops id)).or (openedAt id (life timeout ops id)),
      ∀ now, t + timeout < now → id ∉ ((exec timeout ops).1.tick now).clients

section DetectsSilence

variable {timeout : ℤ} {ops : List Op} {id : ℕ} {c : Client} {now : ℤ}

theorem exec_livenessTimeout (timeout : ℤ) (ops : List Op) :
    (exec timeout ops).1.livenessTimeout = timeout :=
  execFrom_livenessTimeout _ _ _

theorem tick_lookup :
    ((exec timeout ops).1.tick now).clients.lookup id = some c ↔
      (exec timeout ops).1.clients.lookup id = some c ∧ now - c.lastUpdate ≤ timeout := by
  rw [tick_eq, AList.lookup_filter_eq_some, expired, exec_livenessTimeout]
  simp

theorem not_mem_tick_iff (hl : (exec timeout ops).1.clients.lookup id = some c) :
    id ∉ ((exec timeout ops).1.tick now).clients ↔ now - c.lastUpdate > timeout := by
  rw [← AList.lookup_eq_none]
  constructor
  · intro hn
    by_contra hle
    rw [tick_lookup.mpr ⟨hl, by omega⟩] at hn
    cases hn
  · intro hlt
    rw [Option.eq_none_iff_forall_ne_some]
    intro c' hc'
    obtain ⟨hl', hle⟩ := tick_lookup.mp hc'
    rw [hl] at hl'
    obtain rfl := Option.some.inj hl'
    omega

theorem lastAccepted_concat {op : Op}
    (hkeys : id ∈ ((exec timeout ops).1.perform op).1.clients ↔ id ∈ (exec timeout ops).1.clients)
    (he : frameTime id (op, ((exec timeout ops).1.perform op).2) = none) :
    lastAccepted id (life timeout (ops ++ [op]) id) = lastAccepted id (life timeout ops id) := by
  have hs := lived_exec timeout ops id
  rw [life_concat]
  by_cases hid : id ∈ (exec timeout ops).1.clients
  · obtain ⟨c, hl⟩ := Option.isSome_iff_exists.mp (AList.lookup_isSome.mpr hid)
    rw [if_pos (hkeys.mpr hid),
      lastAccepted_cons (ne_nil_of_lastAccepted (hs.recorded c hl).seen), he, Option.none_or]
  · rw [if_neg (mt hkeys.mp hid), hs.ended (AList.lookup_eq_none.mpr hid)]

theorem mem_setEnabled (s : PrivacyState) (b : Bool) :
    id ∈ (s.setEnabled b).clients ↔ id ∈ s.clients := by
  rw [AList.mem_keys, AList.mem_keys, setEnabled]
  split
  · rfl
  · split
    · rw [AList.keys_mapVal]
    · rfl

theorem detectsSilence (timeout : ℤ) (ops : List Op) : DetectsSilence timeout ops where
  exact id hid := by
    obtain ⟨c, hl⟩ := Option.isSome_iff_exists.mp (AList.lookup_isSome.mpr hid)
    exact ⟨c.lastUpdate, ((lived_exec timeout ops id).recorded c hl).seen,
      fun now => not_mem_tick_iff hl⟩
  kept op hop id := by
    rcases hop with hr | ⟨b, rfl⟩
    · apply lastAccepted_concat
      case hkeys => rw [perform_refused hr]
      case he => rw [hr]; cases op <;> rfl
    · exact lastAccepted_concat (mem_setEnabled _ b) rfl
  fresh now hm id hid := by
    obtain ⟨c, hl⟩ := Option.isSome_iff_exists.mp (AList.lookup_isSome.mpr hid)
    have hrun : (exec timeout (ops ++ [.tick now])).1 = (exec timeout ops).1.tick now := by
      rw [exec_append]; rfl
    have hr := (lived_exec timeout (ops ++ [.tick now]) id).recorded c (hrun ▸ hl)
    obtain ⟨-, -, -, -, hall⟩ := (mode_eq_safe_iff _).mp hm
    obtain ⟨-, hle⟩ := tick_lookup.mp hl
    exact ⟨c.lastUpdate, hr.update false (hall id c hl).2, by omega⟩
  silent id hs t ht now hlt := by
    rw [← lastAccepted_of_silent hs] at ht
    by_cases hid : id ∈ (exec timeout ops).1.clients
    · obtain ⟨c, hl⟩ := Option.isSome_iff_exists.mp (AList.lookup_isSome.mpr hid)
      rw [((lived_exec timeout ops id).recorded c hl).seen] at ht
      obtain rfl := Option.some.inj ht
      exact (not_mem_tick_iff hl).mpr (by omega)
    · intro hm
      obtain ⟨c, hl⟩ := Option.isSome_iff_exists.mp (AList.lookup_isSome.mpr hm)
      exact hid (AList.lookup_isSome.mp (by simp [(tick_lookup.mp hl).1]))

end DetectsSilence

end PrivacyState

end PrivacyGuard
