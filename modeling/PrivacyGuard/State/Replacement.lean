import Mathlib.Data.List.Iterate
import PrivacyGuard.State.Independence
import PrivacyGuard.State.Recovery

/-! # Replacing failed clients

Every counted failure is paid for by the first STATE of one new connection, in
whatever order the clients send their frames. A schedule lists calls together with
the connections they belong to.
-/

namespace PrivacyGuard

namespace PrivacyState

abbrev Schedule := List (ℕ × Op)

def script (id : ℕ) (schedule : Schedule) : List Op :=
  (schedule.filter (·.1 = id)).map Prod.snd

def openedIds (schedule : Schedule) : List ℕ :=
  schedule.filterMap fun e => if opens e.2 = 1 then some e.1 else none

def claimedIdentities (schedule : Schedule) : List Bytes := schedule.filterMap (Op.identity ·.2)

/-- Every live connection sends one larger STATE reporting safe, `n` connections are opened
under the identifiers handed out next and each sends a HELLO and such a STATE, and nothing
else happens. -/
structure Recovers (s : PrivacyState) (n : ℕ) (schedule : Schedule) : Prop where
  updates : ∀ id c, s.clients.lookup id = some c → ∃ sequence now,
    c.Accepts sequence ∧ script id schedule = [.stateReceived id sequence false now]
  joins : ∀ id ∈ openedIds schedule, ∃ opened clientId greeted sequence published,
    script id schedule = [.connectionOpened opened, .helloReceived id clientId greeted,
      .stateReceived id sequence false published]
  opened : openedIds schedule = List.iterate increment s.nextConnectionId n
  fresh : ∀ id ∈ openedIds schedule, id ∉ s.clients
  only : ∀ e ∈ schedule, e.1 ∈ s.clients ∨ e.1 ∈ openedIds schedule
  distinct : (claimedIdentities schedule).Nodup
  unused : ∀ id c, s.clients.lookup id = some c → c.clientId ∉ claimedIdentities schedule

/-! ### What is left of a schedule -/

def publishes : Op → Bool
  | .stateReceived _ _ _ _ => true
  | _ => false

/-- What a connection with the given record still has to send. -/
inductive Due (id : ℕ) (c : Client) : List Op → Prop
  | settled (record : Settled c) : Due id c []
  | update {sequence : UInt64} {now : ℤ} (greeted : c.helloReceived = true)
      (accepts : c.Accepts sequence) : Due id c [.stateReceived id sequence false now]
  | joining {clientId : Bytes} {greeted : ℤ} {sequence : UInt64} {published : ℤ}
      (pending : c.helloReceived = false) (unsequenced : c.lastSequence = none) :
      Due id c [.helloReceived id clientId greeted, .stateReceived id sequence false published]

/-- The records and openings whose first STATE is still to come. -/
def owed (s : PrivacyState) (schedule : Schedule) : ℕ :=
  (openedIds schedule).length + s.clients.entries.countP fun e => !e.2.sensitive.isSome

/-- A schedule under way: what is left of it suits the records. -/
structure Underway (s : PrivacyState) (schedule : Schedule) : Prop where
  due : ∀ id c, s.clients.lookup id = some c → Due id c (script id schedule)
  joins : ∀ id ∈ openedIds schedule, ∃ opened clientId greeted sequence published,
    script id schedule = [.connectionOpened opened, .helloReceived id clientId greeted,
      .stateReceived id sequence false published]
  opened : openedIds schedule =
    List.iterate increment s.nextConnectionId (openedIds schedule).length
  fresh : ∀ id ∈ openedIds schedule, s.clients.lookup id = none
  only : ∀ e ∈ schedule, s.clients.lookup e.1 ≠ none ∨ e.1 ∈ openedIds schedule
  distinct : (claimedIdentities schedule).Nodup
  unused : ∀ id c, s.clients.lookup id = some c → c.helloReceived = true →
    c.clientId ∉ claimedIdentities schedule

section Schedule

variable {id : ℕ} {e : ℕ × Op} {schedule : Schedule}

theorem script_cons_self (op : Op) :
    script id ((id, op) :: schedule) = op :: script id schedule := by
  simp [script]

theorem script_cons_ne (h : e.1 ≠ id) : script id (e :: schedule) = script id schedule := by
  simp [script, h]

theorem mem_script_of_mem (h : e ∈ schedule) : e.2 ∈ script e.1 schedule :=
  List.mem_map.mpr ⟨e, List.mem_filter.mpr ⟨h, by simp⟩, rfl⟩

theorem opening_of_mem_openedIds (h : id ∈ openedIds schedule) :
    ∃ op ∈ script id schedule, opens op = 1 := by
  obtain ⟨e, he, ho⟩ := List.mem_filterMap.mp h
  split at ho
  · rename_i hop
    obtain rfl := Option.some.inj ho
    exact ⟨e.2, mem_script_of_mem he, hop⟩
  · cases ho

theorem openedIds_cons_opening (now : ℤ) :
    openedIds ((id, .connectionOpened now) :: schedule) = id :: openedIds schedule := rfl

theorem openedIds_cons_frame {op : Op} (h : opens op = 0) (id : ℕ) (schedule : Schedule) :
    openedIds ((id, op) :: schedule) = openedIds schedule := by
  simp [openedIds, h]

theorem mem_openedIds_cons {op : Op} {other : ℕ} (hne : other ≠ id) :
    other ∈ openedIds ((id, op) :: schedule) ↔ other ∈ openedIds schedule := by
  by_cases hop : opens op = 1
  · simp [openedIds, hop, hne]
  · simp [openedIds, hop]

end Schedule

/-! ### One call of a schedule -/

namespace Underway

variable {s s' : PrivacyState} {id : ℕ} {op : Op} {rest : Schedule}

theorem claimedIdentities_sublist :
    (claimedIdentities rest).Sublist (claimedIdentities ((id, op) :: rest)) :=
  (List.sublist_cons_self _ _).filterMap _

/-- The next call opens the connection whose turn it is, or is what its connection owes. -/
inductive Next (s : PrivacyState) (id : ℕ) (rest : Schedule) : Op → Prop
  | opening (now : ℤ) (next : id = s.nextConnectionId) (lookup : s.clients.lookup id = none)
      {clientId : Bytes} {greeted : ℤ} {sequence : UInt64} {published : ℤ}
      (left : script id rest =
        [.helloReceived id clientId greeted, .stateReceived id sequence false published]) :
      Next s id rest (.connectionOpened now)
  | hello {c : Client} (lookup : s.clients.lookup id = some c) (pending : c.helloReceived = false)
      (unsequenced : c.lastSequence = none) (clientId : Bytes) (now : ℤ)
      {sequence : UInt64} {published : ℤ}
      (left : script id rest = [.stateReceived id sequence false published]) :
      Next s id rest (.helloReceived id clientId now)
  | state {c : Client} (lookup : s.clients.lookup id = some c) (greeted : c.helloReceived = true)
      (sequence : UInt64) (accepts : c.Accepts sequence) (now : ℤ) (left : script id rest = []) :
      Next s id rest (.stateReceived id sequence false now)

theorem next (h : Underway s ((id, op) :: rest)) : Next s id rest op := by
  rcases h.only (id, op) List.mem_cons_self with hl | hmem
  · obtain ⟨c, hc⟩ := Option.ne_none_iff_exists'.mp hl
    have hd := h.due id c hc
    rw [script_cons_self] at hd
    generalize hr : script id rest = left at hd
    cases hd with
    | update greeted accepts => exact .state hc greeted _ accepts _ hr
    | joining pending unsequenced => exact .hello hc pending unsequenced _ _ hr
  · obtain ⟨opened, clientId, greeted, sequence, published, hs⟩ := h.joins id hmem
    rw [script_cons_self] at hs
    obtain ⟨rfl, hleft⟩ := List.cons.inj hs
    have ho := h.opened
    rw [openedIds_cons_opening, List.length_cons, List.iterate] at ho
    exact .opening opened (List.cons.inj ho).1 (h.fresh id hmem) hleft

theorem written (h : Underway s ((id, op) :: rest)) {c : Client}
    (hself : s'.clients.lookup id = some c)
    (hother : ∀ other, other ≠ id → s'.clients.lookup other = s.clients.lookup other)
    (hnew : id ∉ openedIds rest)
    (hopened : openedIds rest = List.iterate increment s'.nextConnectionId (openedIds rest).length)
    (hdue : Due id c (script id rest))
    (hunused : c.helloReceived = true → c.clientId ∉ claimedIdentities rest) :
    Underway s' rest := by
  have hids : ∀ other ∈ openedIds rest, other ≠ id ∧ other ∈ openedIds ((id, op) :: rest) := by
    intro other ho
    have hne : other ≠ id := fun he => hnew (he ▸ ho)
    exact ⟨hne, (mem_openedIds_cons hne).mpr ho⟩
  constructor
  case due =>
    intro other d hd
    by_cases ho : other = id
    · subst ho
      rw [hself] at hd
      obtain rfl := Option.some.inj hd
      exact hdue
    · rw [hother other ho] at hd
      rw [← script_cons_ne (e := (id, op)) (Ne.symm ho)]
      exact h.due other d hd
  case joins =>
    intro other ho
    obtain ⟨hne, hmem⟩ := hids other ho
    rw [← script_cons_ne (e := (id, op)) hne.symm]
    exact h.joins other hmem
  case opened => exact hopened
  case fresh =>
    intro other ho
    obtain ⟨hne, hmem⟩ := hids other ho
    rw [hother other hne]
    exact h.fresh other hmem
  case only =>
    rintro ⟨other, op'⟩ he
    by_cases ho : other = id
    · subst ho
      exact Or.inl (by simp [hself])
    · rw [hother other ho, ← mem_openedIds_cons ho]
      exact h.only (other, op') (List.mem_cons_of_mem _ he)
  case distinct => exact h.distinct.sublist claimedIdentities_sublist
  case unused =>
    intro other d hd hh
    by_cases ho : other = id
    · subst ho
      rw [hself] at hd
      obtain rfl := Option.some.inj hd
      exact hunused hh
    · rw [hother other ho] at hd
      exact fun hm => h.unused other d hd hh (claimedIdentities_sublist.subset hm)

theorem replaced (h : Underway s ((id, op) :: rest)) {c c' : Client}
    (hl : s.clients.lookup id = some c) (hop : opens op = 0)
    (hclients : s'.clients = s.clients.replace id c')
    (hnext : s'.nextConnectionId = s.nextConnectionId) (hdue : Due id c' (script id rest))
    (hunused : c'.helloReceived = true → c'.clientId ∉ claimedIdentities rest) :
    Underway s' rest := by
  have hids := openedIds_cons_frame hop id rest
  apply h.written (c := c') _ _ _ _ hdue hunused
  · rw [hclients, AList.lookup_replace (AList.lookup_isSome.mp (by simp [hl]))]
  · intro other ho
    rw [hclients, AList.lookup_replace_ne ho]
  · intro hm
    rw [h.fresh id (hids ▸ hm)] at hl
    cases hl
  · rw [hnext, ← hids]
    exact h.opened

/-- One call of a schedule is not refused, and a first STATE settles one debt. -/
structure Steps (s : PrivacyState) (id : ℕ) (op : Op) (rest : Schedule) : Prop where
  answered : (s.perform op).2 ≠ .accepted false
  underway : Underway (s.perform op).1 rest
  enabled : (s.perform op).1.enabled = s.enabled
  balance : (s.perform op).1.disconnectedClients - owed (s.perform op).1 rest =
    s.disconnectedClients - owed s ((id, op) :: rest)
  nonempty : (s.perform op).1.clients.lookup id ≠ none
  latched : (s.perform op).1.untrustedFailureLatched = true →
    s.untrustedFailureLatched = true ∧ publishes op = false

theorem steps_opening {now : ℤ} (h : Underway s ((id, .connectionOpened now) :: rest))
    (hid : id = s.nextConnectionId) (hl : s.clients.lookup id = none)
    {clientId : Bytes} {greeted : ℤ} {sequence : UInt64} {published : ℤ}
    (hleft : script id rest =
      [.helloReceived id clientId greeted, .stateReceived id sequence false published]) :
    Steps s id (.connectionOpened now) rest := by
  subst hid
  have hnot : s.nextConnectionId ∉ s.clients := AList.lookup_eq_none.mp hl
  have hopened := h.opened
  rw [openedIds_cons_opening, List.length_cons, List.iterate] at hopened
  have hself : (s.clients.insert s.nextConnectionId { lastUpdate := now }).lookup
      s.nextConnectionId = some { lastUpdate := now } := AList.lookup_insert _
  have hnew : s.nextConnectionId ∉ openedIds rest := by
    intro hm
    obtain ⟨op, hop, hone⟩ := opening_of_mem_openedIds hm
    rw [hleft] at hop
    rcases List.mem_pair.mp hop with rfl | rfl <;> simp [opens] at hone
  constructor
  case answered => simp [perform]
  case underway =>
    simp only [perform, connectionOpened_of_fresh hl]
    apply h.written hself (fun other ho => AList.lookup_insert_ne ho) hnew _
      (hleft ▸ Due.joining rfl rfl)
    · simp
    · exact (List.cons.inj hopened).2
  case enabled => simp [perform, connectionOpened_of_fresh hl]
  case balance =>
    simp only [perform, connectionOpened_of_fresh hl, owed, openedIds_cons_opening,
      AList.entries_insert_of_notMem hnot, List.countP_cons, List.length_cons]
    simp only [Option.isSome_none, Bool.not_false, if_true]
    omega
  case nonempty => simp [perform, connectionOpened_of_fresh hl]
  case latched => simp [perform, connectionOpened_of_fresh hl, publishes]

theorem steps_hello {c : Client} {clientId : Bytes} {now : ℤ}
    (h : Underway s ((id, .helloReceived id clientId now) :: rest))
    (hl : s.clients.lookup id = some c) (hh : c.helloReceived = false)
    (hseq : c.lastSequence = none) {sequence : UInt64} {published : ℤ}
    (hleft : script id rest = [.stateReceived id sequence false published]) :
    Steps s id (.helloReceived id clientId now) rest := by
  have hclaimed : claimedIdentities ((id, .helloReceived id clientId now) :: rest) =
      clientId :: claimedIdentities rest := rfl
  have hdistinct := h.distinct
  rw [hclaimed, List.nodup_cons] at hdistinct
  have hd : s.duplicateIdentity id clientId = false := by
    rw [Bool.eq_false_iff, ne_eq, duplicateIdentity_iff]
    rintro ⟨other, c', hl', -, hg, rfl⟩
    exact h.unused other c' hl' hg (hclaimed ▸ List.mem_cons_self)
  have hperform : s.perform (.helloReceived id clientId now) =
      ({ s with clients := s.clients.replace id (c.greet clientId now) }, .accepted true) := by
    simp only [perform, helloReceived_of_fresh hl hh hd]
  have hself : (s.clients.replace id (c.greet clientId now)).lookup id =
      some (c.greet clientId now) :=
    AList.lookup_replace (AList.lookup_isSome.mp (by simp [hl]))
  have hdue : Due id (c.greet clientId now) (script id rest) :=
    hleft ▸ .update rfl (by simp [Client.Accepts, Client.greet, hseq])
  constructor
  case answered => simp [hperform]
  case underway =>
    rw [hperform]
    exact h.replaced hl rfl rfl rfl hdue fun _ => hdistinct.1
  case enabled => rw [hperform]
  case balance =>
    have hcount : (s.clients.replace id (c.greet clientId now)).entries.countP
        (fun e => !e.2.sensitive.isSome) =
          s.clients.entries.countP fun e => !e.2.sensitive.isSome :=
      Nat.add_right_cancel (AList.countP_replace (fun e : Entry => !e.2.sensitive.isSome) hl _)
    rw [hperform, owed, owed, openedIds_cons_frame rfl, hcount]
  case nonempty => rw [hperform, hself]; simp
  case latched => rw [hperform]; exact fun hs => ⟨hs, rfl⟩

theorem steps_state {c : Client} {sequence : UInt64} {now : ℤ}
    (h : Underway s ((id, .stateReceived id sequence false now) :: rest))
    (hl : s.clients.lookup id = some c) (hh : c.helloReceived = true)
    (ha : c.Accepts sequence) (hleft : script id rest = []) :
    Steps s id (.stateReceived id sequence false now) rest := by
  have hperform : s.perform (.stateReceived id sequence false now) =
      (s.publishState id c sequence false now, .accepted true) := by
    simp only [perform, stateReceived_of_accepts hl hh ha]
  have hself : (s.clients.replace id (c.publish sequence false now)).lookup id =
      some (c.publish sequence false now) :=
    AList.lookup_replace (AList.lookup_isSome.mp (by simp [hl]))
  have hdue : Due id (c.publish sequence false now) (script id rest) :=
    hleft ▸ .settled ⟨hh, rfl⟩
  constructor
  case answered => simp [hperform]
  case underway =>
    rw [hperform]
    change Underway (s.publishState id c sequence false now) rest
    exact h.replaced hl rfl rfl rfl hdue fun _ hm => h.unused id c hl hh hm
  case enabled => rw [hperform]; rfl
  case balance =>
    have hcount : (s.clients.replace id (c.publish sequence false now)).entries.countP
        (fun e => !e.2.sensitive.isSome) + (if !c.sensitive.isSome then 1 else 0) =
          s.clients.entries.countP fun e => !e.2.sensitive.isSome :=
      AList.countP_replace (fun e : Entry => !e.2.sensitive.isSome) hl _
    rw [hperform, owed, owed, openedIds_cons_frame rfl, ← hcount]
    simp only [publishState]
    cases c.sensitive with
    | some flag => rfl
    | none =>
      simp only [Option.isSome_none, Bool.false_eq_true, if_false, Bool.not_false, if_true]
      omega
  case nonempty => rw [hperform, publishState, hself]; simp
  case latched => rw [hperform]; simp [publishState]

/-- Every call of a schedule under way is answered and leaves the rest under way. -/
theorem steps (h : Underway s ((id, op) :: rest)) : Steps s id op rest := by
  cases h.next with
  | opening now next lookup left =>
    exact steps_opening h next lookup left
  | hello lookup pending unsequenced clientId now left =>
    exact steps_hello h lookup pending unsequenced left
  | state lookup greeted sequence accepts now left =>
    exact steps_state h lookup greeted accepts left

/-! ### Whole schedules -/

/-- All calls of a schedule under way are answered, and every new client settles one debt. -/
structure Completes (s : PrivacyState) (schedule : Schedule) (s' : PrivacyState)
    (events : List Event) : Prop where
  answered : ∀ e ∈ events, e.2 ≠ .accepted false
  settled : ∀ other c, s'.clients.lookup other = some c → Settled c
  enabled : s'.enabled = s.enabled
  count : s'.disconnectedClients = s.disconnectedClients - owed s schedule
  nonempty : schedule ≠ [] → ∃ other, s'.clients.lookup other ≠ none
  latched : s'.untrustedFailureLatched = true →
    s.untrustedFailureLatched = true ∧ ∀ e ∈ schedule, publishes e.2 = false

theorem completes {schedule : Schedule} (h : Underway s schedule) :
    Completes s schedule (execFrom s [] (schedule.map Prod.snd)).1
      (execFrom s [] (schedule.map Prod.snd)).2 := by
  induction schedule generalizing s with
  | nil =>
    constructor
    case answered => simp [execFrom]
    case settled =>
      intro other c hl
      have hd := h.due other c hl
      rw [script, List.filter_nil, List.map_nil] at hd
      cases hd
      assumption
    case enabled => rfl
    case count =>
      have hzero : owed s [] = 0 := by
        rw [owed, List.countP_eq_zero.mpr]
        · rfl
        · intro e he
          have hd := h.due e.1 e.2 (AList.mem_entries_iff.mp he)
          rw [script, List.filter_nil, List.map_nil] at hd
          cases hd with
          | settled record => simp [record.2]
      rw [hzero]
      rfl
    case nonempty => simp
    case latched => exact fun hl => ⟨hl, by simp⟩
  | cons e rest ih =>
    obtain ⟨id, op⟩ := e
    have hs := h.steps
    have hc := ih hs.underway
    rw [List.map_cons, execFrom, execFrom_eq]
    constructor
    case answered =>
      intro e he
      rcases List.mem_append.mp he with he | he
      · exact hc.answered e he
      · obtain rfl := List.mem_singleton.mp he
        exact hs.answered
    case settled => exact hc.settled
    case enabled => exact hc.enabled.trans hs.enabled
    case count => exact hc.count.trans hs.balance
    case nonempty =>
      intro _
      cases rest with
      | nil => exact ⟨id, hs.nonempty⟩
      | cons e rest => exact hc.nonempty (List.cons_ne_nil _ _)
    case latched =>
      intro hl
      obtain ⟨hl', hrest⟩ := hc.latched hl
      obtain ⟨hl'', hop⟩ := hs.latched hl'
      exact ⟨hl'', List.forall_mem_cons.mpr ⟨hop, hrest⟩⟩

end Underway

/-! ### Recovery by new clients -/

section Recovers

variable {s : PrivacyState} {n : ℕ} {schedule : Schedule}

theorem Recovers.underway (h : Recovers s n schedule) (hw : s.RecordsWellFormed)
    (hrec : ∀ id c, s.clients.lookup id = some c → c.sensitive.isSome = true) :
    Underway s schedule where
  due id c hl := by
    obtain ⟨sequence, now, ha, hs⟩ := h.updates id c hl
    rw [hs]
    refine .update ?_ ha
    by_contra hh
    have hnone := ((hw id c hl).blank (by simpa using hh)).2.2
    have hsome := hrec id c hl
    simp [hnone] at hsome
  joins := h.joins
  opened := by rw [h.opened, List.length_iterate]
  fresh id hid := AList.lookup_eq_none.mpr (h.fresh id hid)
  only e he := (h.only e he).imp_left fun hm hn => AList.lookup_eq_none.mp hn hm
  distinct := h.distinct
  unused id c hl _ := h.unused id c hl

theorem Recovers.owed_eq (h : Recovers s n schedule)
    (hrec : ∀ id c, s.clients.lookup id = some c → c.sensitive.isSome = true) :
    owed s schedule = n := by
  rw [owed, h.opened, List.length_iterate, List.countP_eq_zero.mpr, Nat.add_zero]
  intro e he
  simp [hrec e.1 e.2 (AList.mem_entries_iff.mp he)]

theorem exists_of_mem_script {id : ℕ} {op : Op} (h : op ∈ script id schedule) :
    ∃ e ∈ schedule, e.2 = op := by
  obtain ⟨e, he, rfl⟩ := List.mem_map.mp h
  exact ⟨e, List.mem_of_mem_filter he, rfl⟩

theorem le_of_mem_iterate_increment {id a n : ℕ} (hn : a + n ≤ wordSize)
    (h : id ∈ List.iterate increment a n) : a ≤ id := by
  induction n generalizing a with
  | zero => simp [List.iterate] at h
  | succ n ih =>
    rcases List.mem_cons.mp h with rfl | h
    · exact le_rfl
    · cases n with
      | zero => simp [List.iterate] at h
      | succ n =>
        rw [increment_of_lt (by omega)] at h
        have := ih (by omega) h
        omega

/-- As long as the openings do not exhaust the identifiers, new connections get new ones. -/
theorem not_mem_clients_of_openings {timeout : ℤ} {pre : List Op} {n : ℕ}
    (hn : openings pre + n < wordSize) :
    ∀ id ∈ List.iterate increment (exec timeout pre).1.nextConnectionId n,
      id ∉ (exec timeout pre).1.clients := by
  intro id hid hmem
  have hc := counted_exec timeout pre (by omega)
  obtain ⟨c, hl⟩ := Option.isSome_iff_exists.mp (AList.lookup_isSome.mpr hmem)
  cases n with
  | zero => simp [List.iterate] at hid
  | succ n =>
    have hnext := hc.next_eq (by omega)
    have hle := le_of_mem_iterate_increment (by omega) hid
    have := hc.keys id c hl
    omega

theorem Recovers.exists_publishes (h : Recovers s n schedule)
    (hn : 0 < n + s.clients.entries.length) : ∃ e ∈ schedule, publishes e.2 = true := by
  obtain ⟨id, op, hop, hp⟩ : ∃ id, ∃ op ∈ script id schedule, publishes op = true := by
    cases he : s.clients.entries with
    | cons e entries =>
      have hl : s.clients.lookup e.1 = some e.2 :=
        AList.mem_entries_iff.mp (he ▸ List.mem_cons_self)
      obtain ⟨sequence, now, -, hs⟩ := h.updates e.1 e.2 hl
      exact ⟨e.1, .stateReceived e.1 sequence false now, by simp [hs], rfl⟩
    | nil =>
      cases n with
      | zero => simp [he] at hn
      | succ n =>
        have hmem : s.nextConnectionId ∈ openedIds schedule := by
          rw [h.opened, List.iterate]
          exact List.mem_cons_self
        obtain ⟨opened, clientId, greeted, sequence, published, hs⟩ := h.joins _ hmem
        exact ⟨s.nextConnectionId, .stateReceived s.nextConnectionId sequence false published,
          by rw [hs]; simp, rfl⟩
  obtain ⟨e, he, rfl⟩ := exists_of_mem_script hop
  exact ⟨e, he, hp⟩

theorem mode_eq_disconnected {s : PrivacyState} (hen : s.enabled = true)
    (hd : 0 < s.disconnectedClients) : s.mode = .disconnected := by
  simp [mode, hen, hd]

/-- New clients bring the output back exactly when there are as many as counted failures. -/
theorem Recovers.mode_eq (h : Recovers s n schedule) (hw : s.RecordsWellFormed)
    (hen : s.enabled = true)
    (hrec : ∀ id c, s.clients.lookup id = some c → c.sensitive.isSome = true)
    (hn : 0 < n + s.clients.entries.length) :
    (execFrom s [] (schedule.map Prod.snd)).1.mode =
      if n < s.disconnectedClients then .disconnected else .safe := by
  have hc := (h.underway hw hrec).completes
  have hcount := hc.count
  rw [h.owed_eq hrec] at hcount
  obtain ⟨e, he, hp⟩ := h.exists_publishes hn
  split
  · exact mode_eq_disconnected (hc.enabled.trans hen) (by omega)
  · rw [mode_eq_safe_iff]
    refine ⟨hc.enabled.trans hen, ?_, by omega, hc.nonempty (List.ne_nil_of_mem he), hc.settled⟩
    rw [Bool.eq_false_iff]
    intro hl
    simp [(hc.latched hl).2 e he] at hp

end Recovers

/-! ### Never locked out -/

def Vacant (s : PrivacyState) : Prop := ∀ id, s.clients.lookup id = none

def join (id : ℕ) : List Op :=
  [.connectionOpened 0, .helloReceived id [] 0, .stateReceived id 0 false 0]

structure Joined (s s' : PrivacyState) : Prop where
  enabled : s'.enabled = s.enabled
  unlatched : s'.untrustedFailureLatched = false
  count : s'.disconnectedClients = s.disconnectedClients - 1
  record : ∃ c, s'.clients.lookup s.nextConnectionId = some c ∧ Settled c
  others : ∀ id, id ≠ s.nextConnectionId → s'.clients.lookup id = none

section Joined

variable {s s' : PrivacyState}

theorem joined_join (hv : s.Vacant) (h : List Event) :
    Joined s (execFrom s h (join s.nextConnectionId)).1 := by
  let id := s.nextConnectionId
  let blank : Client := { lastUpdate := 0 }
  let opened : PrivacyState :=
    { s with clients := s.clients.insert id blank, nextConnectionId := increment id }
  let greeted : PrivacyState :=
    { opened with clients := opened.clients.replace id (blank.greet [] 0) }
  have hopened : (s.perform (.connectionOpened 0)).1 = opened := by
    simp only [perform, connectionOpened_of_fresh (hv s.nextConnectionId), opened, id, blank]
  have hother : ∀ other, other ≠ id → opened.clients.lookup other = none := fun other ho =>
    (AList.lookup_insert_ne ho).trans (hv other)
  have hl : opened.clients.lookup id = some blank := AList.lookup_insert _
  have hd : opened.duplicateIdentity id [] = false := by
    rw [Bool.eq_false_iff, ne_eq, duplicateIdentity_iff]
    rintro ⟨other, c, hc, ho, -⟩
    rw [hother other ho] at hc
    cases hc
  have hgreeted : (opened.perform (.helloReceived id [] 0)).1 = greeted := by
    simp only [perform, helloReceived_of_fresh hl rfl hd, greeted]
  have hl' : greeted.clients.lookup id = some (blank.greet [] 0) :=
    AList.lookup_replace (AList.lookup_isSome.mp (by simp [hl]))
  have hstate : (greeted.perform (.stateReceived id 0 false 0)).1 =
      greeted.publishState id (blank.greet [] 0) 0 false 0 := by
    have haccepts : (blank.greet [] 0).Accepts 0 := by simp [Client.Accepts, Client.greet, blank]
    simp only [perform, stateReceived_of_accepts hl' rfl haccepts]
  have hrun : (execFrom s h (join s.nextConnectionId)).1 =
      greeted.publishState id (blank.greet [] 0) 0 false 0 := by
    change ((((s.perform (.connectionOpened 0)).1.perform (.helloReceived id [] 0)).1).perform
      (.stateReceived id 0 false 0)).1 = _
    rw [hopened, hgreeted, hstate]
  rw [hrun]
  constructor
  case enabled => rfl
  case unlatched => rfl
  case count => rfl
  case record =>
    have hmem : id ∈ greeted.clients := AList.lookup_isSome.mp (by simp [hl'])
    exact ⟨_, AList.lookup_replace hmem, rfl, rfl⟩
  case others =>
    intro other ho
    exact (AList.lookup_replace_ne ho).trans ((AList.lookup_replace_ne ho).trans (hother other ho))

theorem Joined.mode_eq_safe (h : Joined s s') (hen : s.enabled = true)
    (hd : s.disconnectedClients ≤ 1) : s'.mode = .safe := by
  obtain ⟨c, hl, hc⟩ := h.record
  rw [PrivacyState.mode_eq_safe_iff]
  have hcount := h.count
  refine ⟨h.enabled.trans hen, h.unlatched, by omega, ⟨_, by rw [hl]; simp⟩, ?_⟩
  intro id c' hl'
  by_cases hid : id = s.nextConnectionId
  · rw [hid, hl] at hl'
    obtain rfl := Option.some.inj hl'
    exact hc
  · rw [h.others id hid] at hl'
    cases hl'

theorem Joined.leave (h : Joined s s') :
    Vacant (s'.perform (.goodbyeReceived s.nextConnectionId)).1 ∧
      (s'.perform (.goodbyeReceived s.nextConnectionId)).1.enabled = s.enabled ∧
      (s'.perform (.goodbyeReceived s.nextConnectionId)).1.disconnectedClients =
        s.disconnectedClients - 1 := by
  obtain ⟨c, hl, hc⟩ := h.record
  have hperform : (s'.perform (.goodbyeReceived s.nextConnectionId)).1 =
      { s' with clients := s'.clients.erase s.nextConnectionId } := by
    simp [perform, goodbyeReceived, hl, hc.1]
  rw [hperform]
  refine ⟨fun id => ?_, h.enabled, h.count⟩
  by_cases hid : id = s.nextConnectionId
  · rw [hid]
    exact AList.lookup_erase _ _
  · exact (AList.lookup_erase_ne hid).trans (h.others id hid)

end Joined

/-- The call is not a request to enable or disable the protection. -/
def keepsEnablement : Op → Bool
  | .setEnabled _ => false
  | _ => true

/-- Clients that join and leave one after another settle every failure. -/
theorem exists_safe_of_vacant {s : PrivacyState} (hv : s.Vacant) (hen : s.enabled = true) :
    ∃ ops, (∀ op ∈ ops, keepsEnablement op = true) ∧ ∀ h, (execFrom s h ops).1.mode = .safe := by
  induction hk : s.disconnectedClients using Nat.strongRecOn generalizing s with
  | ind k ih =>
    by_cases hd : s.disconnectedClients ≤ 1
    · refine ⟨join s.nextConnectionId, by simp [join, keepsEnablement], fun h => ?_⟩
      exact (joined_join hv h).mode_eq_safe hen hd
    · obtain ⟨hvacant, henabled, hcount⟩ := (joined_join hv []).leave
      obtain ⟨ops, hops, hsafe⟩ := ih _ (by omega) hvacant (henabled.trans hen) rfl
      refine ⟨join s.nextConnectionId ++ .goodbyeReceived s.nextConnectionId :: ops, ?_, ?_⟩
      · intro op hop
        simp only [join, List.mem_append, List.mem_cons, List.not_mem_nil, or_false] at hop
        rcases hop with (rfl | rfl | rfl) | rfl | hop
        all_goals first | rfl | exact hops op hop
      · intro h
        have hstate : (execFrom s h (join s.nextConnectionId)).1 =
            (execFrom s [] (join s.nextConnectionId)).1 := by rw [execFrom_eq s h]
        rw [execFrom_append, execFrom, hstate]
        exact hsafe _

theorem lookup_closed {s : PrivacyState} {ids : List ℕ} {h : List Event} {id : ℕ} {c : Client}
    (hl : (execFrom s h (ids.map Op.connectionClosed)).1.clients.lookup id = some c) :
    s.clients.lookup id = some c ∧ id ∉ ids := by
  induction ids generalizing s h with
  | nil => exact ⟨hl, List.not_mem_nil⟩
  | cons other ids ih =>
    obtain ⟨hl', hnot⟩ := ih hl
    have hl'' := removeFailed_lookup hl'
    refine ⟨hl'', ?_⟩
    rw [List.mem_cons, not_or]
    refine ⟨?_, hnot⟩
    rintro rfl
    change (s.removeFailed id).clients.lookup id = some c at hl'
    rw [removeFailed_of_some hl''] at hl'
    simp at hl'

theorem enabled_closed (s : PrivacyState) (h : List Event) (ids : List ℕ) :
    (execFrom s h (ids.map Op.connectionClosed)).1.enabled = s.enabled := by
  induction ids generalizing s h with
  | nil => rfl
  | cons id ids ih => exact (ih _ _).trans (removeFailed_enabled s id)

/-- From every enabled state the output can be brought back without re-arming. -/
theorem exists_safe {s : PrivacyState} (hen : s.enabled = true) :
    ∃ ops, (∀ op ∈ ops, keepsEnablement op = true) ∧ ∀ h, (execFrom s h ops).1.mode = .safe := by
  let closes := s.clients.keys.map Op.connectionClosed
  have hvacant : Vacant (execFrom s [] closes).1 := by
    intro id
    rw [Option.eq_none_iff_forall_ne_some]
    intro c hl
    obtain ⟨hl', hnot⟩ := lookup_closed hl
    exact hnot (AList.mem_keys.mp (AList.lookup_isSome.mp (by simp [hl'])))
  obtain ⟨ops, hops, hsafe⟩ :=
    exists_safe_of_vacant hvacant ((enabled_closed s [] _).trans hen)
  refine ⟨closes ++ ops, ?_, fun h => ?_⟩
  · intro op hop
    rcases List.mem_append.mp hop with hop | hop
    · obtain ⟨id, -, rfl⟩ := List.mem_map.mp hop
      rfl
    · exact hops op hop
  · have hstate : (execFrom s h closes).1 = (execFrom s [] closes).1 := by rw [execFrom_eq s h]
    rw [execFrom_append, hstate]
    exact hsafe _

end PrivacyState

open PrivacyState

/-- From every reachable enabled state, recovery takes as many new clients as there are
counted failures, and the output is never hidden for good. -/
theorem recovers_with_new_clients (timeout : ℤ) (pre : List Op)
    (hen : (exec timeout pre).1.enabled = true) :
    (∀ n schedule, Recovers (exec timeout pre).1 n schedule →
      (∀ id c, (exec timeout pre).1.clients.lookup id = some c → c.sensitive.isSome = true) →
      0 < n + (exec timeout pre).1.clients.entries.length →
        (∀ e ∈ (execFrom (exec timeout pre).1 [] (schedule.map Prod.snd)).2,
          e.2 ≠ .accepted false) ∧
        (exec timeout (pre ++ schedule.map Prod.snd)).1.mode =
          if n < (exec timeout pre).1.disconnectedClients then .disconnected else .safe) ∧
      ∃ ops, (∀ op ∈ ops, keepsEnablement op = true) ∧
        (exec timeout (pre ++ ops)).1.mode = .safe := by
  have hw := recordsWellFormed_exec timeout pre
  constructor
  · intro n schedule h hrec hn
    refine ⟨(h.underway hw hrec).completes.answered, ?_⟩
    rw [exec_append]
    exact h.mode_eq hw hen hrec hn
  · obtain ⟨ops, hops, hsafe⟩ := exists_safe hen
    refine ⟨ops, hops, ?_⟩
    rw [exec_append]
    exact hsafe []

def oneFailed : List Op :=
  [.connectionOpened 0, .connectionOpened 0, .helloReceived 1 [97] 0, .helloReceived 2 [98] 0,
    .stateReceived 1 1 true 0, .stateReceived 2 1 true 0, .connectionClosed 1]

def replacement : Schedule :=
  [(3, .connectionOpened 9), (2, .stateReceived 2 2 false 9), (3, .helloReceived 3 [97] 9),
    (3, .stateReceived 3 0 false 9)]

theorem recovers_replacement : Recovers (exec 2000 oneFailed).1 1 replacement := by
  have hlive : ∀ id c, (exec 2000 oneFailed).1.clients.lookup id = some c →
      id = 2 ∧ c.clientId = [98] ∧ c.lastSequence = some 1 :=
    (AList.forall_entries_iff (s := (exec 2000 oneFailed).1.clients) (P := fun e =>
      e.1 = 2 ∧ e.2.clientId = [98] ∧ e.2.lastSequence = some 1)).mp (by decide)
  constructor
  case updates =>
    intro id c hl
    obtain ⟨rfl, -, hs⟩ := hlive id c hl
    exact ⟨2, 9, by simp [Client.Accepts, hs], rfl⟩
  case joins =>
    intro id hid
    obtain rfl : id = 3 := List.mem_singleton.mp hid
    exact ⟨9, [97], 9, 0, 9, rfl⟩
  case opened => decide
  case fresh => decide
  case only => decide
  case distinct => decide
  case unused =>
    intro id c hl
    obtain ⟨rfl, hc, -⟩ := hlive id c hl
    rw [hc]
    decide

theorem mode_replacement :
    (exec 2000 (oneFailed ++ replacement.map Prod.snd)).1.mode = .safe := by
  have hrec : ∀ id c, (exec 2000 oneFailed).1.clients.lookup id = some c →
      c.sensitive.isSome = true :=
    (AList.forall_entries_iff (s := (exec 2000 oneFailed).1.clients) (P := fun e =>
      e.2.sensitive.isSome = true)).mp (by decide)
  exact ((recovers_with_new_clients 2000 oneFailed (by decide)).1 1 replacement
    recovers_replacement hrec (by decide)).2

end PrivacyGuard
