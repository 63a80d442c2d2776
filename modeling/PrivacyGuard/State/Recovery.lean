import Mathlib.Data.Fintype.EquivFin
import Mathlib.Data.List.Induction
import PrivacyGuard.State.Records
import PrivacyGuard.State.History

/-! # Recovery after a failure

When a connection fails, which later calls can bring the output back? A failure of
a published connection is counted and undone by the first STATE of any connection
that has none recorded, be it new, still pending, or cleared by re-arming. The
failure outlasts all existing connections exactly when the failures outnumber the
connections that can still send such a STATE.
-/

namespace PrivacyGuard

open History

namespace PrivacyState

def removesFailed : Op → Bool
  | .protocolError _ => true
  | .connectionClosed _ => true
  | .tick _ => true
  | _ => false

def failing (s : PrivacyState) (op : Op) (e : Entry) : Bool :=
  match op with
  | .protocolError id => decide (e.1 = id)
  | .connectionClosed id => decide (e.1 = id)
  | .tick now => s.expired now e.2
  | _ => false

/-- Some sequence number is still larger than the last one accepted. -/
def canPublish (c : Client) : Bool := decide (c.lastSequence ≠ some (-1))

/-- A record whose next accepted STATE counts as initial. -/
def waiting (c : Client) : Bool := !c.sensitive.isSome && canPublish c

/-- The counted failures once the call has removed its failed connections. -/
def outstanding (s : PrivacyState) (op : Op) : ℕ :=
  s.disconnectedClients + s.clients.entries.countP fun e => s.failing op e && e.2.sensitive.isSome

/-- The connections left by the call whose next STATE counts as initial. -/
def waitingLeft (s : PrivacyState) (op : Op) : ℕ :=
  s.clients.entries.countP fun e => !s.failing op e && waiting e.2

/-- The failures of the call outnumber the connections that could undo them, or no
connection it leaves can have a STATE accepted at all. -/
def Covered (s : PrivacyState) (op : Op) : Prop :=
  s.waitingLeft op < s.outstanding op ∨
    ∀ e ∈ s.clients.entries, s.failing op e = false → canPublish e.2 = false

instance (s : PrivacyState) (op : Op) : Decidable (s.Covered op) :=
  inferInstanceAs (Decidable (_ < _ ∨ ∀ e ∈ s.clients.entries, _))

/-! ### The failing call -/

section Failing

variable {s : PrivacyState} {op : Op} {n : ℕ}

structure AfterFailure (s : PrivacyState) (op : Op) (s' : PrivacyState) : Prop where
  clients : s'.clients = s.clients.filter fun e => !s.failing op e
  count : s'.disconnectedClients = s.outstanding op
  latched : s'.untrustedFailureLatched =
    (s.untrustedFailureLatched ||
      s.clients.entries.any fun e => s.failing op e && !e.2.sensitive.isSome)
  enabled : s'.enabled = s.enabled

theorem afterFailure_removeFailed (hc : Counted n s) (hn : n < wordSize) {id : ℕ}
    (hop : ∀ e, s.failing op e = decide (e.1 = id)) :
    AfterFailure s op (s.removeFailed id) := by
  have hout : s.outstanding op = s.disconnectedClients +
      s.clients.entries.countP fun e => decide (e.1 = id) && e.2.sensitive.isSome := by
    simp only [outstanding, hop]
  cases hl : s.clients.lookup id with
  | none =>
    have hne : ∀ e ∈ s.clients.entries, e.1 ≠ id := by
      rintro e he rfl
      simp [AList.mem_entries_iff.mp he] at hl
    rw [removeFailed_of_none hl]
    refine ⟨AList.ext ?_, ?_, ?_, rfl⟩
    · rw [AList.entries_filter, eq_comm, List.filter_eq_self]
      intro e he
      simp [hop, hne e he]
    · rw [hout, List.countP_eq_zero.mpr (fun e he => by simp [hne e he]), Nat.add_zero]
    · rw [List.any_eq_false.mpr (fun e he => by simp [hop, hne e he]), Bool.or_false]
  | some c =>
    have hmem := AList.mem_entries_iff.mpr hl
    have hd := hc.removeFailed_disconnectedClients hn hl
    refine ⟨?_, ?_, ?_, by simp [removeFailed_of_some hl]⟩
    · rw [removeFailed_of_some hl]
      apply AList.ext
      rw [AList.entries_erase, AList.entries_filter]
      exact List.filter_congr fun e _ => by simp [hop]
    · have hcount := AList.countP_erase
        (fun e : Entry => decide (e.1 = id) && e.2.sensitive.isSome) hl
      rw [List.countP_eq_zero.mpr, Nat.zero_add] at hcount
      · rw [hd, hout, ← hcount]; simp
      · intro e he
        rw [AList.entries_erase] at he
        simpa using fun h => absurd h (by simpa using (List.mem_filter.mp he).2)
    · rw [removeFailed_of_some hl]
      simp only [recordConnectionFailure_untrustedFailureLatched]
      congr 1
      rw [Bool.eq_iff_iff, List.any_eq_true]
      constructor
      · intro hs
        exact ⟨⟨id, c⟩, hmem, by simpa [hop] using hs⟩
      · rintro ⟨e, he, hs⟩
        rw [Bool.and_eq_true, hop, decide_eq_true_iff] at hs
        obtain rfl : e = ⟨id, c⟩ := s.clients.nodupKeys.eq_of_fst_eq he hmem hs.1
        exact hs.2

theorem afterFailure_tick (hc : Counted n s) (hn : n < wordSize) (now : ℤ) :
    AfterFailure s (.tick now) (s.tick now) where
  clients := by rw [tick_eq]; rfl
  count := by
    rw [hc.tick_disconnectedClients hn, outstanding, expiredEntries, List.countP_filter]
    simp [failing, Bool.and_comm]
  latched := by
    rw [tick_eq]
    simp [expiredEntries, failing, List.any_filter]
  enabled := by rw [tick_eq]

theorem afterFailure_perform (hc : Counted n s) (hn : n < wordSize)
    (hop : removesFailed op = true) : AfterFailure s op (s.perform op).1 := by
  cases op with
  | protocolError id => exact afterFailure_removeFailed hc hn fun _ => rfl
  | connectionClosed id => exact afterFailure_removeFailed hc hn fun _ => rfl
  | tick now => exact afterFailure_tick hc hn now
  | _ => simp [removesFailed] at hop

end Failing

/-! ### What can still publish -/

theorem canPublish_of_accepts {c : Client} {sequence : UInt64} (h : c.Accepts sequence) :
    canPublish c = true := by
  rw [canPublish, decide_eq_true_iff]
  intro hl
  have := UInt64.lt_iff_toNat_lt.mp (h _ hl)
  have := sequence.toNat_lt
  simp at *
  omega

theorem accepts_of_canPublish {c : Client} (h : canPublish c = true) : c.Accepts (-1) := by
  rw [canPublish, decide_eq_true_iff] at h
  intro last hl
  rw [hl] at h
  have hne : last ≠ -1 := fun he => h (by rw [he])
  rw [UInt64.lt_iff_toNat_lt]
  have hle := last.toNat_lt
  have hne' : last.toNat ≠ (-1 : UInt64).toNat := fun he => hne (UInt64.toNat_inj.mp he)
  simp at *
  omega

end PrivacyState

open PrivacyState

/-- Under enabled protection, a connection that had a STATE accepted before fails. -/
structure Failure (timeout : ℤ) (pre : List Op) (op : Op) (id : ℕ) : Prop where
  enabled : (exec timeout pre).1.enabled = true
  published : ∃ e ∈ (exec timeout pre).2, (acceptedState id e).isSome = true
  removes : removesFailed op = true
  before : (exec timeout pre).1.clients.lookup id ≠ none
  after : ((exec timeout pre).1.perform op).1.clients.lookup id = none

def Rearmed (post : List Op) : Prop :=
  [Op.setEnabled false, Op.setEnabled true].Sublist post

/-- A connection opened by one of these calls had a STATE accepted by another. -/
def FreshState (events : List Event) : Prop :=
  ∃ id, (∃ now, ((Op.connectionOpened now, Reply.opened id) : Event) ∈ events) ∧
    ∃ e ∈ events, (acceptedState id e).isSome = true

/-- The output is not safe after the later calls unless they re-arm the protection or
contain the first STATE of a connection opened after the failing call. -/
def StaysHidden (timeout : ℤ) (pre : List Op) (op : Op) (post : List Op) : Prop :=
  ¬ Rearmed post →
    ¬ FreshState (execFrom (exec timeout (pre ++ [op])).1 [] post).2 →
      (exec timeout (pre ++ op :: post)).1.mode ≠ .safe

/-! ### A covered failure stays hidden -/

/-- A waiting record of one of the first `n` connections. -/
def waitingUpTo (n : ℕ) (e : Entry) : Bool := decide (e.1 ≤ n) && waiting e.2

/-- A failure is still outstanding `n` openings into the run: later connections have not
published, and the earlier ones cannot make up for it. -/
structure Hidden (n : ℕ) (events : List Event) (s : PrivacyState) : Prop where
  opened : ∀ (id : ℕ) (c : Client), n < id → s.clients.lookup id = some c →
    (∃ now, ((Op.connectionOpened now, Reply.opened id) : Event) ∈ events) ∧ c.sensitive = none
  covered :
    s.clients.entries.countP (waitingUpTo n) < s.disconnectedClients ∨
      (∀ (id : ℕ) (c : Client), id ≤ n → s.clients.lookup id = some c → canPublish c = false) ∧
        (s.untrustedFailureLatched = true ∨ 0 < s.disconnectedClients)

namespace Hidden

variable {n m : ℕ} {events : List Event} {s s' : PrivacyState} {e : Event}

theorem mode_ne_safe (hh : Hidden n events s) : s.mode ≠ .safe := by
  intro hs
  obtain ⟨-, hlat, hd, -⟩ := (mode_eq_safe_iff s).mp hs
  rcases hh.covered with h | ⟨-, h | h⟩
  · omega
  · simp [hlat] at h
  · omega

theorem of_sublist (hh : Hidden n events s)
    (hsub : s'.clients.entries.Sublist s.clients.entries)
    (hd : s.disconnectedClients ≤ s'.disconnectedClients)
    (hl : s.untrustedFailureLatched = true → s'.untrustedFailureLatched = true) :
    Hidden n (e :: events) s' := by
  have hlook : ∀ (id : ℕ) (c : Client), s'.clients.lookup id = some c →
      s.clients.lookup id = some c := fun id c h =>
    AList.mem_entries_iff.mp (hsub.subset (AList.mem_entries_iff.mpr h))
  constructor
  case opened =>
    intro id c hid hc
    obtain ⟨⟨now, ho⟩, hc⟩ := hh.opened id c hid (hlook id c hc)
    exact ⟨⟨now, List.mem_cons_of_mem _ ho⟩, hc⟩
  case covered =>
    rcases hh.covered with h | ⟨hcan, h⟩
    · left
      exact lt_of_le_of_lt (hsub.countP_le) (lt_of_lt_of_le h hd)
    · right
      refine ⟨fun id c hid hc => hcan id c hid (hlook id c hc), ?_⟩
      rcases h with h | h
      · exact Or.inl (hl h)
      · exact Or.inr (lt_of_lt_of_le h hd)

theorem connectionOpened (hh : Hidden n events s) (hc : Counted m s) (hnm : n ≤ m)
    (hm : m + 1 < wordSize) (now : ℤ) :
    Hidden n ((.connectionOpened now, (s.perform (.connectionOpened now)).2) :: events)
      (s.perform (.connectionOpened now)).1 := by
  have hfresh := hc.next_fresh hm
  have hnext := hc.next_eq hm
  have hnot : s.nextConnectionId ∉ s.clients := AList.lookup_eq_none.mp hfresh
  simp only [perform, connectionOpened_of_fresh hfresh]
  constructor
  case opened =>
    intro id c hid hl
    by_cases hid' : id = s.nextConnectionId
    · subst hid'
      simp only [AList.lookup_insert] at hl
      obtain rfl := Option.some.inj hl
      exact ⟨⟨now, List.mem_cons_self⟩, rfl⟩
    · simp only [AList.lookup_insert_ne hid'] at hl
      obtain ⟨⟨t, ho⟩, hc⟩ := hh.opened id c hid hl
      exact ⟨⟨t, List.mem_cons_of_mem _ ho⟩, hc⟩
  case covered =>
    rcases hh.covered with h | ⟨hcan, h⟩
    · left
      have hnew : ¬ s.nextConnectionId ≤ n := by omega
      simp only [AList.entries_insert_of_notMem hnot, List.countP_cons]
      simpa [waitingUpTo, hnew] using h
    · refine Or.inr ⟨fun id c hid hl => ?_, h⟩
      have hid' : id ≠ s.nextConnectionId := by omega
      simp only [AList.lookup_insert_ne hid'] at hl
      exact hcan id c hid hl

theorem helloReceived (hh : Hidden n events s) (id : ℕ) (clientId : Bytes) (now : ℤ) :
    Hidden n ((.helloReceived id clientId now,
      (s.perform (.helloReceived id clientId now)).2) :: events)
      (s.perform (.helloReceived id clientId now)).1 := by
  rcases s.helloReceived_cases id clientId now with hg | ⟨c, hl, -, -, hg⟩
  · simp only [perform, hg]
    exact hh.of_sublist (List.Sublist.refl _) le_rfl fun h => h
  · simp only [perform, hg]
    constructor
    case opened =>
      intro other c' hid hl'
      rcases lookup_replace_cases hl hl' with ⟨rfl, rfl⟩ | hk
      · obtain ⟨⟨t, ho⟩, hc⟩ := hh.opened other c hid hl
        exact ⟨⟨t, List.mem_cons_of_mem _ ho⟩, hc⟩
      · obtain ⟨⟨t, ho⟩, hc⟩ := hh.opened other c' hid hk
        exact ⟨⟨t, List.mem_cons_of_mem _ ho⟩, hc⟩
    case covered =>
      rcases hh.covered with h | ⟨hcan, h⟩
      · left
        have := AList.countP_replace (waitingUpTo n) hl (c.greet clientId now)
        have hw : waitingUpTo n ⟨id, c.greet clientId now⟩ = waitingUpTo n ⟨id, c⟩ := rfl
        rw [hw] at this
        simp only
        omega
      · refine Or.inr ⟨fun other c' hid hl' => ?_, h⟩
        rcases lookup_replace_cases hl hl' with ⟨rfl, rfl⟩ | hk
        · exact hcan other c hid hl
        · exact hcan other c' hid hk

/-- An accepted STATE uses up a waiting record whenever it lowers the counter. -/
theorem stateReceived (hh : Hidden n events s) (id : ℕ) (sequence : UInt64) (sensitive : Bool)
    (now : ℤ)
    (hfresh : ¬ FreshState ((.stateReceived id sequence sensitive now,
      (s.perform (.stateReceived id sequence sensitive now)).2) :: events)) :
    Hidden n ((.stateReceived id sequence sensitive now,
      (s.perform (.stateReceived id sequence sensitive now)).2) :: events)
      (s.perform (.stateReceived id sequence sensitive now)).1 := by
  rcases s.stateReceived_cases id sequence sensitive now with hg | ⟨c, hl, -, ha, hg⟩
  · simp only [perform, hg]
    exact hh.of_sublist (List.Sublist.refl _) le_rfl fun h => h
  · simp only [perform, hg] at hfresh ⊢
    have hold : id ≤ n := by
      by_contra hid
      obtain ⟨⟨t, ho⟩, -⟩ := hh.opened id c (by omega) hl
      exact hfresh ⟨id, ⟨t, List.mem_cons_of_mem _ ho⟩, _, List.mem_cons_self,
        by simp [acceptedState]⟩
    have hcan := canPublish_of_accepts ha
    refine ⟨fun other c' hid hl' => ?_, Or.inl ?_⟩
    · have hne : other ≠ id := by omega
      simp only [publishState, AList.lookup_replace_ne hne] at hl'
      obtain ⟨⟨t, ho⟩, hc⟩ := hh.opened other c' hid hl'
      exact ⟨⟨t, List.mem_cons_of_mem _ ho⟩, hc⟩
    · rcases hh.covered with h | ⟨hnone, -⟩
      · have hcount := AList.countP_replace (waitingUpTo n) hl
          (c.publish sequence sensitive now)
        have hw : waitingUpTo n ⟨id, c.publish sequence sensitive now⟩ = false := by
          simp [waitingUpTo, waiting, Client.publish]
        simp only [hw, Bool.false_eq_true, if_false, Nat.add_zero] at hcount
        simp only [publishState]
        cases hs : c.sensitive with
        | some flag =>
          simp only [Option.isSome_some, if_true]
          omega
        | none =>
          have hwc : waitingUpTo n ⟨id, c⟩ = true := by
            simp [waitingUpTo, waiting, hold, hs, hcan]
          simp only [hwc, if_true] at hcount
          simp only [Option.isSome_none, Bool.false_eq_true, if_false]
          omega
      · exact absurd hcan (by simp [hnone id c hold hl])

theorem afterFailure {op : Op} (hh : Hidden n events s) (h : AfterFailure s op s') :
    Hidden n (e :: events) s' := by
  apply hh.of_sublist
  · rw [h.clients]; exact List.filter_sublist
  · rw [h.count, outstanding]; omega
  · intro hl; rw [h.latched, hl, Bool.true_or]

/-- Every call keeps the failure outstanding, short of re-arming and fresh states. -/
theorem perform (hh : Hidden n events s) (hc : Counted m s) (hnm : n ≤ m) (op : Op)
    (hm : m + opens op < wordSize) (hre : op = .setEnabled true → s.enabled = true)
    (hfresh : ¬ FreshState ((op, (s.perform op).2) :: events)) :
    Hidden n ((op, (s.perform op).2) :: events) (s.perform op).1 := by
  cases op with
  | connectionOpened now => exact hh.connectionOpened hc hnm hm now
  | helloReceived id clientId now => exact hh.helloReceived id clientId now
  | stateReceived id sequence sensitive now =>
    exact hh.stateReceived id sequence sensitive now hfresh
  | goodbyeReceived id =>
    rcases s.goodbyeReceived_cases id with hg | ⟨c, -, -, hg⟩
    · simp only [PrivacyState.perform, hg]
      exact hh.of_sublist (List.Sublist.refl _) le_rfl fun h => h
    · simp only [PrivacyState.perform, hg]
      exact hh.of_sublist (List.kerase_sublist _ _) le_rfl fun h => h
  | protocolError id => exact hh.afterFailure (afterFailure_perform hc hm (by rfl))
  | connectionClosed id => exact hh.afterFailure (afterFailure_perform hc hm (by rfl))
  | tick now => exact hh.afterFailure (afterFailure_perform hc hm (by rfl))
  | setEnabled b =>
    simp only [PrivacyState.perform, PrivacyState.setEnabled]
    split
    · exact hh.of_sublist (List.Sublist.refl _) le_rfl fun h => h
    · rename_i hb
      cases b with
      | true => exact absurd (hre rfl) hb
      | false => exact hh.of_sublist (List.Sublist.refl _) le_rfl fun h => h

end Hidden

theorem rearmed_of_mem {ops : List Op} (h : Op.setEnabled false ∈ ops) :
    Rearmed (ops ++ [.setEnabled true]) :=
  List.Sublist.append (List.singleton_sublist.mpr h) (List.Sublist.refl [Op.setEnabled true])

theorem FreshState.mono {events events' : List Event} (h : FreshState events)
    (hsub : events ⊆ events') : FreshState events' := by
  obtain ⟨id, ⟨now, ho⟩, e, he, hs⟩ := h
  exact ⟨id, ⟨now, hsub ho⟩, e, hsub he, hs⟩

theorem Hidden.execFrom {n m : ℕ} {s : PrivacyState} (hh : Hidden n [] s) (hc : Counted m s)
    (hnm : n ≤ m) (hen : s.enabled = true) (post : List Op)
    (hm : m + openings post < wordSize) (hre : ¬ Rearmed post)
    (hfresh : ¬ FreshState (execFrom s [] post).2) :
    Hidden n (execFrom s [] post).2 (execFrom s [] post).1 ∧
      ((execFrom s [] post).1.enabled = true ∨ Op.setEnabled false ∈ post) := by
  induction post using List.reverseRecOn with
  | nil => exact ⟨hh, Or.inl hen⟩
  | append_singleton post op ih =>
    have hop : openings (post ++ [op]) = openings post + opens op := by simp [openings]
    rw [execFrom_concat] at hfresh ⊢
    obtain ⟨hh', hen'⟩ := ih (by omega)
      (fun h => hre (h.trans (List.sublist_append_left post [op])))
      (fun h => hfresh (h.mono (List.subset_cons_self _ _)))
    have hc' := hc.execFrom [] post (by omega)
    have hrearm : op = .setEnabled true → (PrivacyState.execFrom s [] post).1.enabled = true := by
      rintro rfl
      exact hen'.resolve_right fun h => hre (rearmed_of_mem h)
    refine ⟨hh'.perform hc' (by omega) op (by omega) hrearm hfresh, ?_⟩
    rw [perform_enabled]
    cases op with
    | setEnabled b => cases b <;> simp
    | _ => simpa using hen'

/-- Right after a covered failure the failure is outstanding. -/
theorem Covered.hidden {s : PrivacyState} {op : Op} {n id : ℕ} (hcov : s.Covered op)
    (hc : Counted n s) (hn : n < wordSize) (hop : removesFailed op = true)
    (hbefore : s.clients.lookup id ≠ none) (hafter : (s.perform op).1.clients.lookup id = none) :
    Hidden n [] (s.perform op).1 := by
  have ha := afterFailure_perform hc hn hop
  have hlook : ∀ (other : ℕ) (c : Client), (s.perform op).1.clients.lookup other = some c →
      s.clients.lookup other = some c ∧ s.failing op ⟨other, c⟩ = false := by
    intro other c hl
    rw [ha.clients, AList.lookup_filter_eq_some] at hl
    simpa using hl
  constructor
  case opened =>
    intro other c hid hl
    have := hc.keys other c (hlook other c hl).1
    omega
  case covered =>
    rcases hcov with h | h
    · left
      refine lt_of_le_of_lt ?_ (ha.count ▸ h)
      rw [ha.clients, AList.entries_filter, List.countP_filter, waitingLeft]
      exact List.countP_mono_left fun e _ he => by
        simp only [waitingUpTo, Bool.and_eq_true] at he ⊢
        exact ⟨he.2, he.1.2⟩
    · right
      refine ⟨fun other c _ hl => h _ (AList.mem_entries_iff.mpr (hlook other c hl).1)
        (hlook other c hl).2, ?_⟩
      -- The failed connection itself was counted or latched.
      obtain ⟨c, hl⟩ := Option.ne_none_iff_exists'.mp hbefore
      have hmem := AList.mem_entries_iff.mpr hl
      have hfail : s.failing op ⟨id, c⟩ = true := by
        rw [ha.clients, AList.lookup_filter_eq_none] at hafter
        simpa using hafter c hl
      cases hs : c.sensitive.isSome with
      | true =>
        right
        rw [ha.count, outstanding]
        have := List.countP_pos_iff (p := fun e => s.failing op e && e.2.sensitive.isSome).mpr
          ⟨_, hmem, by simp [hfail, hs]⟩
        exact Nat.lt_of_lt_of_le this (Nat.le_add_left _ _)
      | false =>
        left
        rw [ha.latched, Bool.or_eq_true]
        exact Or.inr (List.any_eq_true.mpr ⟨_, hmem, by simp [hfail, hs]⟩)

/-! ### An uncovered failure can be undone by existing connections -/

/-- Handshakes, states and goodbyes: calls that neither open nor fail nor re-arm. -/
def isFrame : Op → Bool
  | .helloReceived _ _ _ => true
  | .stateReceived _ _ _ _ => true
  | .goodbyeReceived _ => true
  | _ => false

def Settled (c : Client) : Prop := c.helloReceived = true ∧ c.sensitive = some false

def waitingEntry (e : Entry) : Bool := waiting e.2

/-- Waiting records suffice to bring the failure counter back to zero. -/
def Payable (s : PrivacyState) : Prop :=
  s.disconnectedClients ≤ s.clients.entries.countP waitingEntry

/-- Some frames settle or remove the listed connections and disturb no other. -/
structure SettledBy (s : PrivacyState) (ids : List ℕ) (ops : List Op) (s' : PrivacyState) :
    Prop where
  run : ∀ h, (execFrom s h ops).1 = s'
  frames : ∀ op ∈ ops, isFrame op = true
  enabled : s'.enabled = s.enabled
  wellFormed : s'.RecordsWellFormed
  others : ∀ id, id ∉ ids → s'.clients.lookup id = s.clients.lookup id
  settled : ∀ id ∈ ids, ∀ c, s'.clients.lookup id = some c → Settled c
  payable : Payable s → Payable s'
  unlatched : s.untrustedFailureLatched = false → s'.untrustedFailureLatched = false
  published : ∀ id ∈ ids, ∀ c, s.clients.lookup id = some c → canPublish c = true →
    s'.untrustedFailureLatched = false ∧ s'.clients.lookup id ≠ none

theorem exists_unused_identity (s : PrivacyState) (id : ℕ) :
    ∃ clientId, s.duplicateIdentity id clientId = false := by
  obtain ⟨clientId, hn⟩ := Infinite.exists_notMem_finset
    (s.clients.entries.map fun e => e.2.clientId).toFinset
  refine ⟨clientId, ?_⟩
  rw [duplicateIdentity, List.any_eq_false]
  intro e he hd
  simp only [Bool.and_eq_true, beq_iff_eq] at hd
  exact hn (List.mem_toFinset.mpr (List.mem_map.mpr ⟨e, he, hd.2⟩))

section Settle

variable {s : PrivacyState} {id : ℕ} {c : Client}

theorem settledBy_none (hw : s.RecordsWellFormed) (hl : s.clients.lookup id = none) :
    SettledBy s [id] [] s where
  run _ := rfl
  frames := by simp
  enabled := rfl
  wellFormed := hw
  others _ _ := rfl
  settled := by simp [hl]
  payable h := h
  unlatched h := h
  published := by simp [hl]

theorem settledBy_state (hw : s.RecordsWellFormed) (hl : s.clients.lookup id = some c)
    (hh : c.helloReceived = true) (hcan : canPublish c = true) :
    SettledBy s [id] [.stateReceived id (-1) false 0] (s.publishState id c (-1) false 0) := by
  have hr : s.stateReceived id (-1) false 0 = (s.publishState id c (-1) false 0, true) :=
    stateReceived_of_accepts hl hh (accepts_of_canPublish hcan)
  have hmem : id ∈ s.clients := AList.lookup_isSome.mp (by simp [hl])
  have hperform : (s.perform (.stateReceived id (-1) false 0)).1 =
      s.publishState id c (-1) false 0 := by simp only [perform, hr]
  have hnew : (s.publishState id c (-1) false 0).clients.lookup id =
      some (c.publish (-1) false 0) := AList.lookup_replace hmem
  refine
    { run := fun h => hperform, frames := by simp [isFrame], enabled := rfl
      wellFormed := hperform ▸ hw.perform _
      others := fun other ho => AList.lookup_replace_ne (by simpa using ho)
      settled := ?_, payable := ?_, unlatched := fun _ => rfl, published := ?_ }
  · rintro other ho c' hl'
    obtain rfl := List.mem_singleton.mp ho
    rw [hnew] at hl'
    obtain rfl := Option.some.inj hl'
    exact ⟨hh, rfl⟩
  · intro hp
    have hcount := AList.countP_replace waitingEntry hl (c.publish (-1) false 0)
    have hw' : waitingEntry ⟨id, c.publish (-1) false 0⟩ = false := rfl
    simp only [hw', Bool.false_eq_true, if_false, Nat.add_zero] at hcount
    unfold Payable at hp ⊢
    simp only [publishState]
    cases hs : c.sensitive with
    | some flag =>
      have hwc : waitingEntry ⟨id, c⟩ = false := by simp [waitingEntry, waiting, hs]
      simp only [hwc, Bool.false_eq_true, if_false, Nat.add_zero] at hcount
      simp only [Option.isSome_some, if_true]
      omega
    | none =>
      have hwc : waitingEntry ⟨id, c⟩ = true := by simp [waitingEntry, waiting, hs, hcan]
      simp only [hwc, if_true] at hcount
      simp only [Option.isSome_none, Bool.false_eq_true, if_false]
      omega
  · rintro other ho c' - -
    obtain rfl := List.mem_singleton.mp ho
    exact ⟨rfl, by simp [hnew]⟩

theorem settledBy_hello (hw : s.RecordsWellFormed) (hl : s.clients.lookup id = some c)
    (hh : c.helloReceived = false) : ∃ ops s', SettledBy s [id] ops s' := by
  obtain ⟨clientId, hd⟩ := exists_unused_identity s id
  have hr : s.helloReceived id clientId 0 =
      ({ s with clients := s.clients.replace id (c.greet clientId 0) }, true) :=
    helloReceived_of_fresh hl hh hd
  have hmem : id ∈ s.clients := AList.lookup_isSome.mp (by simp [hl])
  obtain ⟨-, hseq, -⟩ := (hw id c hl).blank hh
  let t : PrivacyState := { s with clients := s.clients.replace id (c.greet clientId 0) }
  have hperform : (s.perform (.helloReceived id clientId 0)).1 = t := by
    simp only [perform, hr, t]
  have ht : t.RecordsWellFormed := hperform ▸ hw.perform _
  have hlt : t.clients.lookup id = some (c.greet clientId 0) := AList.lookup_replace hmem
  have hcan : canPublish (c.greet clientId 0) = true := by simp [canPublish, Client.greet, hseq]
  have h := settledBy_state ht hlt rfl hcan
  refine ⟨[.helloReceived id clientId 0, .stateReceived id (-1) false 0], _,
    { run := fun hs => ?_, frames := by simp [isFrame], enabled := h.enabled
      wellFormed := h.wellFormed, others := ?_, settled := h.settled
      payable := fun hp => h.payable ?_, unlatched := fun hu => h.unlatched hu
      published := ?_ }⟩
  · change (execFrom (s.perform (.helloReceived id clientId 0)).1 _ _).1 = _
    rw [hperform]
    exact h.run _
  · intro other ho
    rw [h.others other ho]
    exact AList.lookup_replace_ne (by simpa using ho)
  · have hcount := AList.countP_replace waitingEntry hl (c.greet clientId 0)
    have hsame : waitingEntry ⟨id, c.greet clientId 0⟩ = waitingEntry ⟨id, c⟩ := rfl
    rw [hsame] at hcount
    unfold Payable at hp ⊢
    simp only [t]
    omega
  · rintro other ho c' - -
    obtain rfl := List.mem_singleton.mp ho
    exact h.published other (by simp) _ hlt hcan

theorem settledBy_goodbye (hw : s.RecordsWellFormed) (hl : s.clients.lookup id = some c)
    (hh : c.helloReceived = true) (hcan : canPublish c = false) :
    SettledBy s [id] [.goodbyeReceived id] { s with clients := s.clients.erase id } := by
  have hperform : (s.perform (.goodbyeReceived id)).1 =
      { s with clients := s.clients.erase id } := by
    simp [perform, goodbyeReceived, hl, hh]
  refine
    { run := fun h => hperform, frames := by simp [isFrame], enabled := rfl
      wellFormed := hperform ▸ hw.perform _
      others := fun other ho => AList.lookup_erase_ne (by simpa using ho)
      settled := ?_, payable := ?_, unlatched := fun h => h, published := ?_ }
  · rintro other ho c' hl'
    obtain rfl := List.mem_singleton.mp ho
    simp at hl'
  · intro hp
    have hcount := AList.countP_erase waitingEntry hl
    have hwc : waitingEntry ⟨id, c⟩ = false := by simp [waitingEntry, waiting, hcan]
    simp only [hwc, Bool.false_eq_true, if_false, Nat.add_zero] at hcount
    unfold Payable at hp ⊢
    simp only
    omega
  · rintro other ho c' hl' hcan'
    obtain rfl := List.mem_singleton.mp ho
    rw [hl] at hl'
    obtain rfl := Option.some.inj hl'
    simp [hcan] at hcan'

theorem exists_settledBy_singleton (hw : s.RecordsWellFormed) (id : ℕ) :
    ∃ ops s', SettledBy s [id] ops s' := by
  cases hl : s.clients.lookup id with
  | none => exact ⟨_, _, settledBy_none hw hl⟩
  | some c =>
    cases hh : c.helloReceived with
    | false => exact settledBy_hello hw hl hh
    | true =>
      cases hcan : canPublish c with
      | true => exact ⟨_, _, settledBy_state hw hl hh hcan⟩
      | false => exact ⟨_, _, settledBy_goodbye hw hl hh hcan⟩

theorem exists_settledBy (hw : s.RecordsWellFormed) {ids : List ℕ} (hnd : ids.Nodup) :
    ∃ ops s', SettledBy s ids ops s' := by
  induction ids generalizing s with
  | nil => exact ⟨[], s, fun _ => rfl, by simp, rfl, hw, fun _ _ => rfl, by simp, fun h => h,
      fun h => h, by simp⟩
  | cons id ids ih =>
    obtain ⟨hnot, hnd⟩ := List.nodup_cons.mp hnd
    obtain ⟨ops, t, ht⟩ := exists_settledBy_singleton hw id
    obtain ⟨ops', u, hu⟩ := ih ht.wellFormed hnd
    refine ⟨ops ++ ops', u,
      { run := fun h => ?_, frames := ?_, enabled := hu.enabled.trans ht.enabled
        wellFormed := hu.wellFormed, others := ?_, settled := ?_
        payable := fun h => hu.payable (ht.payable h)
        unlatched := fun h => hu.unlatched (ht.unlatched h), published := ?_ }⟩
    · rw [execFrom_append, ht.run]
      exact hu.run _
    · intro op hop
      rcases List.mem_append.mp hop with hop | hop
      · exact ht.frames op hop
      · exact hu.frames op hop
    · intro other ho
      simp only [List.mem_cons, not_or] at ho
      rw [hu.others other ho.2, ht.others other (by simpa using ho.1)]
    · intro other ho c hl
      by_cases hmem : other ∈ ids
      · exact hu.settled other hmem c hl
      · obtain rfl : other = id := by simpa [hmem] using ho
        rw [hu.others other hmem] at hl
        exact ht.settled other (by simp) c hl
    · intro other ho c hl hcan
      by_cases hid : other = id
      · subst hid
        obtain ⟨hlat, hne⟩ := ht.published other (by simp) c hl hcan
        exact ⟨hu.unlatched hlat, by rwa [hu.others other hnot]⟩
      · have hmem : other ∈ ids := by simpa [hid] using ho
        rw [← ht.others other (by simpa using hid)] at hl
        exact hu.published other hmem c hl hcan

end Settle

/-- When the counter is payable and some connection can publish, frames of the existing
connections alone make the mode safe. -/
theorem exists_frames_safe {s : PrivacyState} (hw : s.RecordsWellFormed)
    (hen : s.enabled = true) (hp : Payable s) {id : ℕ} {c : Client}
    (hl : s.clients.lookup id = some c) (hcan : canPublish c = true) :
    ∃ ops, (∀ op ∈ ops, isFrame op = true) ∧ ∀ h, (execFrom s h ops).1.mode = .safe := by
  obtain ⟨ops, u, hu⟩ := exists_settledBy hw s.clients.keys_nodup
  have hkey : ∀ (other : ℕ) (d : Client), s.clients.lookup other = some d →
      other ∈ s.clients.keys := fun other d hd =>
    AList.mem_keys.mp (AList.lookup_isSome.mp (by simp [hd]))
  have hall : ∀ (other : ℕ) (d : Client), u.clients.lookup other = some d → Settled d := by
    intro other d hd
    by_cases hk : other ∈ s.clients.keys
    · exact hu.settled other hk d hd
    · rw [hu.others other hk] at hd
      exact absurd (hkey other d hd) hk
  obtain ⟨hlat, hne⟩ := hu.published id (hkey id c hl) c hl hcan
  have hzero : u.clients.entries.countP waitingEntry = 0 := by
    rw [List.countP_eq_zero]
    intro e he
    obtain ⟨-, hs⟩ := hall e.1 e.2 (AList.mem_entries_iff.mp he)
    simp [waitingEntry, waiting, hs]
  have hcount : u.disconnectedClients = 0 := by
    have := hu.payable hp
    unfold Payable at this
    omega
  refine ⟨ops, hu.frames, fun h => ?_⟩
  rw [hu.run h, mode_eq_safe_iff]
  exact ⟨hu.enabled.trans hen, hlat, hcount, ⟨id, hne⟩, hall⟩

/-! ### The recovery rule -/

theorem openings_of_isFrame {ops : List Op} (h : ∀ op ∈ ops, isFrame op = true) :
    openings ops = 0 := by
  induction ops with
  | nil => rfl
  | cons op ops ih =>
    obtain ⟨hop, hops⟩ := List.forall_mem_cons.mp h
    have hzero : opens op = 0 := by cases op <;> simp_all [isFrame, opens]
    have hrest := ih hops
    simp only [openings, List.map_cons, List.sum_cons] at hrest ⊢
    omega

theorem not_rearmed_of_isFrame {ops : List Op} (h : ∀ op ∈ ops, isFrame op = true) :
    ¬ Rearmed ops := by
  intro hre
  have := h (.setEnabled false) (hre.subset (by simp))
  simp [isFrame] at this

theorem mem_execFrom {s : PrivacyState} {ops : List Op} {e : Event}
    (he : e ∈ (execFrom s [] ops).2) : e.1 ∈ ops := by
  induction ops generalizing s with
  | nil => simp [execFrom] at he
  | cons op ops ih =>
    simp only [execFrom] at he
    rw [execFrom_eq] at he
    rcases List.mem_append.mp he with he | he
    · exact List.mem_cons_of_mem _ (ih he)
    · obtain rfl := List.mem_singleton.mp he
      exact List.mem_cons_self

theorem not_freshState_of_isFrame {s : PrivacyState} {ops : List Op}
    (h : ∀ op ∈ ops, isFrame op = true) : ¬ FreshState (execFrom s [] ops).2 := by
  rintro ⟨id, ⟨now, ho⟩, -⟩
  have := h _ (mem_execFrom ho)
  simp [isFrame] at this

/-- A failure stays hidden from every connection that existed when it happened, whatever
calls follow, exactly when it is covered in the state where it happens. -/
theorem staysHidden_iff_covered {timeout : ℤ} {pre : List Op} {op : Op} {id : ℕ}
    (hn : openings pre < wordSize) (hf : Failure timeout pre op id) :
    (∀ post, openings (pre ++ op :: post) < wordSize → StaysHidden timeout pre op post) ↔
      (exec timeout pre).1.Covered op := by
  have hc := counted_exec timeout pre hn
  have hop : opens op = 0 := by
    have := hf.removes
    cases op <;> simp_all [removesFailed, opens]
  have ha := afterFailure_perform hc hn hf.removes
  have hen : ((exec timeout pre).1.perform op).1.enabled = true := ha.enabled.trans hf.enabled
  have hstate : (exec timeout (pre ++ [op])).1 = ((exec timeout pre).1.perform op).1 := by
    rw [exec_append]; rfl
  have hrun : ∀ post, (exec timeout (pre ++ op :: post)).1 =
      (execFrom ((exec timeout pre).1.perform op).1 [] post).1 := by
    intro post
    rw [exec_append, execFrom, execFrom_eq]
  constructor
  · intro h
    by_contra hcov
    obtain ⟨hle, hleft⟩ := not_or.mp hcov
    push Not at hle hleft
    obtain ⟨e, he, hstay, hcan⟩ := hleft
    have hl : ((exec timeout pre).1.perform op).1.clients.lookup e.1 = some e.2 := by
      rw [ha.clients, AList.lookup_filter_eq_some]
      exact ⟨AList.mem_entries_iff.mp he, by simp [hstay]⟩
    have hp : Payable ((exec timeout pre).1.perform op).1 := by
      unfold Payable
      rw [ha.count, ha.clients, AList.entries_filter, List.countP_filter]
      refine hle.trans (List.countP_mono_left fun e _ he => ?_)
      simpa [waitingEntry, and_comm] using he
    obtain ⟨ops, hframes, hsafe⟩ :=
      exists_frames_safe ((recordsWellFormed_exec timeout pre).perform op) hen hp hl
        (by simpa using hcan)
    refine h ops ?_ (not_rearmed_of_isFrame hframes) ?_ (by rw [hrun]; exact hsafe [])
    · rw [openings_append]
      have hcons : openings (op :: ops) = opens op + openings ops := by simp [openings]
      rw [hcons, hop, openings_of_isFrame hframes]
      simpa using hn
    · exact not_freshState_of_isFrame hframes
  · intro hcov post hpost hre hfresh
    rw [hstate] at hfresh
    rw [openings_append] at hpost
    have hcons : openings (op :: post) = opens op + openings post := by simp [openings]
    have hhid := Covered.hidden hcov hc hn hf.removes hf.before hf.after
    have hc' := hc.perform op (by omega)
    obtain ⟨hfinal, -⟩ := hhid.execFrom hc' (by omega) hen post (by omega) hre hfresh
    rw [hrun]
    exact hfinal.mode_ne_safe

def rearmedPair : List Op :=
  [.connectionOpened 0, .connectionOpened 0, .helloReceived 1 [97] 0, .helloReceived 2 [98] 0,
    .stateReceived 1 1 false 0, .stateReceived 2 1 false 0, .setEnabled false, .setEnabled true]

/-- After re-arming, the periodic update of an old client clears another client's failure. -/
theorem exists_failure_not_staysHidden :
    ¬ ∀ (timeout : ℤ) (pre : List Op) (op : Op) (id : ℕ) (post : List Op),
      Failure timeout pre op id → StaysHidden timeout pre op post := by
  intro h
  have hf : Failure 2000 rearmedPair (.connectionClosed 2) 2 :=
    ⟨by decide, ⟨(.stateReceived 2 1 false 0, .accepted true), by decide, by decide⟩,
      rfl, by decide, by decide⟩
  refine h 2000 rearmedPair (.connectionClosed 2) 2 [.stateReceived 1 2 false 0] hf
    (fun hre => absurd hre.length_le (by decide)) ?_ (by decide)
  rintro ⟨id, ⟨now, ho⟩, -⟩
  simp [rearmedPair, exec, execFrom] at ho

/-- Without the re-arming, the same update leaves the failure of the other client hidden. -/
theorem staysHidden_of_published_pair :
    StaysHidden 2000 (rearmedPair.take 6) (.connectionClosed 2) [.stateReceived 1 2 false 0] :=
  have hf : Failure 2000 (rearmedPair.take 6) (.connectionClosed 2) 2 :=
    ⟨by decide, ⟨(.stateReceived 2 1 false 0, .accepted true), by decide, by decide⟩,
      rfl, by decide, by decide⟩
  (staysHidden_iff_covered (by decide) hf).mpr (by decide) _ (by decide)

end PrivacyGuard
