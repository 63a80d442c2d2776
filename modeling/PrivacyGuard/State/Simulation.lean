import PrivacyGuard.State.History
import PrivacyGuard.State.Numbering

/-! # The state machine represents its history

Every field of the state is a function of the completed calls, so the mode can be
read off the history alone.
-/

namespace PrivacyGuard

open History PrivacyState

/-- A client record holds what the history says about its connection. -/
structure Describes (h : List Event) (id : ℕ) (c : Client) : Prop where
  seen : lastSeen id h = some c.lastUpdate
  greeted : c.helloReceived = greeted id h
  flag : c.sensitive = if published id h then lastFlag id h else none

/-- The state after a history with `n` openings. -/
structure Represents (timeout : ℤ) (n : ℕ) (h : List Event) (s : PrivacyState) : Prop where
  counted : Counted n s
  timeout_eq : s.livenessTimeout = timeout
  known : ∀ e ∈ h, ∀ id : ℕ, refreshes id e ≠ none → id ≤ n
  enabled_eq : s.enabled = enabled h
  keys : s.clients.keys = live timeout h
  client : ∀ id c, s.clients.lookup id = some c → Describes h id c
  latched : s.untrustedFailureLatched = unanswered timeout h
  count : s.disconnectedClients = ledger timeout h

section Describes

variable {h : List Event} {id : ℕ} {c : Client} {e : Event}

theorem acceptedHello_of_refreshes (he : refreshes id e = none) : acceptedHello id e = false := by
  obtain ⟨op, r⟩ := e
  cases op <;> try rfl
  cases r <;> try rfl
  rename_i b
  cases b <;> simp_all [refreshes, acceptedHello]

theorem acceptedState_of_refreshes (he : refreshes id e = none) : acceptedState id e = none := by
  obtain ⟨op, r⟩ := e
  cases op <;> try rfl
  cases r <;> try rfl
  rename_i b
  cases b <;> simp_all [refreshes, acceptedState]

theorem lastFlag_isSome_of_published (hp : published id h = true) :
    (lastFlag id h).isSome = true := by
  rw [published, List.any_eq_true] at hp
  obtain ⟨e, he, hs⟩ := hp
  rw [lastFlag, List.findSome?_isSome_iff]
  exact ⟨e, sinceRearm_subset h he, hs⟩

theorem Describes.isSome (hd : Describes h id c) : c.sensitive.isSome = published id h := by
  rw [hd.flag]
  cases hp : published id h with
  | false => rfl
  | true => simpa using lastFlag_isSome_of_published hp

/-- A call that does not concern the connection keeps its record valid. -/
theorem Describes.cons (hd : Describes h id c) (he : refreshes id e = none)
    (hr : rearms e h = false) : Describes (e :: h) id c where
  seen := by rw [lastSeen_cons, he, Option.none_or, hd.seen]
  greeted := by rw [greeted_cons, acceptedHello_of_refreshes he, Bool.false_or, hd.greeted]
  flag := by
    rw [published_cons, lastFlag_cons, hr, acceptedState_of_refreshes he, hd.flag]
    simp

theorem Describes.stale_eq {timeout : ℤ} {s : PrivacyState} {now : ℤ} (hd : Describes h id c)
    (ht : s.livenessTimeout = timeout) : stale timeout now h id = s.expired now c := by
  rw [stale, hd.seen, expired, ht]

end Describes

namespace Represents

variable {timeout : ℤ} {n : ℕ} {h : List Event} {s : PrivacyState}

theorem init : Represents timeout 0 [] (PrivacyState.init timeout) where
  counted := counted_init timeout
  timeout_eq := rfl
  known := by simp
  enabled_eq := rfl
  keys := rfl
  client id c hl := by simp [PrivacyState.init] at hl
  latched := rfl
  count := rfl

theorem mem_live_iff (hr : Represents timeout n h s) {id : ℕ} :
    id ∈ live timeout h ↔ ∃ c, s.clients.lookup id = some c := by
  rw [← hr.keys, ← AList.mem_keys, ← AList.lookup_isSome, Option.isSome_iff_exists]

theorem not_mem_live (hr : Represents timeout n h s) {id : ℕ}
    (hl : s.clients.lookup id = none) : id ∉ live timeout h := by
  simp [hr.mem_live_iff, hl]

theorem unknown (hr : Represents timeout n h s) {id : ℕ} (hid : n < id) :
    ∀ e ∈ h, refreshes id e = none := by
  intro e he
  by_contra hne
  have := hr.known e he id hne
  omega

theorem greeted_of_unknown {id : ℕ} (hu : ∀ e ∈ h, refreshes id e = none) :
    greeted id h = false := by
  rw [greeted, List.any_eq_false]
  intro e he
  simp [acceptedHello_of_refreshes (hu e he)]

theorem published_of_unknown {id : ℕ} (hu : ∀ e ∈ h, refreshes id e = none) :
    published id h = false := by
  rw [published, List.any_eq_false]
  intro e he
  simp [acceptedState_of_refreshes (hu e (sinceRearm_subset h he))]

theorem ignored (hr : Represents timeout n h s) {e : Event}
    (href : ∀ id, refreshes id e = none) (hrearm : rearms e h = false)
    (hen : enabled (e :: h) = enabled h) (hlive : live timeout (e :: h) = live timeout h)
    (hfail : failures timeout e h = []) (hstate : acceptsState e = false)
    (hfirst : firstState e h = false) : Represents timeout n (e :: h) s where
  counted := hr.counted
  timeout_eq := hr.timeout_eq
  known := by
    rintro e' he' id hne
    rcases List.mem_cons.mp he' with rfl | he'
    · exact absurd (href id) hne
    · exact hr.known e' he' id hne
  enabled_eq := by rw [hr.enabled_eq, hen]
  keys := by rw [hr.keys, hlive]
  client id c hl := (hr.client id c hl).cons (href id) hrearm
  latched := by rw [hr.latched, unanswered, hrearm, hstate, hfail]; simp
  count := by rw [hr.count, ledger, hrearm, hfail, hfirst]; simp

theorem known_cons (hr : Represents timeout n h s) {e : Event} {m : ℕ} (hnm : n ≤ m)
    (he : ∀ id : ℕ, refreshes id e ≠ none → id ≤ m) :
    ∀ e' ∈ e :: h, ∀ id : ℕ, refreshes id e' ≠ none → id ≤ m := by
  rintro e' he' id hne
  rcases List.mem_cons.mp he' with rfl | he'
  · exact he id hne
  · have := hr.known e' he' id hne
    omega

theorem connectionOpened (hr : Represents timeout n h s) (now : ℤ) (hn : n + 1 < wordSize) :
    Represents timeout (n + 1)
      ((.connectionOpened now, (s.perform (.connectionOpened now)).2) :: h)
      (s.perform (.connectionOpened now)).1 := by
  have hfresh := hr.counted.next_fresh hn
  have hnext := hr.counted.next_eq hn
  have hu := hr.unknown (show n < s.nextConnectionId by omega)
  have hcounted := hr.counted.perform (.connectionOpened now) hn
  have hperform : s.perform (.connectionOpened now) =
      ({ s with
          clients := s.clients.insert s.nextConnectionId { lastUpdate := now }
          nextConnectionId := increment s.nextConnectionId }, .opened s.nextConnectionId) := by
    rw [PrivacyState.perform, connectionOpened_of_fresh hfresh]
  rw [hperform] at hcounted ⊢
  refine
    { counted := hcounted, timeout_eq := hr.timeout_eq
      known := hr.known_cons (Nat.le_succ n) ?_
      enabled_eq := hr.enabled_eq, keys := ?_, client := ?_
      latched := ?_, count := ?_ }
  · intro id hne
    by_cases hid : s.nextConnectionId = id
    · omega
    · simp [refreshes, hid] at hne
  · have hnot : s.nextConnectionId ∉ s.clients.keys :=
      fun hm => AList.lookup_eq_none.mp hfresh (AList.mem_keys.mpr hm)
    change (s.clients.insert _ _).keys = _ :: live timeout h
    rw [AList.keys_insert, List.erase_of_not_mem hnot, hr.keys]
  · intro id c hl
    by_cases hid : id = s.nextConnectionId
    · subst hid
      rw [AList.lookup_insert] at hl
      obtain rfl := Option.some.inj hl
      constructor
      · rw [lastSeen_cons]; simp [refreshes]
      · rw [greeted_cons, greeted_of_unknown hu]; rfl
      · rw [published_cons, published_of_unknown hu]; rfl
    · rw [AList.lookup_insert_ne hid] at hl
      exact (hr.client id c hl).cons (by simp [refreshes, Ne.symm hid]) (rearms_eq_false (by simp))
  · simp [hr.latched, unanswered, rearms_eq_false, acceptsState, failures]
  · simp [hr.count, ledger, rearms_eq_false, failures, firstState]

theorem replaced (hr : Represents timeout n h s) {e : Event} {id : ℕ} {c c' : Client}
    {s' : PrivacyState} (hl : s.clients.lookup id = some c)
    (hclients : s'.clients = s.clients.replace id c')
    (htimeout : s'.livenessTimeout = s.livenessTimeout) (henabled : s'.enabled = s.enabled)
    (hcounted : Counted n s') (hrearm : rearms e h = false)
    (hother : ∀ other, other ≠ id → refreshes other e = none)
    (hen : enabled (e :: h) = enabled h) (hlive : live timeout (e :: h) = live timeout h)
    (hd : Describes (e :: h) id c')
    (hlatched : s'.untrustedFailureLatched = unanswered timeout (e :: h))
    (hcount : s'.disconnectedClients = ledger timeout (e :: h)) :
    Represents timeout n (e :: h) s' where
  counted := hcounted
  timeout_eq := by rw [htimeout, hr.timeout_eq]
  known := hr.known_cons le_rfl fun other hne => by
    by_cases ho : other = id
    · exact ho ▸ hr.counted.keys id c hl
    · exact absurd (hother other ho) hne
  enabled_eq := by rw [henabled, hr.enabled_eq, hen]
  keys := by rw [hclients, AList.keys_replace, hr.keys, hlive]
  client other c'' hl' := by
    rw [hclients] at hl'
    by_cases ho : other = id
    · subst ho
      rw [AList.lookup_replace (AList.lookup_isSome.mp (by simp [hl]))] at hl'
      obtain rfl := Option.some.inj hl'
      exact hd
    · rw [AList.lookup_replace_ne ho] at hl'
      exact (hr.client other c'' hl').cons (hother other ho) hrearm
  latched := hlatched
  count := hcount

theorem goodbyeReceived (hr : Represents timeout n h s) (id : ℕ) (hn : n < wordSize) :
    Represents timeout n ((.goodbyeReceived id, (s.perform (.goodbyeReceived id)).2) :: h)
      (s.perform (.goodbyeReceived id)).1 := by
  have hcounted := hr.counted.perform (.goodbyeReceived id) hn
  rcases s.goodbyeReceived_cases id with hg | ⟨c, -, -, hg⟩
  · simp only [PrivacyState.perform, hg]
    apply hr.ignored <;> simp [refreshes, rearms, History.enabled, live, failures, acceptsState,
      firstState]
  · simp only [PrivacyState.perform, hg] at hcounted ⊢
    refine
      { counted := hcounted, timeout_eq := hr.timeout_eq
        known := hr.known_cons le_rfl (by simp [refreshes])
        enabled_eq := hr.enabled_eq, keys := ?_, client := ?_
        latched := ?_, count := ?_ }
    · change (s.clients.erase id).keys = (live timeout h).filter (· ≠ id)
      rw [AList.keys_erase_eq_filter, hr.keys]
    · intro other c' hl'
      exact (hr.client other c' (AList.lookup_erase_eq_some.mp hl').2).cons (by simp [refreshes])
        (rearms_eq_false (by simp))
    · simp [hr.latched, unanswered, rearms_eq_false, acceptsState, failures]
    · simp [hr.count, ledger, rearms_eq_false, failures, firstState]

theorem removeFailed (hr : Represents timeout n h s) {e : Event} {id : ℕ} (hn : n < wordSize)
    (href : ∀ other, refreshes other e = none) (hrearm : rearms e h = false)
    (hen : enabled (e :: h) = enabled h)
    (hlive : live timeout (e :: h) = (live timeout h).filter (· ≠ id))
    (hfail : failures timeout e h = if id ∈ live timeout h then [id] else [])
    (hstate : acceptsState e = false) (hfirst : firstState e h = false) :
    Represents timeout n (e :: h) (s.removeFailed id) := by
  cases hl : s.clients.lookup id with
  | none =>
    have hnot := hr.not_mem_live hl
    rw [removeFailed_of_none hl]
    refine hr.ignored href hrearm hen ?_ (by rw [hfail, if_neg hnot]) hstate hfirst
    rw [hlive, List.filter_eq_self]
    intro other ho
    simpa using fun he : other = id => hnot (he ▸ ho)
  | some c =>
    have hmem := hr.mem_live_iff.mpr ⟨c, hl⟩
    have hsome := (hr.client id c hl).isSome
    have hd := hr.counted.removeFailed_disconnectedClients hn hl
    refine
      { counted := hr.counted.removeFailed hn id
        timeout_eq := by simp [removeFailed_of_some hl, hr.timeout_eq]
        known := hr.known_cons le_rfl fun other hne => absurd (href other) hne
        enabled_eq := by simp [removeFailed_of_some hl, hr.enabled_eq, hen]
        keys := ?_, client := ?_, latched := ?_, count := ?_ }
    · rw [removeFailed_of_some hl, hlive, ← hr.keys]
      exact AList.keys_erase_eq_filter id s.clients
    · intro other c' hl'
      rw [removeFailed_of_some hl] at hl'
      exact (hr.client other c' (AList.lookup_erase_eq_some.mp hl').2).cons (href other) hrearm
    · rw [removeFailed_of_some hl, unanswered, hrearm, hstate, hfail, if_pos hmem]
      simp [hsome, hr.latched]
    · rw [hd, ledger, hrearm, hfail, hfirst, if_pos hmem, hsome, hr.count]
      simp

theorem helloReceived (hr : Represents timeout n h s) (id : ℕ) (clientId : Bytes) (now : ℤ)
    (hn : n < wordSize) :
    Represents timeout n
      ((.helloReceived id clientId now, (s.perform (.helloReceived id clientId now)).2) :: h)
      (s.perform (.helloReceived id clientId now)).1 := by
  have hcounted := hr.counted.perform (.helloReceived id clientId now) hn
  rcases s.helloReceived_cases id clientId now with hg | ⟨c, hl, -, -, hg⟩
  · simp only [PrivacyState.perform, hg]
    apply hr.ignored <;> simp [refreshes, rearms, History.enabled, live, failures, acceptsState,
      firstState]
  · simp only [PrivacyState.perform, hg] at hcounted ⊢
    have hd := hr.client id c hl
    have hrearm : rearms (.helloReceived id clientId now, .accepted true) h = false :=
      rearms_eq_false (by simp)
    refine hr.replaced hl rfl rfl rfl hcounted hrearm ?_ rfl rfl ⟨?_, ?_, ?_⟩ ?_ ?_
    · intro other ho
      simp [refreshes, Ne.symm ho]
    · rw [lastSeen_cons]; simp [refreshes, Client.greet]
    · rw [greeted_cons]; simp [acceptedHello, Client.greet]
    · rw [published_cons, lastFlag_cons, hrearm]; simpa [acceptedState, Client.greet] using hd.flag
    · simp [hr.latched, unanswered, hrearm, acceptsState, failures]
    · simp [hr.count, ledger, hrearm, failures, firstState]

theorem stateReceived (hr : Represents timeout n h s) (id : ℕ) (sequence : UInt64)
    (sensitive : Bool) (now : ℤ) (hn : n < wordSize) :
    Represents timeout n
      ((.stateReceived id sequence sensitive now,
        (s.perform (.stateReceived id sequence sensitive now)).2) :: h)
      (s.perform (.stateReceived id sequence sensitive now)).1 := by
  have hcounted := hr.counted.perform (.stateReceived id sequence sensitive now) hn
  rcases s.stateReceived_cases id sequence sensitive now with hg | ⟨c, hl, -, -, hg⟩
  · simp only [PrivacyState.perform, hg]
    apply hr.ignored <;> simp [refreshes, rearms, History.enabled, live, failures, acceptsState,
      firstState]
  · simp only [PrivacyState.perform, hg] at hcounted ⊢
    have hd := hr.client id c hl
    have hrearm : rearms (.stateReceived id sequence sensitive now, .accepted true) h = false :=
      rearms_eq_false (by simp)
    refine hr.replaced hl rfl rfl rfl hcounted hrearm ?_ rfl rfl ⟨?_, ?_, ?_⟩ ?_ ?_
    · intro other ho
      simp [refreshes, Ne.symm ho]
    · rw [lastSeen_cons]; simp [refreshes, Client.publish]
    · rw [greeted_cons]; simpa [acceptedHello, Client.publish] using hd.greeted
    · rw [published_cons, lastFlag_cons, hrearm]; simp [acceptedState, Client.publish]
    · simp [publishState, unanswered, hrearm, acceptsState]
    · -- The first STATE since the last re-arming is the one of an unpublished record.
      have hsome := hd.isSome
      simp only [publishState, ledger, hrearm, failures, firstState, hr.count, ← hsome]
      cases c.sensitive <;> simp

theorem map_expiredEntries (hr : Represents timeout n h s) (now : ℤ) :
    (s.expiredEntries now).map Sigma.fst = (live timeout h).filter (stale timeout now h) := by
  rw [← hr.keys, expiredEntries]
  change _ = (s.clients.entries.map Sigma.fst).filter _
  rw [List.filter_map]
  congr 1
  apply List.filter_congr
  intro e he
  exact ((hr.client e.1 e.2 (AList.mem_entries_iff.mp he)).stale_eq hr.timeout_eq).symm

theorem map_keptEntries (hr : Represents timeout n h s) (now : ℤ) :
    (s.clients.filter fun e => !s.expired now e.2).keys =
      (live timeout h).filter fun id => !stale timeout now h id := by
  rw [← hr.keys]
  change (s.clients.entries.filter _).map Sigma.fst = (s.clients.entries.map Sigma.fst).filter _
  rw [List.filter_map]
  congr 1
  apply List.filter_congr
  intro e he
  rw [Function.comp_apply,
    (hr.client e.1 e.2 (AList.mem_entries_iff.mp he)).stale_eq hr.timeout_eq]

theorem tick (hr : Represents timeout n h s) (now : ℤ) (hn : n < wordSize) :
    Represents timeout n ((.tick now, (s.perform (.tick now)).2) :: h)
      (s.perform (.tick now)).1 := by
  have hrearm : rearms ((.tick now, .done) : Event) h = false := rearms_eq_false (by simp)
  have hfail : failures timeout ((.tick now, .done) : Event) h =
      (s.expiredEntries now).map Sigma.fst := (hr.map_expiredEntries now).symm
  have hsome : ∀ e ∈ s.expiredEntries now, published e.1 h = e.2.sensitive.isSome := by
    intro e he
    have hm := AList.mem_entries_iff.mp (List.mem_of_mem_filter he)
    exact (hr.client e.1 e.2 hm).isSome.symm
  change Represents timeout n ((.tick now, .done) :: h) (s.tick now)
  refine
    { counted := hr.counted.tick hn now
      timeout_eq := by simp [tick_eq, hr.timeout_eq]
      known := hr.known_cons le_rfl (by simp [refreshes])
      enabled_eq := by simp [tick_eq, hr.enabled_eq, History.enabled]
      keys := by rw [tick_eq]; exact hr.map_keptEntries now
      client := ?_, latched := ?_, count := ?_ }
  · intro id c hl
    rw [tick_eq] at hl
    exact (hr.client id c (AList.lookup_filter_eq_some.mp hl).1).cons (by simp [refreshes]) hrearm
  · rw [tick_eq, unanswered, hrearm, hfail, List.any_map, hr.latched]
    simp only [acceptsState, Bool.false_eq_true, if_false]
    congr 1
    rw [Bool.eq_iff_iff, List.any_eq_true, List.any_eq_true]
    exact exists_congr fun e => and_congr_right fun he => by simp [hsome e he]
  · rw [hr.counted.tick_disconnectedClients hn, ledger, hrearm, hfail, List.countP_map, hr.count]
    simp only [firstState, Bool.false_eq_true, if_false, Nat.sub_zero]
    congr 1
    exact List.countP_congr fun e he => by simp [hsome e he]

theorem setEnabled (hr : Represents timeout n h s) (b : Bool) (hn : n < wordSize) :
    Represents timeout n ((.setEnabled b, (s.perform (.setEnabled b)).2) :: h)
      (s.perform (.setEnabled b)).1 := by
  have hcounted := hr.counted.perform (.setEnabled b) hn
  have hen := hr.enabled_eq
  change Represents timeout n ((.setEnabled b, .done) :: h) (s.setEnabled b)
  change Counted n (s.setEnabled b) at hcounted
  by_cases hb : s.enabled = b
  · have hrearm : rearms ((.setEnabled b, .done) : Event) h = false := by
      rw [rearms, ← hen, hb]; cases b <;> simp
    rw [PrivacyState.setEnabled, if_pos hb]
    apply hr.ignored
    · simp [refreshes]
    · exact hrearm
    · rw [← hen, hb]; rfl
    · rfl
    · rfl
    · rfl
    · rfl
  · cases b with
    | true =>
      have hrearm : rearms ((.setEnabled true, .done) : Event) h = true := by
        rw [rearms, ← hen]; simpa using hb
      simp only [PrivacyState.setEnabled, if_neg hb, if_true] at hcounted ⊢
      refine
        { counted := hcounted, timeout_eq := hr.timeout_eq
          known := hr.known_cons le_rfl (by simp [refreshes])
          enabled_eq := rfl, keys := ?_, client := ?_
          latched := ?_, count := ?_ }
      · exact (AList.keys_mapVal _ _).trans hr.keys
      · intro id c hl
        rw [AList.lookup_mapVal] at hl
        obtain ⟨c', hc', rfl⟩ := Option.map_eq_some_iff.mp hl
        have hd := hr.client id c' hc'
        constructor
        · rw [lastSeen_cons, hd.seen]; rfl
        · rw [greeted_cons, hd.greeted]; rfl
        · rw [published_cons, hrearm]; rfl
      · rw [unanswered, hrearm]; rfl
      · rw [ledger, hrearm]; rfl
    | false =>
      have hrearm : rearms ((.setEnabled false, .done) : Event) h = false :=
        rearms_eq_false (by simp)
      simp only [PrivacyState.setEnabled, if_neg hb, Bool.false_eq_true, if_false] at hcounted ⊢
      refine
        { counted := hcounted, timeout_eq := hr.timeout_eq
          known := hr.known_cons le_rfl (by simp [refreshes])
          enabled_eq := rfl, keys := hr.keys, client := ?_
          latched := ?_, count := ?_ }
      · intro id c hl
        exact (hr.client id c hl).cons (by simp [refreshes]) hrearm
      · simp [hr.latched, unanswered, hrearm, acceptsState, failures]
      · simp [hr.count, ledger, hrearm, failures, firstState]

/-- One call takes a represented state to the represented state of the longer history. -/
theorem perform (hr : Represents timeout n h s) (op : Op) (hn : n + opens op < wordSize) :
    Represents timeout (n + opens op) ((op, (s.perform op).2) :: h) (s.perform op).1 := by
  cases op with
  | connectionOpened now => exact hr.connectionOpened now hn
  | helloReceived id clientId now => exact hr.helloReceived id clientId now hn
  | stateReceived id sequence sensitive now =>
    exact hr.stateReceived id sequence sensitive now hn
  | goodbyeReceived id => exact hr.goodbyeReceived id hn
  | protocolError id =>
    exact hr.removeFailed hn (by simp [refreshes]) (rearms_eq_false (by simp)) rfl rfl rfl rfl rfl
  | connectionClosed id =>
    exact hr.removeFailed hn (by simp [refreshes]) (rearms_eq_false (by simp)) rfl rfl rfl rfl rfl
  | tick now => exact hr.tick now hn
  | setEnabled b => exact hr.setEnabled b hn

/-- Every run that does not wrap ends in the state its history describes. -/
theorem exec (timeout : ℤ) (ops : List Op) (hn : openings ops < wordSize) :
    Represents timeout (openings ops) (exec timeout ops).2 (exec timeout ops).1 := by
  have h := execFrom_invariant (R := Represents timeout) (fun n h s op hr => hr.perform op)
    init ops (by omega)
  simpa [PrivacyState.exec] using h

theorem mode_eq_safe_iff (hr : Represents timeout n h s) :
    s.mode = .safe ↔ AllSafe timeout h := by
  rw [PrivacyState.mode_eq_safe_iff]
  have hready : ∀ id c, s.clients.lookup id = some c →
      ((c.helloReceived = true ∧ c.sensitive = some false) ↔
        (greeted id h = true ∧ published id h = true ∧ lastFlag id h = some false)) := by
    intro id c hl
    have hd := hr.client id c hl
    rw [hd.greeted, hd.flag]
    cases published id h <;> simp
  constructor
  · rintro ⟨hen, hlat, hcount, ⟨id, hid⟩, hall⟩
    refine ⟨hr.enabled_eq ▸ hen, ?_, ?_, hr.latched ▸ hlat, hr.count ▸ hcount⟩
    · obtain ⟨c, hc⟩ := Option.ne_none_iff_exists'.mp hid
      exact List.ne_nil_of_mem (hr.mem_live_iff.mpr ⟨c, hc⟩)
    · intro id hid
      obtain ⟨c, hc⟩ := hr.mem_live_iff.mp hid
      exact (hready id c hc).mp (hall id c hc)
  · intro hs
    refine ⟨hr.enabled_eq ▸ hs.enabled, hr.latched ▸ hs.answered, hr.count ▸ hs.settled, ?_, ?_⟩
    · obtain ⟨id, hid⟩ := List.exists_mem_of_ne_nil _ hs.nonempty
      obtain ⟨c, hc⟩ := hr.mem_live_iff.mp hid
      exact ⟨id, by simp [hc]⟩
    · intro id c hl
      exact (hready id c hl).mpr (hs.ready id (hr.mem_live_iff.mpr ⟨c, hl⟩))

end Represents

/-- The output is shown as safe exactly when the whole history of calls says so. -/
theorem mode_safe_iff_allSafe (timeout : ℤ) (ops : List Op) (hn : openings ops < wordSize) :
    (exec timeout ops).1.mode = .safe ↔ AllSafe timeout (exec timeout ops).2 :=
  (Represents.exec timeout ops hn).mode_eq_safe_iff

theorem allSafe_of_replacement :
    AllSafe 2000 (exec 2000
      [.connectionOpened 0, .helloReceived 1 [97] 0, .stateReceived 1 1 true 0,
        .connectionClosed 1, .connectionOpened 100, .helloReceived 2 [97] 100,
        .stateReceived 2 2 false 100, .tick 2000]).2 :=
  (mode_safe_iff_allSafe 2000 _ (by decide)).mp (by decide)

end PrivacyGuard
