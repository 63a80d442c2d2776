import PrivacyGuard.Extension.Sockets

/-! # What a client says on its sockets

On every socket a client greets first, then sends states with increasing sequences,
and says goodbye last. The last state on an open socket carries the latest status.
-/

namespace PrivacyGuard

/-- The progress of a conversation, with the last sequence after the greeting. -/
inductive Stage
  | fresh
  | greeted (last : Option ℕ)
  | finished
  deriving DecidableEq, Repr

def Stage.next : Stage → Message → Option Stage
  | .fresh, .hello => some (.greeted none)
  | .greeted last, .state sequence _ =>
    if ∀ n ∈ last, n < sequence then some (.greeted (some sequence)) else none
  | .greeted _, .goodbye => some .finished
  | _, _ => none

def lastStatus (ms : List Message) : Option PrivacyStatus :=
  ms.reverse.findSome? fun
    | .state _ status => some status
    | _ => none

@[simp] theorem lastStatus_append_state (ms : List Message) (n : ℕ) (status : PrivacyStatus) :
    lastStatus (ms ++ [.state n status]) = some status := by
  simp [lastStatus]

namespace PipeClient

structure Talk (c : PipeClient) (s : Socket) (ms : List Message) : Prop where
  written : s.written = ms.map (Message.text c.clientId)
  fits : ∀ m ∈ ms, m.Fits
  silent : s.readyState = .opening → ms = []
  /-- Below the limit of the numbers, the messages come in order. -/
  ordered : c.sequence < incrementLimit →
    ∃ stage, Transition.run Stage.next .fresh ms = some stage ∧
      (s.readyState = .opened → stage = .greeted (some c.sequence))
  latest : s.readyState = .opened → lastStatus ms = some c.latestStatus

structure Orderly (c : PipeClient) : Prop where
  sequence_le : c.sequence ≤ incrementLimit
  current : ∀ k : ℕ, c.socket = some k → c.disposed = false ∧
    ∃ s, c.sockets[k]? = some s ∧ (s.connectEmitted = false → s.readyState = .opening)
  unique : ∀ (k : ℕ) (s : Socket), c.sockets[k]? = some s → s.readyState = .opened →
    c.socket = some k
  talks : ∀ (k : ℕ) (s : Socket), c.sockets[k]? = some s → ∃ ms, Talk c s ms

variable {c c' : PipeClient} {k : ℕ} {s s' : Socket}

theorem Talk.of_not_opened {ms : List Message} (h : Talk c s ms) (hid : c'.clientId = c.clientId)
    (hsequence : c.sequence ≤ c'.sequence) (hs : s.readyState ≠ .opened) : Talk c' s ms where
  written := by rw [h.written, hid]
  fits := h.fits
  silent := h.silent
  ordered hlt := by
    obtain ⟨stage, hrun, -⟩ := h.ordered (by omega)
    exact ⟨stage, hrun, fun ho => absurd ho hs⟩
  latest ho := absurd ho hs

/-- One socket changes; every other one that is open stays current and up to date. -/
theorem Orderly.update (h : Orderly c) (hk : c.sockets[k]? = some s) {f : Socket → Socket}
    (hid : c'.clientId = c.clientId) (hsockets : c'.sockets = c.sockets.modify k f)
    (hsequence : c.sequence ≤ c'.sequence ∧ c'.sequence ≤ incrementLimit)
    (hsocket : ∀ j, c'.socket = some j → c.socket = some j ∧ c'.disposed = false)
    (hconnect : c'.socket = some k → (f s).connectEmitted = false → (f s).readyState = .opening)
    (hopened : (f s).readyState = .opened → c'.socket = some k)
    (hother : ∀ j, j ≠ k → c.socket = some j → c'.socket = some j ∧
      c'.sequence = c.sequence ∧ c'.latestStatus = c.latestStatus)
    (htalk : ∃ ms, Talk c' (f s) ms) : Orderly c' := by
  have hget : ∀ (j : ℕ) (t : Socket), c'.sockets[j]? = some t →
      j = k ∧ t = f s ∨ j ≠ k ∧ c.sockets[j]? = some t := by
    intro j t ht
    rw [hsockets] at ht
    by_cases hj : j = k
    · subst hj
      rw [List.getElem?_modify_eq, hk] at ht
      exact Or.inl ⟨rfl, (Option.some.inj ht).symm⟩
    · rw [List.getElem?_modify_ne _ _ (Ne.symm hj)] at ht
      exact Or.inr ⟨hj, ht⟩
  constructor
  case sequence_le => exact hsequence.2
  case current =>
    intro j hj
    obtain ⟨hcur, hdisposed⟩ := hsocket j hj
    obtain ⟨-, t, ht, hconn⟩ := h.current j hcur
    refine ⟨hdisposed, ?_⟩
    rw [hsockets]
    by_cases hjk : j = k
    · subst hjk
      exact ⟨f s, by rw [List.getElem?_modify_eq, hk]; rfl, hconnect hj⟩
    · exact ⟨t, by rwa [List.getElem?_modify_ne _ _ (Ne.symm hjk)], hconn⟩
  case unique =>
    intro j t ht ho
    rcases hget j t ht with ⟨rfl, rfl⟩ | ⟨hjk, ht⟩
    · exact hopened ho
    · exact (hother j hjk (h.unique j t ht ho)).1
  case talks =>
    intro j t ht
    rcases hget j t ht with ⟨rfl, rfl⟩ | ⟨hjk, ht⟩
    · exact htalk
    · obtain ⟨ms, hms⟩ := h.talks j t ht
      refine ⟨ms, ?_⟩
      by_cases ho : t.readyState = .opened
      · obtain ⟨-, hseq, hlatest⟩ := hother j hjk (h.unique j t ht ho)
        refine ⟨by rw [hms.written, hid], hms.fits, hms.silent, fun hlt => ?_, fun _ => ?_⟩
        · rw [hseq] at hlt ⊢
          exact hms.ordered hlt
        · rw [hlatest]
          exact hms.latest ho
      · exact hms.of_not_opened hid hsequence.1 ho

theorem Orderly.congr (h : Orderly c) (hcore : SameCore c c') : Orderly c' where
  sequence_le := hcore.sequence ▸ h.sequence_le
  current k hk := by
    rw [hcore.disposed, hcore.sockets]
    exact h.current k (hcore.socket ▸ hk)
  unique k s hk ho := by
    rw [hcore.socket]
    exact h.unique k s (hcore.sockets ▸ hk) ho
  talks k s hk := by
    obtain ⟨ms, hms⟩ := h.talks k s (hcore.sockets ▸ hk)
    refine ⟨ms, by rw [hms.written, hcore.clientId], hms.fits, hms.silent, ?_, ?_⟩
    · rw [hcore.sequence]
      exact hms.ordered
    · rw [hcore.latestStatus]
      exact hms.latest

/-! ### The events -/

theorem Orderly.say (h : Orderly c) (hk : c.sockets[k]? = some s) (ho : s.readyState = .opened)
    (hid : c'.clientId = c.clientId)
    (hsockets : c'.sockets = c.sockets.modify k fun s =>
      { s with written := s.written ++ [stateFrame c'.sequence c'.latestStatus] })
    (hsequence : c'.sequence = incrementNumber c.sequence) (hsocket : c'.socket = c.socket)
    (hdisposed : c'.disposed = c.disposed) : Orderly c' := by
  have hcur := h.unique k s hk ho
  obtain ⟨hle, hle'⟩ := incrementNumber_le h.sequence_le
  refine h.update hk hid hsockets ?_ ?_ ?_ ?_ ?_ ?_
  · rw [hsequence]
    exact ⟨hle, hle'⟩
  · intro j hj
    rw [hsocket] at hj
    exact ⟨hj, hdisposed.trans (h.current j hj).1⟩
  · intro _ hconnect
    obtain ⟨-, t, ht, hconn⟩ := h.current k hcur
    obtain rfl := Option.some.inj (hk.symm.trans ht)
    exact hconn hconnect
  · intro _
    rw [hsocket, hcur]
  · intro j hj hj'
    rw [hcur] at hj'
    exact absurd (Option.some.inj hj').symm hj
  · obtain ⟨ms, hms⟩ := h.talks k s hk
    refine ⟨ms ++ [.state c'.sequence c'.latestStatus], ?_, ?_, ?_, ?_, ?_⟩
    · simp [hms.written, hid, Message.text]
    · refine List.forall_mem_append.mpr ⟨hms.fits, ?_⟩
      have hlimit : incrementLimit < wordSize := by decide
      simp only [List.forall_mem_singleton, Message.Fits]
      omega
    · intro hopening
      simp [ho] at hopening
    · intro hlt
      rw [hsequence] at hlt
      have hsucc := incrementNumber_of_lt hlt
      obtain ⟨stage, hrun, hstage⟩ := hms.ordered (by omega)
      obtain rfl := hstage ho
      refine ⟨.greeted (some c'.sequence), Transition.run_append.mpr ⟨_, hrun, ?_⟩, fun _ => rfl⟩
      have hnext : c.sequence < c'.sequence := by omega
      simp [Transition.run, Stage.next, hnext]
    · intro _
      exact lastStatus_append_state _ _ _

theorem Orderly.publish (h : Orderly c) (status : PrivacyStatus) : Orderly (c.publish status) := by
  have hquiet : (∀ j t, c.socket = some j → c.sockets[j]? = some t → t.readyState ≠ .opened) →
      Orderly { c with latestStatus := status } := by
    intro hnone
    have hclosed : ∀ (j : ℕ) (t : Socket), c.sockets[j]? = some t → t.readyState ≠ .opened :=
      fun j t ht ho => hnone j t (h.unique j t ht ho) ht ho
    refine ⟨h.sequence_le, h.current, h.unique, fun j t ht => ?_⟩
    obtain ⟨ms, hms⟩ := h.talks j t ht
    exact ⟨ms, hms.of_not_opened rfl le_rfl (hclosed j t ht)⟩
  unfold PipeClient.publish
  simp only
  split
  case h_2 hnone => exact hquiet fun j t hj => by simp [hnone] at hj
  case h_1 k hcur =>
    obtain ⟨-, s, hs, -⟩ := h.current k hcur
    simp only [readyState, hs]
    split
    case isTrue ho => exact h.say hs ho rfl rfl rfl rfl rfl
    case isFalse ho =>
      refine hquiet fun j t hj ht => ?_
      obtain rfl : k = j := Option.some.inj (hcur.symm.trans hj)
      obtain rfl := Option.some.inj (hs.symm.trans ht)
      exact ho

theorem Orderly.refresh (h : Orderly c) (k : ℕ) : Orderly (c.refresh k) := by
  unfold PipeClient.refresh PipeClient.readyState
  cases hs : c.sockets[k]? with
  | none => exact h
  | some s =>
    simp only
    split
    case isTrue ho => exact h.say hs ho rfl rfl rfl rfl rfl
    case isFalse => exact h

theorem Orderly.connect (h : Orderly c) : Orderly c.connect := by
  unfold PipeClient.connect
  split
  case isTrue => exact h
  case isFalse hguard =>
    simp only [Bool.or_eq_true, not_or, Bool.not_eq_true, Option.isSome_eq_false_iff,
      Option.isNone_iff_eq_none] at hguard
    obtain ⟨hdisposed, hnone⟩ := hguard
    have hget : ∀ (j : ℕ) (t : Socket), (c.sockets ++ [({} : Socket)])[j]? = some t →
        c.sockets[j]? = some t ∨ t = ({} : Socket) := by
      intro j t ht
      rw [List.getElem?_append] at ht
      split at ht
      case isTrue => exact Or.inl ht
      case isFalse => exact Or.inr (by simpa using List.mem_of_getElem? ht)
    constructor
    case sequence_le => exact h.sequence_le
    case current =>
      rintro j ⟨⟩
      exact ⟨hdisposed, ({} : Socket), by simp, fun _ => rfl⟩
    case unique =>
      intro j t ht ho
      rcases hget j t ht with ht | rfl
      · have := h.unique j t ht ho
        simp [hnone] at this
      · cases ho
    case talks =>
      intro j t ht
      rcases hget j t ht with ht | rfl
      · obtain ⟨ms, hms⟩ := h.talks j t ht
        exact ⟨ms, hms.written, hms.fits, hms.silent, hms.ordered, hms.latest⟩
      · exact ⟨[], rfl, by simp, fun _ => rfl, fun _ => ⟨.fresh, rfl, fun ho => by cases ho⟩,
          fun ho => by cases ho⟩

theorem Orderly.close (h : Orderly c) (hk : c.sockets[k]? = some s) {f : Socket → Socket}
    (hf : (f s).readyState = .closed ∧ (f s).written = s.written)
    (hid : c'.clientId = c.clientId) (hsockets : c'.sockets = c.sockets.modify k f)
    (hsequence : c'.sequence = c.sequence) (hlatest : c'.latestStatus = c.latestStatus)
    (hdisposed : c'.disposed = c.disposed)
    (hsocket : c'.socket = c.socket ∨ c'.socket = none ∧ c.socket = some k)
    (hconnect : c'.socket = some k → (f s).connectEmitted = true) : Orderly c' := by
  have hkeep : ∀ j, c'.socket = some j → c.socket = some j := by
    intro j hj
    rcases hsocket with heq | ⟨hnone, -⟩
    · rwa [heq] at hj
    · simp [hnone] at hj
  refine h.update hk hid hsockets ⟨hsequence.ge, hsequence ▸ h.sequence_le⟩ ?_ ?_ ?_ ?_ ?_
  · intro j hj
    exact ⟨hkeep j hj, hdisposed.trans (h.current j (hkeep j hj)).1⟩
  · intro hcur hemitted
    simp [hconnect hcur] at hemitted
  · intro ho
    simp [hf.1] at ho
  · intro j hj hcur
    refine ⟨?_, hsequence, hlatest⟩
    rcases hsocket with heq | ⟨-, hcur'⟩
    · rwa [heq]
    · exact absurd (Option.some.inj (hcur.symm.trans hcur')) hj
  · obtain ⟨ms, hms⟩ := h.talks k s hk
    refine ⟨ms, by rw [hf.2, hms.written, hid], hms.fits, ?_, ?_, ?_⟩
    · intro ho
      simp [hf.1] at ho
    · rw [hsequence]
      intro hlt
      obtain ⟨stage, hrun, -⟩ := hms.ordered hlt
      exact ⟨stage, hrun, fun ho => by simp [hf.1] at ho⟩
    · intro ho
      simp [hf.1] at ho

theorem Orderly.dispose (h : Orderly c) : Orderly c.dispose := by
  refine Orderly.congr ?_ (sameCore_dispose c)
  cases hcur : c.socket with
  | none =>
    simp only [farewells, hcur]
    constructor
    case sequence_le => exact h.sequence_le
    case current => rintro k ⟨⟩
    case unique =>
      intro k s hk ho
      have := h.unique k s hk ho
      simp [hcur] at this
    case talks =>
      intro k s hk
      obtain ⟨ms, hms⟩ := h.talks k s hk
      exact ⟨ms, hms.written, hms.fits, hms.silent, hms.ordered, hms.latest⟩
  | some k =>
    simp only [farewells, hcur]
    obtain ⟨-, s, hs, -⟩ := h.current k hcur
    refine h.update hs rfl rfl ⟨le_rfl, h.sequence_le⟩ (by simp) (by simp) (by simp [farewell])
      ?_ ?_
    · intro j hj hcur'
      exact absurd (Option.some.inj (hcur'.symm.trans hcur)) hj
    · obtain ⟨ms, hms⟩ := h.talks k s hs
      by_cases ho : s.readyState = .opened
      · refine ⟨ms ++ [.goodbye], ?_, ?_, by simp [farewell], fun hlt => ?_, by simp [farewell]⟩
        · simp [farewell, ho, hms.written, Message.text]
        · exact List.forall_mem_append.mpr ⟨hms.fits, by simp [Message.Fits]⟩
        · obtain ⟨stage, hrun, hstage⟩ := hms.ordered hlt
          obtain rfl := hstage ho
          exact ⟨.finished, Transition.run_append.mpr ⟨_, hrun, rfl⟩, by simp [farewell]⟩
      · refine ⟨ms, ?_, hms.fits, by simp [farewell], fun hlt => ?_, by simp [farewell]⟩
        · simp [farewell, ho, hms.written]
        · obtain ⟨stage, hrun, -⟩ := hms.ordered hlt
          exact ⟨stage, hrun, by simp [farewell]⟩

/-! ### The events of sockets -/

theorem Orderly.closed (h : Orderly c) (hk : c.sockets[k]? = some s) :
    Orderly ((c.updateSocket k emitClose).handleClosed k) := by
  by_cases hcur : c.socket = some k
  · have hlet : Orderly { c.updateSocket k emitClose with socket := none } :=
      h.close hk ⟨rfl, rfl⟩ rfl rfl rfl rfl rfl (Or.inr ⟨rfl, hcur⟩) (by simp)
    apply hlet.congr
    apply sameCore_handleClosed
    exact hcur
  · rw [handleClosed_of_superseded]
    · refine h.close hk ⟨rfl, rfl⟩ rfl rfl rfl rfl rfl (Or.inl rfl) fun hcur' => ?_
      exact absurd hcur' hcur
    · exact hcur

theorem Orderly.ended (h : Orderly c) (hk : c.sockets[k]? = some s) (ho : s.readyState = .opened) :
    Orderly (c.updateSocket k fun socket => { socket with readyState := .closed }) := by
  refine h.close hk ⟨rfl, rfl⟩ rfl rfl rfl rfl rfl (Or.inl rfl) fun hcur => ?_
  obtain ⟨-, t, ht, hconn⟩ := h.current k hcur
  obtain rfl := Option.some.inj (hk.symm.trans ht)
  by_contra hemitted
  simp [hconn (by simpa using hemitted)] at ho

theorem Orderly.greet (h : Orderly c) (hk : c.sockets[k]? = some s)
    (hcur : c.socket = some k) (hopening : s.readyState = .opening)
    (hid : c'.clientId = c.clientId)
    (hsockets : c'.sockets = c.sockets.modify k fun s =>
      { s with
        readyState := .opened
        connectEmitted := true
        written := s.written ++ [helloFrame c.clientId] ++
          [stateFrame c'.sequence c'.latestStatus] })
    (hsequence : c'.sequence = incrementNumber c.sequence) (hsocket : c'.socket = c.socket)
    (hdisposed : c'.disposed = c.disposed) : Orderly c' := by
  obtain ⟨hle, hle'⟩ := incrementNumber_le h.sequence_le
  refine h.update hk hid hsockets ?_ ?_ ?_ ?_ ?_ ?_
  · rw [hsequence]
    exact ⟨hle, hle'⟩
  · intro j hj
    rw [hsocket] at hj
    exact ⟨hj, hdisposed.trans (h.current j hj).1⟩
  · intro _ hemitted
    cases hemitted
  · intro _
    rw [hsocket, hcur]
  · intro j hj hj'
    exact absurd (Option.some.inj (hj'.symm.trans hcur)) hj
  · obtain ⟨ms, hms⟩ := h.talks k s hk
    obtain rfl := hms.silent hopening
    refine ⟨[.hello, .state c'.sequence c'.latestStatus], ?_, ?_, by simp, fun _ => ?_, ?_⟩
    · simp [hms.written, hid, Message.text]
    · have hlimit : incrementLimit < wordSize := by decide
      simp only [List.forall_mem_cons, Message.Fits]
      exact ⟨trivial, by omega, by simp⟩
    · exact ⟨.greeted (some c'.sequence), by simp [Transition.run, Stage.next], fun _ => rfl⟩
    · intro _
      exact lastStatus_append_state [.hello] _ _

theorem Orderly.connected (h : Orderly c) (hk : c.sockets[k]? = some s)
    (hemitted : s.connectEmitted = false) :
    Orderly ((c.updateSocket k emitConnect).handleConnected k) := by
  unfold handleConnected
  split
  case isTrue =>
    refine h.close hk ?_ rfl (List.modify_modify_eq _ _ _ _) rfl rfl rfl (Or.inl rfl) fun _ => rfl
    exact ⟨rfl, rfl⟩
  case isFalse hguard =>
    obtain ⟨hcur, -⟩ : c.socket = some k ∧ c.disposed = false := by
      simpa [updateSocket, not_or] using hguard
    obtain ⟨-, t, ht, hconn⟩ := h.current k hcur
    obtain rfl := Option.some.inj (hk.symm.trans ht)
    refine h.greet hk hcur (hconn hemitted) rfl ?_ rfl rfl rfl
    simp only [updateSocket, write, writeState, List.modify_modify_eq]
    refine modify_congr fun t ht => ?_
    obtain rfl := Option.some.inj (hk.symm.trans ht)
    simp [emitConnect, hconn hemitted]

theorem Orderly.step (h : Orderly c) {e : ClientEvent} (hs : c.step e = some c') : Orderly c' := by
  cases delivered_of_step hs with
  | connect => exact h.connect
  | publish status => exact h.publish status
  | dispose => exact h.dispose
  | connected hk hemitted => exact h.connected hk hemitted
  | ended hk ho => exact h.ended hk ho
  | closed hk => exact h.closed hk
  | refreshFires hmem => exact h.refresh _
  | @reconnectFires handle hmem =>
    have h' : Orderly { c with timeouts := c.timeouts.erase handle } :=
      h.congr ⟨rfl, rfl, rfl, rfl, rfl, rfl⟩
    exact h'.connect

/-! ### After disposal -/

/-- A disposed client stays disposed and its sockets keep their texts. -/
structure Quiet (c c' : PipeClient) : Prop where
  disposed : c'.disposed = true
  written : c'.sockets.map Socket.written = c.sockets.map Socket.written

theorem quiet_updateSocket (hd : c.disposed = true) {f : Socket → Socket}
    (hf : ∀ s, (f s).written = s.written) : Quiet c (c.updateSocket k f) := by
  refine ⟨hd, List.ext_getElem? fun j => ?_⟩
  rw [updateSocket, List.getElem?_map, List.getElem?_map, List.getElem?_modify]
  cases c.sockets[j]? with
  | none => rfl
  | some s =>
    by_cases hj : k = j
    · simp [hj, hf]
    · simp [hj]

theorem Quiet.trans {c'' : PipeClient} (h : Quiet c c') (h' : Quiet c' c'') : Quiet c c'' :=
  ⟨h'.disposed, h'.written.trans h.written⟩

theorem handleConnected_of_disposed (hd : c.disposed = true) :
    c.handleConnected k = c.destroy k :=
  if_pos (Or.inr hd)

theorem connect_of_disposed (hd : c.disposed = true) : c.connect = c :=
  if_pos (by simp [hd])

theorem Orderly.socket_of_disposed (h : Orderly c) (hd : c.disposed = true) : c.socket = none := by
  by_contra hsome
  obtain ⟨k, hk⟩ := Option.ne_none_iff_exists'.mp hsome
  simp [(h.current k hk).1] at hd

/-- Nothing is written once the client is disposed. -/
theorem Orderly.quiet (h : Orderly c) (hd : c.disposed = true) {e : ClientEvent}
    (hs : c.step e = some c') : Quiet c c' := by
  have hnone : c.socket = none := h.socket_of_disposed hd
  have hclosed : ∀ k : ℕ, c.readyState k ≠ .opened := by
    intro k ho
    obtain ⟨s, hs, ho⟩ := (readyState_eq (by decide)).mp ho
    simpa [hnone] using h.unique k s hs ho
  cases delivered_of_step hs with
  | connect =>
    rw [connect_of_disposed hd]
    exact ⟨hd, rfl⟩
  | publish status =>
    simp only [PipeClient.publish, hnone]
    exact ⟨hd, rfl⟩
  | dispose =>
    have hcore := sameCore_dispose c
    exact ⟨hcore.disposed, by rw [hcore.sockets, farewells, hnone]⟩
  | connected hk =>
    rw [handleConnected_of_disposed]
    · refine Quiet.trans (quiet_updateSocket hd ?_) (quiet_updateSocket ?_ ?_)
      · exact fun _ => rfl
      · exact hd
      · exact fun _ => rfl
    · exact hd
  | ended hk => exact quiet_updateSocket hd fun _ => rfl
  | closed hk =>
    rw [handleClosed_of_superseded (by simp [updateSocket, hnone])]
    exact quiet_updateSocket hd fun _ => rfl
  | refreshFires hmem =>
    rw [PipeClient.refresh, if_neg (hclosed _)]
    exact ⟨hd, rfl⟩
  | reconnectFires hmem =>
    rw [connect_of_disposed]
    · exact ⟨hd, rfl⟩
    · exact hd

/-! ### Runs of a client -/

def create (clientId : Bytes) (uuid : Uuid clientId) : PipeClient := { clientId, uuid }

theorem orderly_create {clientId : Bytes} (uuid : Uuid clientId) : Orderly (create clientId uuid) :=
  ⟨Nat.zero_le _, by simp [create], by simp [create], by simp [create]⟩

theorem orderly_of_run {clientId : Bytes} {uuid : Uuid clientId} {es : List ClientEvent}
    (h : Transition.run PipeClient.step (create clientId uuid) es = some c) : Orderly c :=
  Transition.run_invariant (fun _ _ _ hi hs => hi.step hs) (orderly_create uuid) h

theorem grows_of_run {es : List ClientEvent} (h : Transition.run PipeClient.step c es = some c') :
    Grows c c' :=
  Transition.run_invariant (I := Grows c) (fun _ _ _ hg hs => hg.trans (grows_step hs)) (.refl c) h

theorem Orderly.quiet_of_run (h : Orderly c) (hd : c.disposed = true) {es : List ClientEvent}
    (hrun : Transition.run PipeClient.step c es = some c') : Quiet c c' := by
  have hinv : Orderly c' ∧ Quiet c c' :=
    Transition.run_invariant (I := fun d => Orderly d ∧ Quiet c d)
      (fun _ _ _ hi hs => ⟨hi.1.step hs, hi.2.trans (hi.1.quiet hi.2.disposed hs)⟩)
      ⟨h, hd, rfl⟩ hrun
  exact hinv.2

end PipeClient

end PrivacyGuard
