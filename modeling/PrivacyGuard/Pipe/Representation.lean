import PrivacyGuard.Pipe.Worker
import PrivacyGuard.Protocol.Grammar
import PrivacyGuard.State.Records
import PrivacyGuard.State.Simulation

/-! # The representation invariant

What holds of the fields of `PrivacyState` whenever HELLO, STATE and GOODBYE reach it through
`apply_frame` on frames of the parser. The identities of the connections come from the
parser and from the duplicate scan of HELLO; the numbering rests on the bound on openings.
-/

namespace PrivacyGuard

/-- A frame that the parser returned for a line. -/
structure ParsedFrame where
  line : Bytes
  frame : Frame
  parsed : parseFrame line = some frame

inductive Access
  | connectionOpened (now : ℤ)
  | applyFrame (connectionId : ℕ) (parsed : ParsedFrame) (now : ℤ)
  | protocolError (connectionId : ℕ)
  | connectionClosed (connectionId : ℕ)
  | tick (now : ℤ)
  | setEnabled (enabled : Bool)

def Access.op : Access → Op
  | .connectionOpened now => .connectionOpened now
  | .applyFrame connectionId parsed now => parsed.frame.call.op connectionId now
  | .protocolError connectionId => .protocolError connectionId
  | .connectionClosed connectionId => .connectionClosed connectionId
  | .tick now => .tick now
  | .setEnabled enabled => .setEnabled enabled

theorem Access.uuid {access : Access} {id : ℕ} {clientId : Bytes} {now : ℤ}
    (h : access.op = .helloReceived id clientId now) : Uuid clientId := by
  cases access with
  | applyFrame connectionId parsed now =>
    obtain ⟨line, frame, hparsed⟩ := parsed
    cases (parseFrame_eq_some_iff.mp hparsed).2 with
    | hello hu =>
      cases h
      exact hu
    | safe => cases h
    | sensitive => cases h
    | goodbye => cases h
  | connectionOpened => cases h
  | protocolError => cases h
  | connectionClosed => cases h
  | tick => cases h
  | setEnabled => cases h

namespace PrivacyState

/-- The identities of the connections that completed their handshake. -/
structure Identified (s : PrivacyState) : Prop where
  uuid : ∀ id c, s.clients.lookup id = some c → c.helloReceived = true → Uuid c.clientId
  distinct : ∀ id id' c c', s.clients.lookup id = some c → s.clients.lookup id' = some c' →
    c.helloReceived = true → c'.helloReceived = true → c.clientId = c'.clientId → id = id'

variable {s : PrivacyState} {op : Op} {id : ℕ} {c' : Client}

/-- A greeted record after a call was greeted before under the same identity, or the call is
the HELLO that gave it one no other connection had. -/
theorem perform_greeted (h : (s.perform op).1.clients.lookup id = some c')
    (hh : c'.helloReceived = true) :
    (∃ c, s.clients.lookup id = some c ∧ c.helloReceived = true ∧ c.clientId = c'.clientId) ∨
      ∃ now, op = .helloReceived id c'.clientId now ∧
        s.duplicateIdentity id c'.clientId = false := by
  cases perform_client h with
  | kept hl => exact Or.inl ⟨c', hl, hh, rfl⟩
  | opened now _ _ _ record =>
    subst record
    cases hh
  | greeted c clientId now op_eq _ _ unique record =>
    subst record
    exact Or.inr ⟨now, op_eq, unique⟩
  | published c sequence sensitive now _ hl greeted _ record =>
    subst record
    exact Or.inl ⟨c, hl, greeted, rfl⟩
  | rearmed c _ _ hl record =>
    subst record
    exact Or.inl ⟨c, hl, hh, rfl⟩

theorem ne_of_not_duplicate {other : ℕ} {clientId : Bytes} {c : Client}
    (hd : s.duplicateIdentity id clientId = false) (hl : s.clients.lookup other = some c)
    (hh : c.helloReceived = true) (hid : c.clientId = clientId) : other = id := by
  by_contra hne
  rw [duplicateIdentity_iff.mpr ⟨other, c, hl, hne, hh, hid⟩] at hd
  cases hd

theorem Identified.perform (hs : s.Identified) {access : Access} :
    (s.perform access.op).1.Identified := by
  constructor
  case uuid =>
    intro id c' h hh
    rcases perform_greeted h hh with ⟨c, hl, hc, hid⟩ | ⟨now, hop, -⟩
    · exact hid ▸ hs.uuid id c hl hc
    · exact access.uuid hop
  case distinct =>
    intro id id' c c' h h' hh hh' heq
    rcases perform_greeted h hh with ⟨d, hl, hd, hid⟩ | ⟨now, hop, hnew⟩
    · rcases perform_greeted h' hh' with ⟨d', hl', hd', hid'⟩ | ⟨now', -, hnew'⟩
      · exact hs.distinct id id' d d' hl hl' hd hd' (hid.trans (heq.trans hid'.symm))
      · exact ne_of_not_duplicate hnew' hl hd (hid.trans heq)
    · rcases perform_greeted h' hh' with ⟨d', hl', hd', hid'⟩ | ⟨now', hop', -⟩
      · exact (ne_of_not_duplicate hnew hl' hd' (hid'.trans heq.symm)).symm
      · rw [hop] at hop'
        injection hop'

theorem Identified.execFrom (hs : s.Identified) (h : List Event) (accesses : List Access) :
    (execFrom s h (accesses.map Access.op)).1.Identified := by
  induction accesses generalizing s h with
  | nil => exact hs
  | cons access accesses ih => exact ih hs.perform _

theorem identified_exec (timeout : ℤ) (accesses : List Access) :
    (exec timeout (accesses.map Access.op)).1.Identified :=
  Identified.execFrom ⟨by simp [init], by simp [init]⟩ [] accesses

/-- The representation invariant after a history with `n` openings. That the HELLO of a
connection was accepted is read off the calls. -/
structure Sound (n : ℕ) (h : List Event) (s : PrivacyState) : Prop where
  /-- The identifiers are handed out in order; the 64-bit counter wraps at the last one. -/
  next : s.nextConnectionId = (n + 1) % wordSize
  bounded : ∀ id c, s.clients.lookup id = some c → id ≤ n
  below : n + 1 < wordSize → ∀ id c, s.clients.lookup id = some c → id < s.nextConnectionId
  distinct : ∀ id id' c c', s.clients.lookup id = some c → s.clients.lookup id' = some c' →
    History.greeted id h = true → History.greeted id' h = true → id ≠ id' →
      c.clientId ≠ c'.clientId
  uuid : ∀ id c, s.clients.lookup id = some c → History.greeted id h = true → Uuid c.clientId
  blank : ∀ id c, s.clients.lookup id = some c → History.greeted id h = false →
    c.sensitive = none ∧ c.lastSequence = none ∧ c.clientId = []
  sequenced : ∀ id c, s.clients.lookup id = some c → c.sensitive ≠ none → c.lastSequence ≠ none

/-- Every state reached with fewer openings than values of a word is sound. -/
theorem sound_of_run (timeout : ℤ) (accesses : List Access)
    (hn : openings (accesses.map Access.op) < wordSize) :
    Sound (openings (accesses.map Access.op)) (exec timeout (accesses.map Access.op)).2
      (exec timeout (accesses.map Access.op)).1 := by
  have hcounted := counted_exec timeout (accesses.map Access.op) hn
  have hrepresents := Represents.exec timeout (accesses.map Access.op) hn
  have hidentified := identified_exec timeout accesses
  have hrecords := recordsWellFormed_exec timeout (accesses.map Access.op)
  constructor
  case next => exact hcounted.next
  case bounded => exact hcounted.keys
  case below =>
    intro hlt id c hl
    rw [hcounted.next_eq hlt]
    exact Nat.lt_succ_of_le (hcounted.keys id c hl)
  case distinct =>
    intro id id' c c' hl hl' hg hg' hne heq
    rw [← (hrepresents.client id c hl).greeted] at hg
    rw [← (hrepresents.client id' c' hl').greeted] at hg'
    exact hne (hidentified.distinct id id' c c' hl hl' hg hg' heq)
  case uuid =>
    intro id c hl hg
    rw [← (hrepresents.client id c hl).greeted] at hg
    exact hidentified.uuid id c hl hg
  case blank =>
    intro id c hl hg
    rw [← (hrepresents.client id c hl).greeted] at hg
    obtain ⟨hid, hsequence, hsensitive⟩ := (hrecords id c hl).blank hg
    exact ⟨hsensitive, hsequence, hid⟩
  case sequenced => exact fun id c hl => (hrecords id c hl).sequenced

def greeting : ParsedFrame where
  line := ascii "PG/1 HELLO 123e4567-e89b-12d3-a456-426614174000"
  frame := { kind := .hello, clientId := ascii "123e4567-e89b-12d3-a456-426614174000" }
  parsed := by decide +kernel

theorem sound_twoGreetings :
    Sound 2 (exec 2000 ([Access.connectionOpened 0, .connectionOpened 0,
        .applyFrame 1 greeting 5, .applyFrame 2 greeting 6].map Access.op)).2
      (exec 2000 ([Access.connectionOpened 0, .connectionOpened 0,
        .applyFrame 1 greeting 5, .applyFrame 2 greeting 6].map Access.op)).1 :=
  sound_of_run 2000 [.connectionOpened 0, .connectionOpened 0, .applyFrame 1 greeting 5,
    .applyFrame 2 greeting 6] (by decide)

/-! ### The last identifier -/

theorem lookup_connectionOpened (s : PrivacyState) (now : ℤ) :
    ∃ c, (s.connectionOpened now).1.clients.lookup s.nextConnectionId = some c := by
  rw [← Option.isSome_iff_exists, AList.lookup_isSome]
  simp only [connectionOpened]
  split
  case isTrue hmem => exact hmem
  case isFalse => exact AList.mem_insert _ |>.mpr (Or.inl rfl)

theorem openings_replicate (n : ℕ) (now : ℤ) :
    openings (List.replicate n (.connectionOpened now)) = n := by
  simp [openings, opens]

/-- After as many openings as there are identifiers, the next one is 0, below every key. -/
theorem exists_run_not_below : ∃ accesses : List Access,
    openings (accesses.map Access.op) < wordSize ∧
      ∃ id c, (exec 2000 (accesses.map Access.op)).1.clients.lookup id = some c ∧
        ¬ id < (exec 2000 (accesses.map Access.op)).1.nextConnectionId := by
  obtain ⟨n, hn⟩ : ∃ n, n + 2 = wordSize := ⟨wordSize - 2, by simp [wordSize]⟩
  have hops : (List.replicate (n + 1) (Access.connectionOpened 0)).map Access.op =
      List.replicate (n + 1) (.connectionOpened 0) := by
    rw [List.map_replicate, Access.op]
  refine ⟨List.replicate (n + 1) (.connectionOpened 0), ?_⟩
  rw [hops]
  have hopenings := openings_replicate (n + 1) 0
  have hlast : (exec 2000 (List.replicate (n + 1) (.connectionOpened 0))).1 =
      ((exec 2000 (List.replicate n (.connectionOpened 0))).1.connectionOpened 0).1 := by
    rw [List.replicate_succ', exec, execFrom_concat]
    rfl
  have hnext : (exec 2000 (List.replicate (n + 1) (.connectionOpened 0))).1.nextConnectionId =
      0 := by
    rw [(counted_exec 2000 _ (by omega)).next, hopenings, hn, Nat.mod_self]
  obtain ⟨c, hc⟩ := lookup_connectionOpened
    (exec 2000 (List.replicate n (.connectionOpened 0))).1 0
  rw [← hlast] at hc
  exact ⟨by omega, _, c, hc, by rw [hnext]; exact Nat.not_lt_zero _⟩

end PrivacyState

end PrivacyGuard
