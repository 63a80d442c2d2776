import PrivacyGuard.Extension.PipeClient

/-! # What events do to the sockets

The timers and callbacks of a client are not part of what it says. An event extends
the texts of sockets and never shortens them, and a disposed client writes nothing.
-/

namespace PrivacyGuard

theorem incrementNumber_le {n : ℕ} (h : n ≤ incrementLimit) :
    n ≤ incrementNumber n ∧ incrementNumber n ≤ incrementLimit := by
  unfold incrementNumber
  split <;> omega

theorem incrementNumber_of_lt {n : ℕ} (h : incrementNumber n < incrementLimit) :
    incrementNumber n = n + 1 := by
  unfold incrementNumber at h ⊢
  split at h <;> simp_all

namespace PipeClient

variable {c c' c'' : PipeClient} {k : ℕ}

theorem modify_congr {l : List Socket} {f g : Socket → Socket}
    (h : ∀ s, l[k]? = some s → f s = g s) : l.modify k f = l.modify k g := by
  apply List.ext_getElem?
  intro j
  by_cases hj : j = k
  · subst hj
    rw [List.getElem?_modify_eq, List.getElem?_modify_eq]
    cases hs : l[j]? with
    | none => rfl
    | some s => simp [h s hs]
  · rw [List.getElem?_modify_ne _ _ (Ne.symm hj), List.getElem?_modify_ne _ _ (Ne.symm hj)]

theorem updateSocket_updateSocket (c : PipeClient) (k : ℕ) (f g : Socket → Socket) :
    (c.updateSocket k f).updateSocket k g = c.updateSocket k (g ∘ f) := by
  simp only [updateSocket, List.modify_modify_eq]

theorem readyState_eq {r : ReadyState} (hr : r ≠ .closed) :
    c.readyState k = r ↔ ∃ s, c.sockets[k]? = some s ∧ s.readyState = r := by
  unfold readyState
  cases c.sockets[k]? with
  | none => simp [hr.symm]
  | some s => simp

/-- The clients differ at most in their timers and callbacks. -/
structure SameCore (c c' : PipeClient) : Prop where
  clientId : c'.clientId = c.clientId
  sockets : c'.sockets = c.sockets
  socket : c'.socket = c.socket
  sequence : c'.sequence = c.sequence
  latestStatus : c'.latestStatus = c.latestStatus
  disposed : c'.disposed = c.disposed

theorem sameCore_clearStateRefresh (c : PipeClient) : SameCore c c.clearStateRefresh := by
  unfold clearStateRefresh
  split <;> exact ⟨rfl, rfl, rfl, rfl, rfl, rfl⟩

theorem sameCore_clearTimers (c : PipeClient) : SameCore c c.clearTimers := by
  have h := sameCore_clearStateRefresh c
  unfold clearTimers clearReconnect
  split
  · exact ⟨h.clientId, h.sockets, h.socket, h.sequence, h.latestStatus, h.disposed⟩
  · exact h

/-- What `dispose` does to the current socket. -/
def farewell (s : Socket) : Socket :=
  { s with
    written := if s.readyState = .opened then s.written ++ [goodbyeFrame] else s.written
    readyState := .closed
    released := true }

theorem endWith_or_destroy (c : PipeClient) (k : ℕ) :
    (if c.readyState k = .opened then c.endWith k goodbyeFrame else c.destroy k) =
      { c with sockets := c.sockets.modify k farewell } := by
  have hopened := readyState_eq (c := c) (k := k) (r := .opened) (by decide)
  have hsockets : ∀ f : Socket → Socket, (∀ s, c.sockets[k]? = some s → f s = farewell s) →
      c.updateSocket k f = { c with sockets := c.sockets.modify k farewell } := by
    intro f hf
    rw [updateSocket, modify_congr hf]
  split
  case isTrue ho =>
    obtain ⟨s, hs, ho⟩ := hopened.mp ho
    rw [endWith, destroy, write, updateSocket_updateSocket]
    refine hsockets _ fun t ht => ?_
    obtain rfl := Option.some.inj (hs.symm.trans ht)
    simp [farewell, ho]
  case isFalse ho =>
    refine hsockets _ fun t ht => ?_
    have hclosed : t.readyState ≠ .opened := fun h => ho (hopened.mpr ⟨t, ht, h⟩)
    simp [farewell, hclosed]

def farewells (c : PipeClient) : List Socket :=
  match c.socket with
  | some k => c.sockets.modify k farewell
  | none => c.sockets

theorem dispose_eq (c : PipeClient) : c.dispose =
    { clearTimers { c with disposed := true } with socket := none, sockets := c.farewells } := by
  have h := sameCore_clearTimers { c with disposed := true }
  unfold PipeClient.dispose
  simp only
  generalize clearTimers { c with disposed := true } = d at h ⊢
  have hfarewells : c.farewells = d.farewells := by
    simp only [farewells, h.sockets, h.socket]
  rw [hfarewells]
  unfold farewells
  cases d.socket with
  | none => rfl
  | some k => simp only [endWith_or_destroy]

theorem sameCore_dispose (c : PipeClient) :
    SameCore { c with disposed := true, socket := none, sockets := c.farewells } c.dispose := by
  have h := sameCore_clearTimers { c with disposed := true }
  rw [dispose_eq]
  exact ⟨h.clientId, rfl, rfl, h.sequence, h.latestStatus, h.disposed⟩

theorem sameCore_handleClosed (h : c.socket = some k) :
    SameCore { c with socket := none } (c.handleClosed k) := by
  obtain ⟨hid, hsockets, hsocket, hsequence, hlatest, hdisposed⟩ :=
    sameCore_clearStateRefresh { c with socket := none }
  unfold handleClosed
  rw [if_neg (not_not.mpr h)]
  simp only
  split
  · exact ⟨hid, hsockets, hsocket, hsequence, hlatest, hdisposed⟩
  · exact ⟨hid, hsockets, hsocket, hsequence, hlatest, hdisposed⟩

/-! ### Delivery -/

def emitConnect (s : Socket) : Socket :=
  { s with
    connectEmitted := true
    readyState := if s.readyState = .opening then .opened else s.readyState }

def emitClose (s : Socket) : Socket := { s with readyState := .closed, closeEmitted := true }

theorem handleConnected_of_superseded (h : c.socket ≠ some k) : c.handleConnected k = c.destroy k :=
  if_pos (Or.inl h)

theorem handleClosed_of_superseded (h : c.socket ≠ some k) : c.handleClosed k = c :=
  if_pos h

inductive Delivered (c : PipeClient) : ClientEvent → PipeClient → Prop
  | connect : Delivered c .connect c.connect
  | publish (status : PrivacyStatus) : Delivered c (.publish status) (c.publish status)
  | dispose : Delivered c .dispose c.dispose
  | connected {k : ℕ} {s : Socket} (hk : c.sockets[k]? = some s)
      (hemitted : s.connectEmitted = false) :
      Delivered c (.connected k) ((c.updateSocket k emitConnect).handleConnected k)
  | ended {k : ℕ} {s : Socket} (hk : c.sockets[k]? = some s) (ho : s.readyState = .opened) :
      Delivered c (.ended k) (c.updateSocket k fun socket => { socket with readyState := .closed })
  | closed {k : ℕ} {s : Socket} (hk : c.sockets[k]? = some s) (hclosed : s.closeEmitted = false) :
      Delivered c (.closed k) ((c.updateSocket k emitClose).handleClosed k)
  | refreshFires {handle k : ℕ} (hmem : (handle, k) ∈ c.intervals) :
      Delivered c (.refreshFires handle) (c.refresh k)
  | reconnectFires {handle : ℕ} (hmem : handle ∈ c.timeouts) :
      Delivered c (.reconnectFires handle)
        (PipeClient.connect { c with timeouts := c.timeouts.erase handle })

theorem delivered_of_step {e : ClientEvent} (hs : c.step e = some c') : Delivered c e c' := by
  cases e with
  | connect => exact Option.some.inj hs ▸ .connect
  | publish status => exact Option.some.inj hs ▸ .publish status
  | dispose => exact Option.some.inj hs ▸ .dispose
  | connected k =>
    simp only [PipeClient.step] at hs
    split at hs
    case h_2 => cases hs
    case h_1 s hk =>
      obtain ⟨hemitted, hs⟩ := Option.ite_none_left_eq_some.mp hs
      exact Option.some.inj hs ▸ .connected hk (by simpa using hemitted)
  | ended k =>
    obtain ⟨ho, hs⟩ := Option.ite_none_right_eq_some.mp hs
    obtain ⟨s, hk, ho⟩ := (readyState_eq (by decide)).mp ho
    exact Option.some.inj hs ▸ .ended hk ho
  | closed k =>
    simp only [PipeClient.step] at hs
    split at hs
    case h_2 => cases hs
    case h_1 s hk =>
      obtain ⟨hclosed, hs⟩ := Option.ite_none_left_eq_some.mp hs
      exact Option.some.inj hs ▸ .closed hk (by simpa using hclosed)
  | refreshFires handle =>
    simp only [PipeClient.step] at hs
    split at hs
    case h_2 => cases hs
    case h_1 handle' k hfind =>
      obtain rfl : handle' = handle := by simpa using List.find?_some hfind
      exact Option.some.inj hs ▸ .refreshFires (List.mem_of_find?_eq_some hfind)
  | reconnectFires handle =>
    obtain ⟨hmem, hs⟩ := Option.ite_none_right_eq_some.mp hs
    exact Option.some.inj hs ▸ .reconnectFires hmem

/-! ### Growth -/

/-- Every socket keeps the texts it has, and more may follow. -/
structure Grows (c c' : PipeClient) : Prop where
  clientId : c'.clientId = c.clientId
  sequence : c.sequence ≤ c'.sequence
  sockets : ∀ (k : ℕ) (s : Socket), c.sockets[k]? = some s →
    ∃ s', c'.sockets[k]? = some s' ∧ s.written <+: s'.written

theorem Grows.refl (c : PipeClient) : Grows c c :=
  ⟨rfl, le_rfl, fun _ s hs => ⟨s, hs, List.prefix_rfl⟩⟩

theorem Grows.trans (h : Grows c c') (h' : Grows c' c'') : Grows c c'' where
  clientId := h'.clientId.trans h.clientId
  sequence := h.sequence.trans h'.sequence
  sockets k s hs := by
    obtain ⟨s', hs', hp⟩ := h.sockets k s hs
    obtain ⟨s'', hs'', hp'⟩ := h'.sockets k s' hs'
    exact ⟨s'', hs'', hp.trans hp'⟩

theorem grows_of_sockets (hid : c'.clientId = c.clientId) (hsequence : c.sequence ≤ c'.sequence)
    (hsockets : c'.sockets = c.sockets) : Grows c c' :=
  ⟨hid, hsequence, fun _ s hs => ⟨s, hsockets ▸ hs, List.prefix_rfl⟩⟩

theorem SameCore.grows (h : SameCore c c') : Grows c c' :=
  grows_of_sockets h.clientId h.sequence.ge h.sockets

theorem grows_updateSocket (c : PipeClient) (k : ℕ) {f : Socket → Socket}
    (hf : ∀ s, s.written <+: (f s).written) : Grows c (c.updateSocket k f) := by
  refine ⟨rfl, le_rfl, fun j s hs => ?_⟩
  by_cases hj : k = j
  · subst hj
    exact ⟨f s, by simp [updateSocket, hs], hf s⟩
  · exact ⟨s, by simp [updateSocket, hj, hs], List.prefix_rfl⟩

theorem grows_write (c : PipeClient) (k : ℕ) (text : Bytes) : Grows c (c.write k text) :=
  grows_updateSocket c k fun _ => List.prefix_append _ _

theorem grows_destroy (c : PipeClient) (k : ℕ) : Grows c (c.destroy k) :=
  grows_updateSocket c k fun _ => List.prefix_rfl

theorem le_incrementNumber (n : ℕ) : n ≤ incrementNumber n := by
  unfold incrementNumber
  split <;> omega

theorem grows_writeState (c : PipeClient) (k : ℕ) : Grows c (c.writeState k) := by
  have h : Grows c { c with sequence := incrementNumber c.sequence } :=
    grows_of_sockets rfl (le_incrementNumber _) rfl
  exact h.trans (grows_write _ k _)

theorem grows_connect (c : PipeClient) : Grows c c.connect := by
  unfold connect
  split
  case isTrue => exact .refl c
  case isFalse =>
    refine ⟨rfl, le_rfl, fun k s hs => ⟨s, ?_, List.prefix_rfl⟩⟩
    rw [List.getElem?_append_left (List.getElem?_eq_some_iff.mp hs).1]
    exact hs

theorem grows_publish (c : PipeClient) (status : PrivacyStatus) : Grows c (c.publish status) := by
  have h : Grows c { c with latestStatus := status } := grows_of_sockets rfl le_rfl rfl
  unfold publish
  simp only
  split
  · split
    · exact h.trans (grows_writeState _ _)
    · exact h
  · exact h

theorem grows_dispose (c : PipeClient) : Grows c c.dispose := by
  refine Grows.trans ?_ (sameCore_dispose c).grows
  unfold farewells
  cases c.socket with
  | none => exact grows_of_sockets rfl le_rfl rfl
  | some k =>
    have h : Grows c (c.updateSocket k farewell) := by
      refine grows_updateSocket c k fun s => ?_
      unfold farewell
      simp only
      split
      · exact List.prefix_append _ _
      · exact List.prefix_rfl
    exact h.trans (grows_of_sockets rfl le_rfl rfl)

theorem grows_handleConnected (c : PipeClient) (k : ℕ) : Grows c (c.handleConnected k) := by
  unfold handleConnected
  split
  case isTrue => exact grows_destroy c k
  case isFalse =>
    have h : Grows c { c with connectionStates := .connected :: c.connectionStates } :=
      grows_of_sockets rfl le_rfl rfl
    have h' := (h.trans (grows_write _ k (helloFrame c.clientId))).trans (grows_writeState _ k)
    exact h'.trans (grows_of_sockets rfl le_rfl rfl)

theorem grows_handleClosed (c : PipeClient) (k : ℕ) : Grows c (c.handleClosed k) := by
  by_cases hcur : c.socket = some k
  · have h : Grows c { c with socket := none } := grows_of_sockets rfl le_rfl rfl
    exact h.trans (sameCore_handleClosed hcur).grows
  · rw [handleClosed_of_superseded hcur]
    exact .refl c

theorem grows_refresh (c : PipeClient) (k : ℕ) : Grows c (c.refresh k) := by
  unfold refresh
  split
  case isTrue => exact grows_writeState c k
  case isFalse => exact .refl c

theorem grows_step {e : ClientEvent} (hs : c.step e = some c') : Grows c c' := by
  cases delivered_of_step hs with
  | connect => exact grows_connect c
  | publish status => exact grows_publish c status
  | dispose => exact grows_dispose c
  | connected hk =>
    refine Grows.trans ?_ (grows_handleConnected _ _)
    exact grows_updateSocket c _ fun _ => List.prefix_rfl
  | ended hk => exact grows_updateSocket c _ fun _ => List.prefix_rfl
  | closed hk =>
    refine Grows.trans ?_ (grows_handleClosed _ _)
    exact grows_updateSocket c _ fun _ => List.prefix_rfl
  | refreshFires hmem => exact grows_refresh c _
  | reconnectFires hmem =>
    refine Grows.trans ?_ (grows_connect _)
    exact grows_of_sockets rfl le_rfl rfl

end PipeClient

end PrivacyGuard
