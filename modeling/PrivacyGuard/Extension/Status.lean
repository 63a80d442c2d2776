import PrivacyGuard.Extension.Lifecycle
import PrivacyGuard.Extension.Window

/-! # What a window reports

The status bar and the published status of a window follow from what it has evaluated last
and from the socket of its client, whatever the order of the events. Stored rules that are
no list keep both as they are.
-/

namespace PrivacyGuard

open Utf16

/-! ### The state that the client has announced -/

namespace PipeClient

variable {c c' : PipeClient} {k j : ℕ} {f : Socket → Socket}

def HasConnected (c : PipeClient) : Prop := ∃ k, c.socket = some k ∧ c.Connected k

/-- The state announced last is that of the current socket. -/
def Announces (c : PipeClient) : Prop :=
  c.disposed = false → (c.connectionStates.head? = some .connected ↔ c.HasConnected)

theorem connected_updateSocket (h : k ≠ j ∨ ∀ s, (f s).connectEmitted = s.connectEmitted) :
    (c.updateSocket k f).Connected j ↔ c.Connected j := by
  unfold Connected
  by_cases hkj : k = j
  · subst hkj
    have hf := h.resolve_left (by simp)
    simp only [updateSocket, List.getElem?_modify_eq, Option.map_eq_map, Option.map_eq_some_iff]
    constructor
    · rintro ⟨_, ⟨s, hs, rfl⟩, hemitted⟩
      exact ⟨s, hs, (hf s).symm.trans hemitted⟩
    · rintro ⟨s, hs, hemitted⟩
      exact ⟨f s, ⟨s, hs, rfl⟩, (hf s).trans hemitted⟩
  · simp only [updateSocket, List.getElem?_modify_ne _ _ hkj]

theorem Announces.congr (h : Announces c) (hdisposed : c'.disposed = c.disposed)
    (hstates : c'.connectionStates = c.connectionStates) (hsocket : c'.socket = c.socket)
    (hconnected : ∀ j, c.socket = some j → (c'.Connected j ↔ c.Connected j)) : Announces c' := by
  intro hd
  rw [hstates, h (hdisposed ▸ hd)]
  simp only [HasConnected, hsocket]
  exact exists_congr fun j => and_congr_right fun hj => (hconnected j hj).symm

theorem Announces.update (h : Announces c) (k : ℕ)
    (hf : ∀ s, (f s).connectEmitted = s.connectEmitted) : Announces (c.updateSocket k f) :=
  h.congr rfl rfl rfl fun _ _ => connected_updateSocket (Or.inr hf)

theorem Announces.writeState (h : Announces c) (k : ℕ) : Announces (c.writeState k) := by
  have h' : Announces { c with sequence := incrementNumber c.sequence } := h
  exact h'.update k fun _ => rfl

theorem Announces.connect (h : Announces c) : Announces c.connect := by
  unfold PipeClient.connect
  split
  case isTrue => exact h
  case isFalse hguard =>
    intro hd
    have hnone : c.socket = none := by
      simp only [Bool.or_eq_true, not_or, Bool.not_eq_true, Option.isSome_eq_false_iff,
        Option.isNone_iff_eq_none] at hguard
      exact hguard.2
    change c.connectionStates.head? = some .connected ↔ _
    rw [h hd]
    simp [HasConnected, hnone, Connected]

theorem Announces.publish (h : Announces c) (status : PrivacyStatus) :
    Announces (c.publish status) := by
  have h' : Announces { c with latestStatus := status } := h
  unfold PipeClient.publish
  simp only
  split
  · split
    · exact h'.writeState _
    · exact h'
  · exact h'

theorem Announces.refresh (h : Announces c) (k : ℕ) : Announces (c.refresh k) := by
  unfold PipeClient.refresh
  split
  · exact h.writeState k
  · exact h

theorem Announces.connected (h : Announces c) {s : Socket} (hk : c.sockets[k]? = some s) :
    Announces ((c.updateSocket k emitConnect).handleConnected k) := by
  unfold handleConnected
  split
  case isTrue hguard =>
    intro hd
    have hcur : c.socket ≠ some k := by
      rcases hguard with hcur | hdisposed
      · exact hcur
      · exact absurd (hdisposed.symm.trans hd) (by simp)
    have hkept : Announces (destroy (c.updateSocket k emitConnect) k) := by
      refine h.congr rfl rfl rfl ?_
      intro j hj
      have hkj : k ≠ j := by
        rintro rfl
        exact hcur hj
      exact (connected_updateSocket (Or.inl hkj)).trans (connected_updateSocket (Or.inl hkj))
    exact hkept hd
  case isFalse hguard =>
    intro _
    refine ⟨fun _ => ⟨k, not_not.mp (not_or.mp hguard).1, ?_⟩, fun _ => rfl⟩
    apply Connected.updateSocket
    · exact fun _ => ⟨id, id⟩
    · apply Connected.updateSocket
      · exact fun _ => ⟨id, id⟩
      · exact ⟨emitConnect s, by simp [updateSocket, hk], rfl⟩

theorem connectionStates_handleClosed (h : c.socket = some k) :
    (c.handleClosed k).connectionStates = .disconnected :: c.connectionStates := by
  have hclear : ∀ d : PipeClient, d.clearStateRefresh.connectionStates = d.connectionStates := by
    intro d
    unfold clearStateRefresh
    split <;> rfl
  unfold handleClosed
  rw [if_neg (not_not.mpr h)]
  simp only
  split
  · exact congrArg (ConnectionState.disconnected :: ·) (hclear _)
  · exact congrArg (ConnectionState.disconnected :: ·) (hclear _)

theorem Announces.closed (h : Announces c) (k : ℕ) :
    Announces ((c.updateSocket k emitClose).handleClosed k) := by
  have h' : Announces (c.updateSocket k emitClose) := h.update k fun _ => rfl
  generalize c.updateSocket k emitClose = d at h' ⊢
  by_cases hcur : d.socket = some k
  · have hsocket : (d.handleClosed k).socket = none := (sameCore_handleClosed hcur).socket
    intro _
    simp [connectionStates_handleClosed hcur, HasConnected, hsocket]
  · rwa [handleClosed_of_superseded hcur]

theorem Announces.step (h : Announces c) {e : ClientEvent} (hs : c.step e = some c') :
    Announces c' := by
  cases delivered_of_step hs with
  | connect => exact h.connect
  | publish status => exact h.publish status
  | dispose =>
    intro hd
    rw [(sameCore_dispose c).disposed] at hd
    cases hd
  | connected hk => exact h.connected hk
  | ended hk => exact h.update _ fun _ => rfl
  | closed hk => exact h.closed _
  | refreshFires hmem => exact h.refresh _
  | @reconnectFires handle hmem =>
    have h' : Announces { c with timeouts := c.timeouts.erase handle } := h
    exact h'.connect

/-- A step announces at most one state. -/
theorem connectionStates_step {e : ClientEvent} (hs : c.step e = some c') :
    c'.connectionStates = c.connectionStates ∨
      ∃ state, c'.connectionStates = state :: c.connectionStates := by
  cases delivered_of_step hs with
  | connect => exact Or.inl (undisturbed_connect c).announced
  | publish status => exact Or.inl (undisturbed_publish c status).announced
  | dispose => exact Or.inl (connectionStates_dispose c)
  | connected hk =>
    unfold handleConnected
    split
    · exact Or.inl rfl
    · exact Or.inr ⟨.connected, rfl⟩
  | ended hk => exact Or.inl rfl
  | @closed k s hk =>
    by_cases hcur : (c.updateSocket k emitClose).socket = some k
    · exact Or.inr ⟨.disconnected, connectionStates_handleClosed hcur⟩
    · rw [handleClosed_of_superseded hcur]
      exact Or.inl rfl
  | refreshFires hmem => exact Or.inl (undisturbed_refresh c _).announced
  | reconnectFires hmem => exact Or.inl (undisturbed_connect _).announced

structure Unused (c : PipeClient) : Prop where
  socket : c.socket = none
  sockets : c.sockets = []
  stateRefreshTimer : c.stateRefreshTimer = none
  intervals : c.intervals = []
  reconnectTimer : c.reconnectTimer = none
  timeouts : c.timeouts = []

theorem Unused.step_eq_none (h : Unused c) {e : ClientEvent} (he : e.fromRuntime = true) :
    c.step e = none := by
  cases e with
  | connect => cases he
  | publish status => cases he
  | dispose => cases he
  | connected k => simp [PipeClient.step, h.sockets]
  | ended k => simp [PipeClient.step, PipeClient.readyState, h.sockets]
  | closed k => simp [PipeClient.step, h.sockets]
  | refreshFires handle => simp [PipeClient.step, h.intervals]
  | reconnectFires handle => simp [PipeClient.step, h.timeouts]

theorem Unused.dispose (h : Unused c) : Unused c.dispose := by
  have heq : c.dispose = { c with disposed := true } := by
    simp only [PipeClient.dispose, clearTimers, clearStateRefresh, clearReconnect, h.socket,
      h.stateRefreshTimer, h.reconnectTimer]
  rw [heq]
  exact ⟨h.socket, h.sockets, h.stateRefreshTimer, h.intervals, h.reconnectTimer, h.timeouts⟩

end PipeClient

/-! ### The status bar -/

namespace Window

variable {d : CaseData} {w w' : Window}

/-- Nothing has been rendered, and nothing can happen to the client. -/
structure Unrendered (w : Window) : Prop where
  statusBar : w.statusBar = {}
  sensitive : w.sensitive = true
  unused : w.client.Unused

/-- The published status, the announced state and the status bar go together. -/
structure Aligned (w : Window) : Prop where
  orderly : w.client.Orderly
  latest : w.client.latestStatus = statusOf w.sensitive
  state : w.connectionState = w.client.connectionStates.head?.getD .disconnected
  announces : w.client.Announces
  rendered : w.statusBar = statusBarOf w.sensitive w.connectionState ∨ w.Unrendered

/-- The window has evaluated what it shows, unless the stored rules are no list. -/
def Current (d : CaseData) (w : Window) : Prop :=
  ∀ configuredRules, w.configuration.getRules = .array configuredRules →
    w.sensitive = w.isSensitive d configuredRules

structure Sound (d : CaseData) (w : Window) : Prop where
  aligned : w.Aligned
  current : w.listening = true → w.editorsPending = false → w.configurationPending = false →
    w.Current d

theorem sound_create (clientId : Bytes) (uuid : Uuid clientId) :
    Sound d (create clientId uuid) where
  aligned :=
    { orderly := PipeClient.orderly_create uuid
      latest := rfl
      state := rfl
      announces := fun _ => by simp [create, PipeClient.create, PipeClient.HasConnected]
      rendered := Or.inr ⟨rfl, rfl, rfl, rfl, rfl, rfl, rfl, rfl⟩ }
  current h := by simp [create, listening] at h

theorem Aligned.congr (h : Aligned w) (hclient : w'.client = w.client)
    (hstate : w'.connectionState = w.connectionState) (hsensitive : w'.sensitive = w.sensitive)
    (hbar : w'.statusBar = w.statusBar) : Aligned w' where
  orderly := hclient ▸ h.orderly
  latest := by rw [hclient, hsensitive, h.latest]
  state := by rw [hclient, hstate, h.state]
  announces := hclient ▸ h.announces
  rendered := by
    rw [hbar, hsensitive, hstate]
    exact h.rendered.imp_right fun hu =>
      ⟨hbar.trans hu.statusBar, hsensitive.trans hu.sensitive, hclient ▸ hu.unused⟩

/-- An evaluation throws, or it brings everything in line with what the window shows. -/
theorem Aligned.evaluateVisibleEditors (h : Aligned w) :
    (w.evaluateVisibleEditors d = none ∧ w.configuration.getRules = .other) ∨
      ∃ w', w.evaluateVisibleEditors d = some w' ∧ Aligned w' ∧ Current d w' ∧
        w'.statusBar = statusBarOf w'.sensitive w'.connectionState := by
  unfold Window.evaluateVisibleEditors
  cases hrules : w.configuration.getRules with
  | other => exact Or.inl ⟨rfl, rfl⟩
  | array configuredRules =>
    refine Or.inr ⟨_, rfl, ?_, ?_, rfl⟩
    · constructor
      case orderly => exact h.orderly.publish _
      case latest => exact PipeClient.latestStatus_publish _ _
      case state =>
        change w.connectionState = _
        rw [h.state]
        exact congrArg (fun states => states.head?.getD .disconnected)
          (PipeClient.undisturbed_publish _ _).announced.symm
      case announces => exact h.announces.publish _
      case rendered => exact Or.inl rfl
    · intro rules hr
      change w.configuration.getRules = _ at hr
      obtain rfl := Setting.array.inj (hrules.symm.trans hr)
      rfl

theorem Aligned.evaluate (h : Aligned w) : Sound d (w.evaluate d) := by
  unfold Window.evaluate
  rcases h.evaluateVisibleEditors (d := d) with ⟨hnone, hother⟩ | ⟨w', hw', haligned, hcurrent, -⟩
  · rw [hnone]
    refine ⟨h, fun _ _ _ configuredRules hr => ?_⟩
    cases hother.symm.trans hr
  · rw [hw']
    exact ⟨haligned, fun _ _ _ => hcurrent⟩

theorem Aligned.activate (h : Aligned w) : Sound d (w.activate d) := by
  have h' : Aligned
      { w with activated := true, editorsPending := false, configurationPending := false } :=
    h.congr rfl rfl rfl rfl
  unfold Window.activate
  simp only
  rcases h'.evaluateVisibleEditors (d := d) with
    ⟨hnone, hother⟩ | ⟨w', hw', haligned, hcurrent, hbar⟩
  · rw [hnone]
    refine ⟨h', fun _ _ _ configuredRules hr => ?_⟩
    cases hother.symm.trans hr
  · rw [hw']
    refine ⟨⟨haligned.orderly.connect, ?_, ?_, haligned.announces.connect, Or.inl hbar⟩,
      fun _ _ _ => hcurrent⟩
    · exact (PipeClient.latestStatus_connect _).trans haligned.latest
    · rw [(PipeClient.undisturbed_connect _).announced]
      exact haligned.state

theorem hear_eq {e : PipeClient.ClientEvent} {client : PipeClient}
    (hs : w.client.step e = some client) :
    (client.connectionStates = w.client.connectionStates ∧ w.hear client = { w with client }) ∨
      ∃ connectionState, client.connectionStates = connectionState :: w.client.connectionStates ∧
        w.hear client = renderStatus { w with client, connectionState } := by
  unfold hear
  rcases PipeClient.connectionStates_step hs with heq | ⟨connectionState, heq⟩
  · exact Or.inl ⟨heq, by simp [heq]⟩
  · refine Or.inr ⟨connectionState, heq, ?_⟩
    simp [heq, onConnectionState]

theorem Aligned.hear (h : Aligned w) {e : PipeClient.ClientEvent} {client : PipeClient}
    (hruntime : e.fromRuntime = true) (hs : w.client.step e = some client) :
    Aligned (w.hear client) := by
  have hlatest : client.latestStatus = statusOf w.sensitive := by
    rw [PipeClient.latestStatus_step hs, ← h.latest]
    cases e <;> simp_all [PipeClient.ClientEvent.status, PipeClient.ClientEvent.fromRuntime]
  rcases hear_eq hs with ⟨heq, hhear⟩ | ⟨connectionState, heq, hhear⟩
  · rw [hhear]
    refine ⟨h.orderly.step hs, hlatest, by rw [heq]; exact h.state, h.announces.step hs, ?_⟩
    rcases h.rendered with hbar | hu
    · exact Or.inl hbar
    · cases (hu.unused.step_eq_none hruntime).symm.trans hs
  · rw [hhear]
    exact ⟨h.orderly.step hs, hlatest, by rw [renderStatus, heq]; rfl, h.announces.step hs,
      Or.inl rfl⟩

theorem Sound.hear (h : Sound d w) {e : PipeClient.ClientEvent} {client : PipeClient}
    (hruntime : e.fromRuntime = true) (hs : w.client.step e = some client) :
    Sound d (w.hear client) := by
  refine ⟨h.aligned.hear hruntime hs, ?_⟩
  have hframe : (w.hear client).client = client ∧ (w.hear client).activated = w.activated ∧
      (w.hear client).editorsPending = w.editorsPending ∧
      (w.hear client).configurationPending = w.configurationPending ∧
      (w.Current d → (w.hear client).Current d) := by
    rcases hear_eq hs with ⟨-, hhear⟩ | ⟨connectionState, -, hhear⟩
    · rw [hhear]
      exact ⟨rfl, rfl, rfl, rfl, id⟩
    · rw [hhear]
      exact ⟨rfl, rfl, rfl, rfl, id⟩
  obtain ⟨hclient, hactivated, heditors, hconfiguration, hcurrent⟩ := hframe
  intro hl he hc
  refine hcurrent (h.current ?_ (heditors ▸ he) (hconfiguration ▸ hc))
  rw [listening, hclient, hactivated, Bool.and_eq_true, Bool.not_eq_true'] at hl
  rw [listening, hl.1, Bool.true_and, Bool.not_eq_true']
  by_contra hd
  have hquiet := h.aligned.orderly.quiet (Bool.of_not_eq_false hd) hs
  simp [hquiet.disposed] at hl

theorem Aligned.dispose (h : Aligned w) : Aligned { w with client := w.client.dispose } where
  orderly := h.orderly.dispose
  latest := (PipeClient.sameCore_dispose _).latestStatus.trans h.latest
  state := by
    rw [PipeClient.connectionStates_dispose]
    exact h.state
  announces hd := by
    rw [(PipeClient.sameCore_dispose w.client).disposed] at hd
    cases hd
  rendered := h.rendered.imp_right fun hu => ⟨hu.statusBar, hu.sensitive, hu.unused.dispose⟩

theorem Sound.step (h : Sound d w) {e : Event} (hs : w.step d e = some w') : Sound d w' := by
  cases e with
  | activate =>
    obtain ⟨-, hs⟩ := Option.ite_none_left_eq_some.mp hs
    obtain rfl := Option.some.inj hs
    exact h.aligned.activate
  | «show» editors =>
    obtain rfl := Option.some.inj hs
    exact ⟨h.aligned.congr rfl rfl rfl rfl, fun _ hp => by cases hp⟩
  | configure configuration =>
    obtain rfl := Option.some.inj hs
    exact ⟨h.aligned.congr rfl rfl rfl rfl, fun _ _ hp => by cases hp⟩
  | visibleTextEditorsChanged =>
    obtain ⟨-, hs⟩ := Option.ite_none_right_eq_some.mp hs
    obtain rfl := Option.some.inj hs
    have haligned : Aligned { w with editorsPending := false } := h.aligned.congr rfl rfl rfl rfl
    exact haligned.evaluate
  | configurationChanged affectsConfiguration =>
    obtain ⟨-, hs⟩ := Option.ite_none_right_eq_some.mp hs
    split at hs
    case isTrue =>
      obtain rfl := Option.some.inj hs
      have haligned : Aligned { w with configurationPending := false } :=
        h.aligned.congr rfl rfl rfl rfl
      exact haligned.evaluate
    case isFalse =>
      obtain rfl := Option.some.inj hs
      exact h
  | client event =>
    obtain ⟨hruntime, hs⟩ := Option.ite_none_right_eq_some.mp hs
    obtain ⟨client, hstep, rfl⟩ := Option.map_eq_some_iff.mp hs
    exact h.hear hruntime hstep
  | dispose =>
    obtain ⟨-, hs⟩ := Option.ite_none_right_eq_some.mp hs
    obtain rfl := Option.some.inj hs
    refine ⟨h.aligned.dispose, fun hl => ?_⟩
    simp [listening, (PipeClient.sameCore_dispose w.client).disposed] at hl

structure Truthful (d : CaseData) (w : Window) : Prop where
  hidden : w.statusBar.text = "$(shield) OBS: safe" ∨
    w.statusBar.text = "$(debug-disconnect) OBS: disconnected" ↔ w.client.latestStatus = .safe
  connected : w.client.latestStatus = .safe →
    (w.statusBar.text = "$(shield) OBS: safe" ↔ w.client.HasConnected)
  /-- With all events delivered, the status is the one of the visible files. -/
  safe : w.editorsPending = false → w.configurationPending = false →
    ∀ configuredRules, w.configuration.getRules = .array configuredRules →
      (w.client.latestStatus = .safe ↔ w.configuration.getEnabled = true ∧
        ∀ path ∈ w.visibleTextEditors, matchesFile d path (filterRules configuredRules) = false)

theorem statusOf_eq_safe {sensitive : Bool} : statusOf sensitive = .safe ↔ sensitive = false := by
  cases sensitive <;> simp [statusOf]

theorem isSensitive_eq_false {configuredRules : List Unknown} :
    w.isSensitive d configuredRules = false ↔ w.configuration.getEnabled = true ∧
      ∀ path ∈ w.visibleTextEditors, matchesFile d path (filterRules configuredRules) = false := by
  simp [isSensitive, Bool.or_eq_false_iff]

theorem Sound.truthful (h : Sound d w) (hl : w.listening = true) : Truthful d w := by
  obtain ⟨-, hdisposed⟩ := Bool.and_eq_true_iff.mp hl
  have hlatest : w.client.latestStatus = .safe ↔ w.sensitive = false := by
    rw [h.aligned.latest, statusOf_eq_safe]
  have hconnected : w.connectionState = .connected ↔ w.client.HasConnected := by
    rw [← h.aligned.announces (by simpa using hdisposed), h.aligned.state]
    cases w.client.connectionStates.head? <;> simp
  constructor
  case hidden =>
    rw [hlatest]
    rcases h.aligned.rendered with hbar | hu
    · rw [hbar]
      cases w.sensitive <;> cases w.connectionState <;> simp [statusBarOf]
    · simp [hu.statusBar, hu.sensitive]
  case connected =>
    intro hsafe
    rw [hlatest] at hsafe
    rcases h.aligned.rendered with hbar | hu
    · rw [hbar, ← hconnected, hsafe]
      cases w.connectionState <;> simp [statusBarOf]
    · simp [hu.sensitive] at hsafe
  case safe =>
    intro he hc configuredRules hr
    rw [hlatest, h.current hl he hc configuredRules hr, isSensitive_eq_false]

/-- In every order of events, the status bar and the published status of a window tell what
it shows and whether it is connected. -/
theorem truthful_of_run {clientId : Bytes} {uuid : Uuid clientId} {events : List Event}
    (hrun : Transition.run (Window.step d) (create clientId uuid) events = some w)
    (hl : w.listening = true) : Truthful d w := by
  have h : Sound d w := Transition.run_invariant (fun _ _ _ h hs => Sound.step h hs)
    (sound_create clientId uuid) hrun
  exact h.truthful hl

/-- A window that shows a file of secrets first, connects, and then shows another file. No
rules are stored. -/
def editing : List Event :=
  [.show [utf16 "C:/project/.ENV"], .activate, .client (.connected 0),
    .show [utf16 "C:/project/main.ts"], .visibleTextEditorsChanged]

def edited : Window :=
  (Transition.run (Window.step greek) (create Built.zeroUuid Built.uuid_zeroUuid) editing).get
    (by decide +kernel)

theorem truthful_edited : edited.client.latestStatus = .safe ∧ Truthful greek edited :=
  ⟨by decide +kernel, truthful_of_run (Option.some_get _).symm (by decide +kernel)⟩

/-! ### Stored rules that are no list -/

def Event.configures : Event → Bool
  | .configure _ => true
  | _ => false

structure Frozen (w w' : Window) : Prop where
  rules : w'.configuration.getRules = .other
  sensitive : w'.sensitive = w.sensitive
  latestStatus : w'.client.latestStatus = w.client.latestStatus
  /-- A window that is activated meanwhile does not connect. -/
  unused : w.client.Unused → w'.client.Unused

theorem Frozen.trans {w'' : Window} (h : Frozen w w') (h' : Frozen w' w'') : Frozen w w'' where
  rules := h'.rules
  sensitive := h'.sensitive.trans h.sensitive
  latestStatus := h'.latestStatus.trans h.latestStatus
  unused hu := h'.unused (h.unused hu)

theorem frozen_step (hrules : w.configuration.getRules = .other) {e : Event}
    (he : e.configures = false) (hs : w.step d e = some w') : Frozen w w' := by
  have hthrows : ∀ v : Window, v.configuration.getRules = .other →
      v.evaluateVisibleEditors d = none := by
    intro v hv
    rw [evaluateVisibleEditors, hv]
  have hevaluate : ∀ v : Window, Frozen w v → Frozen w (v.evaluate d) := by
    intro v hv
    rwa [evaluate, hthrows v hv.rules, Option.getD_none]
  cases e with
  | activate =>
    obtain ⟨-, hs⟩ := Option.ite_none_left_eq_some.mp hs
    obtain rfl := Option.some.inj hs
    unfold activate
    simp only [hthrows { w with
      activated := true, editorsPending := false, configurationPending := false } hrules]
    exact ⟨hrules, rfl, rfl, id⟩
  | «show» editors =>
    obtain rfl := Option.some.inj hs
    exact ⟨hrules, rfl, rfl, id⟩
  | configure configuration => cases he
  | visibleTextEditorsChanged =>
    obtain ⟨-, hs⟩ := Option.ite_none_right_eq_some.mp hs
    obtain rfl := Option.some.inj hs
    exact hevaluate _ ⟨hrules, rfl, rfl, id⟩
  | configurationChanged affectsConfiguration =>
    obtain ⟨-, hs⟩ := Option.ite_none_right_eq_some.mp hs
    split at hs
    case isTrue =>
      obtain rfl := Option.some.inj hs
      exact hevaluate _ ⟨hrules, rfl, rfl, id⟩
    case isFalse =>
      obtain rfl := Option.some.inj hs
      exact ⟨hrules, rfl, rfl, id⟩
  | client event =>
    obtain ⟨hruntime, hs⟩ := Option.ite_none_right_eq_some.mp hs
    obtain ⟨client, hstep, rfl⟩ := Option.map_eq_some_iff.mp hs
    have hlatest : client.latestStatus = w.client.latestStatus := by
      rw [PipeClient.latestStatus_step hstep]
      cases event <;>
        simp_all [PipeClient.ClientEvent.status, PipeClient.ClientEvent.fromRuntime]
    have hunused : w.client.Unused → client.Unused := by
      intro hu
      cases (hu.step_eq_none hruntime).symm.trans hstep
    rcases hear_eq hstep with ⟨-, hhear⟩ | ⟨connectionState, -, hhear⟩
    · rw [hhear]
      exact ⟨hrules, rfl, hlatest, hunused⟩
    · rw [hhear]
      exact ⟨hrules, rfl, hlatest, hunused⟩
  | dispose =>
    obtain ⟨-, hs⟩ := Option.ite_none_right_eq_some.mp hs
    obtain rfl := Option.some.inj hs
    exact ⟨hrules, rfl, (PipeClient.sameCore_dispose _).latestStatus, fun hu => hu.dispose⟩

/-- Until the settings are repaired, whatever files become visible, the window reports what it
reported last. -/
theorem frozen_of_run {events : List Event} (hrules : w.configuration.getRules = .other)
    (hevents : ∀ e ∈ events, e.configures = false)
    (hrun : Transition.run (Window.step d) w events = some w') : Frozen w w' := by
  induction events generalizing w with
  | nil =>
    obtain rfl := Option.some.inj hrun
    exact ⟨hrules, rfl, rfl, id⟩
  | cons e events ih =>
    obtain ⟨he, hevents⟩ := List.forall_mem_cons.mp hevents
    obtain ⟨u, hu, hrun⟩ := Transition.run_cons.mp hrun
    have hfrozen := frozen_step hrules he hu
    exact hfrozen.trans (ih hfrozen.rules hevents hrun)

def breaking : List Event :=
  [.configurationChanged true, .show [utf16 "C:/project/.env"], .visibleTextEditorsChanged]

def broken : Window := { edited with configuration := { rules := some .other } }

theorem frozen_broken : broken.client.latestStatus = .safe ∧
    Frozen broken ((Transition.run (Window.step greek) broken breaking).get (by decide +kernel)) :=
  ⟨by decide +kernel, frozen_of_run rfl (by decide) (Option.some_get _).symm⟩

end Window

end PrivacyGuard
