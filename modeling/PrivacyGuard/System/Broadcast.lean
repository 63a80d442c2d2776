import PrivacyGuard.Display.Contract
import PrivacyGuard.Extension.Status
import PrivacyGuard.System.Agreement

/-! # From the editor to the output

Windows of the editor, the pipe server with its privacy state, the tick callback of the
plugin and the display controller run side by side. The tick callback expires silent
connections, reads the mode and forwards it, and calls of the others come in between.
-/

namespace PrivacyGuard

open Utf16

/-! ### The render callback -/

inductive Layer
  /-- A black layer of the size of the frame. -/
  | black
  | privacyImage
  | watermark
  deriving DecidableEq, Repr

structure Video where
  /-- The size of the canvas is known. -/
  videoInfo : Bool := true
  /-- The solid effect and its color are there. -/
  solidEffect : Bool := true
  deriving DecidableEq, Repr

/-- Draw an opaque frame-sized layer after OBS finishes rendering the scene. -/
def drawOpaqueOverlay (video : Video) : List Layer := if video.solidEffect then [.black] else []

/-- Nothing is drawn without an image. -/
def Controller.renderPrivacyImage (c : Controller) : List Layer :=
  if c.image = .cleared then [] else [.privacyImage]

/-- Custom outputs retain their scene or image and receive a post-render watermark. -/
def Controller.renderPrivacyOverlay (c : Controller) (video : Video) : List Layer :=
  if !c.overlayRequired && !c.watermarkRequired then []
  else if video.videoInfo then
    (if c.overlayRequired then drawOpaqueOverlay video ++ c.renderPrivacyImage else []) ++
      (if c.watermarkRequired then [.watermark] else [])
  else []

theorem Controller.black_mem_renderPrivacyOverlay {c : Controller} :
    .black ∈ c.renderPrivacyOverlay {} ↔ c.overlayRequired = true := by
  have himage : .black ∉ c.renderPrivacyImage := by
    unfold renderPrivacyImage
    split <;> simp
  cases hoverlay : c.overlayRequired <;> cases hwatermark : c.watermarkRequired <;>
    simp [renderPrivacyOverlay, drawOpaqueOverlay, hoverlay, hwatermark, himage]

/-! ### The system -/

inductive TickPoint
  | idle
  /-- The connections have been expired. -/
  | ticked
  /-- The mode has been read. -/
  | read (currentMode : Mode)
  deriving DecidableEq, Repr

structure Broadcast where
  windows : List Window
  server : Server
  channels : List Channel := []
  display : Display
  tickPoint : TickPoint := .idle

namespace Broadcast

def system (b : Broadcast) : System :=
  { server := b.server, clients := b.windows.map Window.client, channels := b.channels }

/-- The moves of the server and of its workers, and the settings dialog. -/
def ofPlugin : System.Label → Bool
  | .client _ _ => false
  | .server (.tick _) => false
  | _ => true

inductive Label
  | window (i : ℕ) (event : Window.Event)
  | system (label : System.Label)
  /-- `privacy_state->tick(now)`, `privacy_state->mode()`, and the rest of the callback. -/
  | tick (now : ℤ)
  | mode
  | forward
  | display (label : Display.Label)

def Label.opens : Label → ℕ
  | .system label => label.opens
  | _ => 0

def Label.requests : Label → ℕ
  | .forward => 1
  | .display label => label.requests
  | _ => 0

def start (livenessTimeout : ℤ) (clientIds : List { clientId : Bytes // Uuid clientId })
    (watermarkAvailable : Bool) : Broadcast where
  windows := clientIds.map fun ⟨clientId, uuid⟩ => .create clientId uuid
  server := .start livenessTimeout
  display := .start watermarkAvailable

def serve (b : Broadcast) (label : System.Label) : Option Broadcast :=
  (b.system.step label).map fun s => { b with server := s.server, channels := s.channels }

/-- Forward mode transitions once per OBS tick. -/
def step (d : CaseData) (b : Broadcast) : Label → Option Broadcast
  | .window i event =>
    match b.windows[i]? with
    | some w => (w.step d event).map fun w => { b with windows := b.windows.set i w }
    | none => none
  | .system label => if ofPlugin label then b.serve label else none
  | .tick now =>
    if b.tickPoint = .idle then
      (b.serve (.server (.tick now))).map fun b => { b with tickPoint := .ticked }
    else none
  | .mode =>
    if b.tickPoint = .ticked then some { b with tickPoint := .read b.server.privacyState.mode }
    else none
  | .forward =>
    match b.tickPoint with
    | .read currentMode =>
      some { b with display := b.display.tickPrivacyState currentMode, tickPoint := .idle }
    | _ => none
  | .display (.tick _) => none
  | .display label => (b.display.step label).map fun display => { b with display }

/-- The tick callback from its call to its return. -/
def callback (now : ℤ) : List Label := [.tick now, .mode, .forward]

/-- The scene shows: no black is drawn over it, and it is not the accepted one of the user. -/
def Open (b : Broadcast) : Prop :=
  .black ∉ b.display.controller.renderPrivacyOverlay {} ∧
    b.display.controller.customSceneActive = false

/-- A window that has heard its events, on a live connection that has been read to its end. -/
structure Reporting (b : Broadcast) (w : Window) : Prop where
  mem : w ∈ b.windows
  settled : ∃ client, b.system.Settled w.client client
  listening : w.listening = true
  editors : w.editorsPending = false
  configuration : w.configurationPending = false

/-- The window is enabled and none of its visible files matches a valid rule. -/
def Clear (d : CaseData) (w : Window) (configuredRules : List Unknown) : Prop :=
  w.configuration.getEnabled = true ∧
    ∀ path ∈ w.visibleTextEditors, matchesFile d path (filterRules configuredRules) = false

end Broadcast

/-! ### Windows as clients -/

namespace Window

variable {d : CaseData} {w w' : Window}

theorem client_evaluateVisibleEditors (h : w.evaluateVisibleEditors d = some w') :
    ∃ status, w'.client = w.client.publish status := by
  unfold evaluateVisibleEditors at h
  split at h
  · cases h
  · obtain rfl := Option.some.inj h
    exact ⟨_, rfl⟩

theorem client_hear (w : Window) (client : PipeClient) : (w.hear client).client = client := by
  unfold hear
  simp only
  generalize client.connectionStates.take _ = states
  induction states with
  | nil => rfl
  | cons state states ih =>
    rw [List.foldr_cons]
    exact ih

theorem client_run {e : Event} (hs : w.step d e = some w') :
    ∃ es, Transition.run PipeClient.step w.client es = some w'.client := by
  have hevaluate : ∀ v : Window, v.client = w.client →
      ∃ es, Transition.run PipeClient.step w.client es = some (v.evaluate d).client := by
    intro v hv
    unfold evaluate
    cases he : v.evaluateVisibleEditors d with
    | none => exact ⟨[], congrArg some hv.symm⟩
    | some v' =>
      obtain ⟨status, hstatus⟩ := client_evaluateVisibleEditors he
      exact ⟨[.publish status], by rw [Option.getD_some, hstatus, hv]; rfl⟩
  cases e with
  | activate =>
    obtain ⟨-, hs⟩ := Option.ite_none_left_eq_some.mp hs
    obtain rfl := Option.some.inj hs
    unfold activate
    simp only
    split
    case h_1 => exact ⟨[], rfl⟩
    case h_2 v he =>
      obtain ⟨status, hstatus⟩ := client_evaluateVisibleEditors he
      exact ⟨[.publish status, .connect], by simp only [hstatus]; rfl⟩
  | «show» editors =>
    obtain rfl := Option.some.inj hs
    exact ⟨[], rfl⟩
  | configure configuration =>
    obtain rfl := Option.some.inj hs
    exact ⟨[], rfl⟩
  | visibleTextEditorsChanged =>
    obtain ⟨-, hs⟩ := Option.ite_none_right_eq_some.mp hs
    obtain rfl := Option.some.inj hs
    exact hevaluate _ rfl
  | configurationChanged affectsConfiguration =>
    obtain ⟨-, hs⟩ := Option.ite_none_right_eq_some.mp hs
    split at hs
    case isTrue =>
      obtain rfl := Option.some.inj hs
      exact hevaluate _ rfl
    case isFalse =>
      obtain rfl := Option.some.inj hs
      exact ⟨[], rfl⟩
  | client event =>
    obtain ⟨-, hs⟩ := Option.ite_none_right_eq_some.mp hs
    obtain ⟨client, hstep, rfl⟩ := Option.map_eq_some_iff.mp hs
    exact ⟨[event], by rw [client_hear, Transition.run, hstep]; rfl⟩
  | dispose =>
    obtain ⟨-, hs⟩ := Option.ite_none_right_eq_some.mp hs
    obtain rfl := Option.some.inj hs
    exact ⟨[.dispose], rfl⟩

end Window

theorem System.Sound.client_run {n : ℕ} {s : System} (h : System.Sound n s) {i : ℕ}
    {c c' : PipeClient} (hi : s.clients[i]? = some c) {es : List PipeClient.ClientEvent}
    (hrun : Transition.run PipeClient.step c es = some c') :
    System.Sound n { s with clients := s.clients.set i c' } := by
  induction es generalizing s c with
  | nil =>
    obtain rfl := Option.some.inj hrun
    rwa [System.set_getElem? hi]
  | cons e es ih =>
    obtain ⟨u, hu, hrun⟩ := Transition.run_cons.mp hrun
    have hself : (s.clients.set i u)[i]? = some u :=
      List.getElem?_set_self (List.getElem?_eq_some_iff.mp hi).1
    have h' := ih (h.client hi hu) hself hrun
    simpa only [List.set_set] using h'

/-- A tick after which everything is safe has removed nobody. -/
theorem PrivacyState.Counted.lookup_tick {n : ℕ} {s : PrivacyState} (hc : Counted n s)
    (hn : n < wordSize) {now : ℤ} (hmode : (s.tick now).mode = .safe) {id : ℕ} {c : Client}
    (hl : s.clients.lookup id = some c) : (s.tick now).clients.lookup id = some c := by
  obtain ⟨-, hlatched, hcount, -, -⟩ := (mode_eq_safe_iff _).mp hmode
  have hexpired : s.expired now c = false := by
    by_contra he
    have hmem : (⟨id, c⟩ : Entry) ∈ s.expiredEntries now :=
      List.mem_filter.mpr ⟨AList.mem_entries_iff.mpr hl, by simpa using he⟩
    cases hsensitive : c.sensitive with
    | none =>
      rw [tick_eq, Bool.or_eq_false_iff] at hlatched
      have := List.any_eq_false.mp hlatched.2 _ hmem
      simp [hsensitive] at this
    | some flag =>
      rw [hc.tick_disconnectedClients hn] at hcount
      have hpos : 0 < (s.expiredEntries now).countP fun e => e.2.sensitive.isSome :=
        List.countP_pos_iff.mpr ⟨_, hmem, by simp [hsensitive]⟩
      omega
  rw [tick_eq]
  exact AList.lookup_filter_eq_some.mpr ⟨hl, by simp [hexpired]⟩

theorem Display.logged_of_step {d d' : Display} {label : Display.Label}
    (hl : ∀ mode, label ≠ .tick mode) (hs : d.step label = some d') :
    d'.lastLoggedMode = d.lastLoggedMode := by
  cases label with
  | tick mode => exact absurd rfl (hl mode)
  | apply i answers =>
    simp only [Display.step] at hs
    split at hs
    case h_2 => cases hs
    case h_1 request hi =>
      obtain rfl := Option.some.inj hs
      rfl
  | _ =>
    obtain rfl := Option.some.inj hs
    rfl

/-! ### Runs -/

namespace Broadcast

variable {d : CaseData} {b b' : Broadcast} {n m : ℕ}

structure Linked (d : CaseData) (n : ℕ) (b : Broadcast) : Prop where
  system : System.Sound n b.system
  windows : ∀ w ∈ b.windows, Window.Sound d w

theorem linked_start (timeout : ℤ) (clientIds : List { clientId : Bytes // Uuid clientId })
    (watermarkAvailable : Bool) : Linked d 0 (start timeout clientIds watermarkAvailable) where
  system := by
    have h := System.sound_start timeout clientIds
    simpa [System.start, Broadcast.system, start, Window.create, Function.comp_def] using h
  windows w hw := by
    obtain ⟨clientId, -, rfl⟩ := List.mem_map.mp hw
    exact Window.sound_create clientId.1 clientId.2

theorem clients_of_ofPlugin {s t : System} {label : System.Label} (hl : ofPlugin label = true)
    (hs : s.step label = some t) : t.clients = s.clients := by
  cases System.moves_of_step hs with
  | client hc hstep => cases hl
  | _ => rfl

inductive Moves (d : CaseData) (b : Broadcast) : Label → Broadcast → Prop
  | window {i : ℕ} {event : Window.Event} {w w' : Window} (hi : b.windows[i]? = some w)
      (hw : w.step d event = some w') :
      Moves d b (.window i event) { b with windows := b.windows.set i w' }
  | system {label : System.Label} {t : System} (hl : ofPlugin label = true)
      (ht : b.system.step label = some t) :
      Moves d b (.system label) { b with server := t.server, channels := t.channels }
  | tick (hp : b.tickPoint = .idle) (now : ℤ) :
      Moves d b (.tick now) { b with server := b.server.perform (.tick now), tickPoint := .ticked }
  | mode (hp : b.tickPoint = .ticked) :
      Moves d b .mode { b with tickPoint := .read b.server.privacyState.mode }
  | forward {currentMode : Mode} (hp : b.tickPoint = .read currentMode) :
      Moves d b .forward
        { b with display := b.display.tickPrivacyState currentMode, tickPoint := .idle }
  | display {label : Display.Label} {display : Display}
      (hlogged : display.lastLoggedMode = b.display.lastLoggedMode)
      (hs : b.display.step label = some display) :
      Moves d b (.display label) { b with display }

theorem moves_of_step {label : Label} (hs : b.step d label = some b') : Moves d b label b' := by
  cases label with
  | window i event =>
    simp only [Broadcast.step] at hs
    split at hs
    case h_2 => cases hs
    case h_1 w hi =>
      obtain ⟨w', hw, rfl⟩ := Option.map_eq_some_iff.mp hs
      exact .window hi hw
  | system label =>
    obtain ⟨hl, hs⟩ := Option.ite_none_right_eq_some.mp hs
    obtain ⟨t, ht, rfl⟩ := Option.map_eq_some_iff.mp hs
    exact .system hl ht
  | tick now =>
    obtain ⟨hp, hs⟩ := Option.ite_none_right_eq_some.mp hs
    obtain rfl := Option.some.inj hs
    exact .tick hp now
  | mode =>
    obtain ⟨hp, hs⟩ := Option.ite_none_right_eq_some.mp hs
    obtain rfl := Option.some.inj hs
    exact .mode hp
  | forward =>
    simp only [Broadcast.step] at hs
    split at hs
    case h_2 => cases hs
    case h_1 currentMode hp =>
      obtain rfl := Option.some.inj hs
      exact .forward hp
  | display label =>
    have hmap : (b.display.step label).map (fun display => { b with display }) = some b' ∧
        ∀ mode, label ≠ .tick mode := by
      cases label with
      | tick mode => cases hs
      | _ => exact ⟨hs, by simp⟩
    obtain ⟨display, hstep, rfl⟩ := Option.map_eq_some_iff.mp hmap.1
    exact .display (Display.logged_of_step hmap.2 hstep) hstep

theorem system_of_ofPlugin {label : System.Label} {t : System} (hl : ofPlugin label = true)
    (ht : b.system.step label = some t) :
    Broadcast.system { b with server := t.server, channels := t.channels } = t := by
  have hc := clients_of_ofPlugin hl ht
  cases t
  simp only [Broadcast.system] at hc ⊢
  rw [hc]

theorem Linked.step (h : Linked d n b) {label : Label} (hn : n + label.opens < wordSize)
    (hs : b.step d label = some b') : Linked d (n + label.opens) b' := by
  cases moves_of_step hs with
  | @window i event w w' hi hw =>
    constructor
    case system =>
      obtain ⟨es, hes⟩ := Window.client_run hw
      have hclient : b.system.clients[i]? = some w.client := by
        simp [Broadcast.system, hi]
      have h' := h.system.client_run hclient hes
      simpa [Broadcast.system, List.map_set, Label.opens] using h'
    case windows =>
      intro v hv
      rcases List.mem_or_eq_of_mem_set hv with hv | rfl
      · exact h.windows v hv
      · exact (h.windows w (List.mem_of_getElem? hi)).step hw
  | system hl ht =>
    refine ⟨?_, h.windows⟩
    rw [system_of_ofPlugin hl ht]
    exact h.system.step hn ht
  | tick hp now => exact ⟨h.system.perform hn rfl (by simp), h.windows⟩
  | mode hp => exact ⟨h.system, h.windows⟩
  | forward hp => exact ⟨h.system, h.windows⟩
  | display hlogged hstep => exact ⟨h.system, h.windows⟩

theorem display_step {label : Label} (hs : b.step d label = some b') :
    b'.display = b.display ∨
      ∃ l : Display.Label, l.requests = label.requests ∧ b.display.step l = some b'.display := by
  cases moves_of_step hs with
  | window hi hw => exact .inl rfl
  | system hl ht => exact .inl rfl
  | tick hp now => exact .inl rfl
  | mode hp => exact .inl rfl
  | forward hp => exact .inr ⟨.tick _, rfl, rfl⟩
  | display hlogged hstep => exact .inr ⟨_, rfl, hstep⟩

theorem soundBelow_step (h : Display.SoundBelow m b.display) {label : Label}
    (hm : m + label.requests < wordSize) (hs : b.step d label = some b') :
    Display.SoundBelow (m + label.requests) b'.display := by
  rcases display_step hs with hsame | ⟨l, hl, hstep⟩
  · obtain ⟨m', hm', hsound⟩ := h
    exact ⟨m', by omega, hsame ▸ hsound⟩
  · rw [← hl] at hm ⊢
    exact h.step hm hstep

structure Sound (d : CaseData) (n m : ℕ) (b : Broadcast) : Prop where
  linked : Linked d n b
  display : Display.SoundBelow m b.display

theorem linked_of_run {timeout : ℤ} {clientIds : List { clientId : Bytes // Uuid clientId }}
    {watermarkAvailable : Bool} {labels : List Label}
    (hn : (labels.map Label.opens).sum < wordSize)
    (hrun : Transition.run (step d) (start timeout clientIds watermarkAvailable) labels = some b) :
    Linked d (labels.map Label.opens).sum b := by
  have h : Linked d (0 + (labels.map Label.opens).sum) b :=
    Transition.run_weighted (P := fun _ => True) (fun n b l b' h _ hn hs => h.step hn hs)
      (linked_start timeout clientIds watermarkAvailable) (by simp)
      (show 0 + (labels.map Label.opens).sum < wordSize by omega) hrun
  rwa [Nat.zero_add] at h

theorem run_sound {timeout : ℤ} {clientIds : List { clientId : Bytes // Uuid clientId }}
    {watermarkAvailable : Bool} {labels : List Label}
    (hn : (labels.map Label.opens).sum < wordSize)
    (hm : (labels.map Label.requests).sum < wordSize)
    (hrun : Transition.run (step d) (start timeout clientIds watermarkAvailable) labels = some b) :
    Sound d (labels.map Label.opens).sum (labels.map Label.requests).sum b := by
  refine ⟨linked_of_run hn hrun, ?_⟩
  have h : Display.SoundBelow (0 + (labels.map Label.requests).sum) b.display :=
    Transition.run_weighted (I := fun m b => Display.SoundBelow m b.display) (P := fun _ => True)
      (fun m b l b' h _ hm hs => soundBelow_step h hm hs)
      ⟨0, le_rfl, Display.sound_start watermarkAvailable⟩ (by simp)
      (show 0 + (labels.map Label.requests).sum < wordSize by omega) hrun
  rwa [Nat.zero_add] at h

theorem Sound.covered (h : Sound d n m b) (hp : isProtectedMode b.display.forwarded = true) :
    b.display.controller.Covers b.display.forwarded := by
  obtain ⟨m', -, hdisplay⟩ := h.display
  exact hdisplay.covered hp

theorem not_open_of_covers {mode : Mode} (h : b.display.controller.Covers mode) : ¬ b.Open := by
  rintro ⟨hblack, hscene⟩
  rcases h with hoverlay | ⟨hactive, -⟩
  · exact hblack (Controller.black_mem_renderPrivacyOverlay.mpr hoverlay)
  · simp [hscene] at hactive

/-- While the mode is safe, a window that reports is clear. -/
theorem Linked.clear (h : Linked d n b) (hmode : b.server.privacyState.mode = .safe) {w : Window}
    (hw : b.Reporting w) {configuredRules : List Unknown}
    (hrules : w.configuration.getRules = .array configuredRules) : Clear d w configuredRules := by
  obtain ⟨client, hsettled⟩ := hw.settled
  have hstatus : w.client.latestStatus = .safe :=
    h.system.agrees.safe hmode w.client client hsettled
  have htruthful := (h.windows w hw.mem).truthful hw.listening
  exact (htruthful.safe hw.editors hw.configuration configuredRules hrules).mp hstatus

theorem isProtectedMode_of_ne_safe {s : PrivacyState} (henabled : s.enabled = true)
    (hmode : s.mode ≠ .safe) : isProtectedMode s.mode = true := by
  have hdisabled : s.mode ≠ .disabled := by
    have haggregate : ∀ (anySensitive : Bool) (l : List Entry),
        PrivacyState.aggregate anySensitive l ≠ .disabled := by
      intro anySensitive l
      induction l generalizing anySensitive with
      | nil => cases anySensitive <;> simp [PrivacyState.aggregate]
      | cons e l ih =>
        unfold PrivacyState.aggregate
        split
        · exact ih _
        · simp
    unfold PrivacyState.mode
    rw [henabled]
    simp only [Bool.not_true, Bool.false_eq_true, if_false]
    split
    · simp
    · split
      · simp
      · exact haggregate _ _
  cases h : s.mode <;> simp_all [isProtectedMode]

/-- What the output shows while the server, the windows and the controller run. -/
structure Guards (d : CaseData) (b : Broadcast) : Prop where
  /-- A protected mode that has been forwarded is covered. -/
  covered : isProtectedMode b.display.forwarded = true →
    b.display.controller.Covers b.display.forwarded
  /-- An open output that knows the current mode shows no window with a matching file. -/
  clear : b.Open → b.display.lastLoggedMode = some b.server.privacyState.mode →
    b.server.privacyState.enabled = true → ∀ w, b.Reporting w → ∀ configuredRules,
      w.configuration.getRules = .array configuredRules → Clear d w configuredRules

theorem Sound.guards (h : Sound d n m b) : b.Guards d where
  covered := h.covered
  clear := by
    intro hopen hlogged henabled w hw configuredRules hrules
    have hforwarded : b.display.forwarded = b.server.privacyState.mode := by
      rw [Display.forwarded, hlogged, Option.getD_some]
    refine h.linked.clear ?_ hw hrules
    by_contra hmode
    have hcovers := h.covered (hforwarded ▸ isProtectedMode_of_ne_safe henabled hmode)
    exact not_open_of_covers hcovers hopen

/-- The output is guarded in every run with fewer openings and requests than identifiers and
generations. -/
theorem guards_of_run {timeout : ℤ} {clientIds : List { clientId : Bytes // Uuid clientId }}
    {watermarkAvailable : Bool} {labels : List Label}
    (hn : (labels.map Label.opens).sum < wordSize)
    (hm : (labels.map Label.requests).sum < wordSize)
    (hrun : Transition.run (step d) (start timeout clientIds watermarkAvailable) labels = some b) :
    b.Guards d :=
  (run_sound hn hm hrun).guards

def streaming : List Label :=
  [.window 0 (.configure { rules := some (.array [dotenv.object]) }),
    .window 0 (.show [utf16 "C:/project/main.ts"]), .window 0 .activate, .system (.accept 0 0 0),
    .window 0 (.client (.connected 0)), .system (.server (.proceed 0)), .system (.read 0 4096),
    .system (.server (.proceed 0)), .system (.server (.call 0 10)),
    .system (.server (.proceed 0)), .system (.server (.call 0 20)),
    .system (.server (.proceed 0)), .tick 30, .mode, .forward, .display (.apply 0 {})]

def oneWindow : List { clientId : Bytes // Uuid clientId } :=
  [⟨Built.zeroUuid, Built.uuid_zeroUuid⟩]

def streamed : Broadcast :=
  (Transition.run (step greek) (start 2000 oneWindow true) streaming).get (by decide +kernel)

theorem guards_streamed : streamed.Open ∧
    streamed.display.lastLoggedMode = some streamed.server.privacyState.mode ∧
    streamed.Guards greek :=
  ⟨⟨by decide +kernel, by decide +kernel⟩, by decide +kernel,
    guards_of_run (by decide) (by decide) (Option.some_get _).symm⟩

/-! ### One tick callback -/

structure Forwarded (now : ℤ) (b b' : Broadcast) : Prop where
  privacyState : b'.server.privacyState = b.server.privacyState.tick now
  workers : b'.server.workers = b.server.workers
  windows : b'.windows = b.windows
  channels : b'.channels = b.channels
  logged : b'.display.lastLoggedMode = some b'.server.privacyState.mode

theorem forwarded_of_callback {now : ℤ}
    (hrun : Transition.run (step d) b (callback now) = some b') : Forwarded now b b' := by
  obtain ⟨b₁, h₁, hrun⟩ := Transition.run_cons.mp hrun
  obtain ⟨b₂, h₂, hrun⟩ := Transition.run_cons.mp hrun
  obtain ⟨b₃, h₃, hrun⟩ := Transition.run_cons.mp hrun
  obtain rfl := Option.some.inj hrun
  obtain ⟨-, h₁⟩ := Option.ite_none_right_eq_some.mp h₁
  obtain ⟨-, h₂⟩ := Option.ite_none_right_eq_some.mp h₂
  obtain rfl := Option.some.inj h₁
  obtain rfl := Option.some.inj h₂
  obtain rfl := Option.some.inj h₃
  refine ⟨rfl, rfl, rfl, rfl, ?_⟩
  unfold Display.tickPrivacyState
  split
  case isTrue hlogged => exact hlogged
  case isFalse => rfl

theorem Forwarded.reporting {now : ℤ} (h : Forwarded now b b') (hb : Linked d n b)
    (hn : n < wordSize) (hmode : b'.server.privacyState.mode = .safe) {w : Window}
    (hw : b.Reporting w) : b'.Reporting w := by
  obtain ⟨client, hsettled⟩ := hw.settled
  obtain ⟨slot, channel, id, worker, socket, hchannel, hworker, hc, hsocket, hl, ho, hunread,
    hpending⟩ := hsettled.exists_channel
  rw [h.privacyState] at hmode
  refine ⟨h.windows ▸ hw.mem, ⟨client, ⟨slot, channel, id, worker, socket, ?_, ?_, ?_, hsocket, ?_,
    ho, ?_, hpending⟩⟩, hw.listening, hw.editors, hw.configuration⟩
  · change b'.channels[slot]? = _
    rwa [h.channels]
  · change b'.server.workers[slot]? = _
    rwa [h.workers]
  · simpa only [Broadcast.system, h.windows] using hc
  · change b'.server.privacyState.clients.lookup id = _
    rw [h.privacyState]
    exact PrivacyState.Counted.lookup_tick hb.system.counted hn hmode hl
  · simpa only [System.unread, Broadcast.system, h.windows] using hunread

theorem Forwarded.covers {now : ℤ} (h : Forwarded now b b') (hb : Linked d n b)
    (hn : n < wordSize) {n' m' : ℕ} (hsound : Sound d n' m' b')
    (henabled : b.server.privacyState.enabled = true) {w : Window} (hw : b.Reporting w)
    {configuredRules : List Unknown}
    (hrules : w.configuration.getRules = .array configuredRules)
    (hclear : ¬ Clear d w configuredRules) :
    b'.display.controller.Covers b'.server.privacyState.mode := by
  have hmode : b'.server.privacyState.mode ≠ .safe := by
    intro hmode
    exact hclear (hsound.linked.clear hmode (h.reporting hb hn hmode hw) hrules)
  have henabled' : b'.server.privacyState.enabled = true := by
    rw [h.privacyState, PrivacyState.tick_eq]
    exact henabled
  have hforwarded : b'.display.forwarded = b'.server.privacyState.mode := by
    rw [Display.forwarded, h.logged, Option.getD_some]
  have hcovers := hsound.covered (hforwarded ▸ isProtectedMode_of_ne_safe henabled' hmode)
  rwa [hforwarded] at hcovers

/-- Whatever the runs before it did, a tick callback that is called while a window reports a
matching file, or that it is disabled, returns with the output covered. -/
theorem covers_of_callback {timeout : ℤ} {clientIds : List { clientId : Bytes // Uuid clientId }}
    {watermarkAvailable : Bool} {labels : List Label} {now : ℤ}
    (hn : (labels.map Label.opens).sum < wordSize)
    (hm : (labels.map Label.requests).sum + 1 < wordSize)
    (hrun : Transition.run (step d) (start timeout clientIds watermarkAvailable) labels = some b)
    (hcallback : Transition.run (step d) b (callback now) = some b')
    (henabled : b.server.privacyState.enabled = true) {w : Window} (hw : b.Reporting w)
    {configuredRules : List Unknown}
    (hrules : w.configuration.getRules = .array configuredRules)
    (hclear : ¬ Clear d w configuredRules) :
    b'.display.controller.Covers b'.server.privacyState.mode := by
  have hsound : Sound d ((labels ++ callback now).map Label.opens).sum
      ((labels ++ callback now).map Label.requests).sum b' := by
    refine run_sound ?_ ?_ (Transition.run_append.mpr ⟨b, hrun, hcallback⟩)
    · simpa [callback, Label.opens] using hn
    · simpa [callback, Label.requests] using hm
  exact (forwarded_of_callback hcallback).covers (linked_of_run hn hrun) hn hsound henabled hw
    hrules hclear

def secret : List Label :=
  [.window 0 (.show [utf16 "C:/project/.env"]), .window 0 .visibleTextEditorsChanged,
    .system (.server (.proceed 0)), .system (.read 0 4096), .system (.server (.proceed 0)),
    .system (.server (.call 0 40)), .system (.server (.proceed 0))]

def exposed : Broadcast :=
  (Transition.run (step greek) (start 2000 oneWindow true) (streaming ++ secret)).get
    (by decide +kernel)

theorem exists_reporting_exposed : ∃ w configuredRules, exposed.Reporting w ∧
    w.configuration.getRules = .array configuredRules ∧ ¬ Clear greek w configuredRules := by
  -- The run is evaluated once, for all that is read off its last state.
  obtain ⟨w, hmem, ⟨channel, -, worker, -, socket, -, hchannel, hworker, hc, hsocket, hl, ho,
      hunread, hpending⟩, hlistening, heditors, hconfiguration, hmatches⟩ :
      ∃ w ∈ exposed.windows, (∃ channel ∈ exposed.channels, ∃ worker ∈ exposed.server.workers,
        ∃ socket ∈ w.client.sockets,
          exposed.system.channels[0]? = some channel ∧
          exposed.system.server.workers[0]? = some (1, worker.2) ∧
          exposed.system.clients[channel.client]? = some w.client ∧
          w.client.sockets[channel.socket]? = some socket ∧
          (exposed.system.server.privacyState.clients.lookup 1).isSome = true ∧
          socket.readyState = .opened ∧ exposed.system.unread channel = [] ∧
          worker.2.pending = []) ∧
        w.listening = true ∧ w.editorsPending = false ∧ w.configurationPending = false ∧
        (match w.configuration.getRules with
          | .array rules =>
            w.visibleTextEditors.any fun path => matchesFile greek path (filterRules rules)
          | .other => false) = true := by
    decide +kernel
  obtain ⟨client, hclient⟩ := Option.isSome_iff_exists.mp hl
  cases hrules : w.configuration.getRules with
  | other => simp [hrules] at hmatches
  | array configuredRules =>
    rw [hrules] at hmatches
    obtain ⟨path, hpath, hmatch⟩ := List.any_eq_true.mp hmatches
    refine ⟨w, configuredRules, ⟨hmem, ⟨client, 0, channel, 1, worker.2, socket, hchannel, hworker,
      hc, hsocket, hclient, ho, hunread, hpending⟩, hlistening, heditors, hconfiguration⟩, hrules,
      fun hclear => ?_⟩
    simp [hclear.2 path hpath] at hmatch

theorem covers_exposed : ∃ b, Transition.run (step greek) exposed (callback 50) = some b ∧
    b.display.controller.Covers b.server.privacyState.mode := by
  obtain ⟨w, configuredRules, hw, hrules, hclear⟩ := exists_reporting_exposed
  exact ⟨(Transition.run (step greek) exposed (callback 50)).get (by decide +kernel),
    (Option.some_get _).symm,
    covers_of_callback (by decide) (by decide) (Option.some_get _).symm (Option.some_get _).symm
      (by decide +kernel) hw hrules hclear⟩

end Broadcast

end PrivacyGuard
