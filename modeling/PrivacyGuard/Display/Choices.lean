import PrivacyGuard.Display.Contract
import PrivacyGuard.Display.Dialog
import PrivacyGuard.State.Records

/-! # The choices of the user

What the dialog accepts is what the display does, and what the scene collection keeps.
Protection goes off by an explicit answer only, and a dialog that is accepted unchanged
changes nothing but an empty scene.
-/

namespace PrivacyGuard

def DisplayMode.action : DisplayMode → DisplayAction
  | .builtInImage => .builtInImage
  | .customImage => .customImage
  | .customScene => .customScene

/-- Every choice is carried out, and none is replaced by the bundled image. -/
def Honoured (settings : DisplaySettings) : Prop :=
  ∀ mode, isProtectedMode mode = true →
    resolveDisplayAction settings mode = (settings.event mode).mode.action

/-- The settings up to the zero bytes of their texts. -/
def EventDisplaySettings.cut (event : EventDisplaySettings) : EventDisplaySettings :=
  { event with imagePath := cString event.imagePath, scene := cString event.scene }

def DisplaySettings.cut (settings : DisplaySettings) : DisplaySettings :=
  { settings with sensitive := settings.sensitive.cut, connection := settings.connection.cut }

/-- The settings with the given scene where an event has none. -/
def EventDisplaySettings.orScene (event : EventDisplaySettings) (scene : Bytes) :
    EventDisplaySettings :=
  if event.scene = [] then { event with scene } else event

def DisplaySettings.orScene (settings : DisplaySettings) (scene : Bytes) : DisplaySettings :=
  { settings with
    sensitive := settings.sensitive.orScene scene
    connection := settings.connection.orScene scene }

/-! ### The checks of Ok -/

theorem honoured_of_event {settings : DisplaySettings}
    (hscene : ∀ mode, (settings.event mode).mode = .customScene →
      settings.customSceneRiskAccepted = true ∧ (settings.event mode).scene ≠ [])
    (himage : ∀ mode, (settings.event mode).mode = .customImage →
      (settings.event mode).imagePath ≠ []) : Honoured settings := by
  intro mode hprotected
  have hopen : ¬ (mode = .safe ∨ mode = .disabled) := by
    rintro (rfl | rfl) <;> cases hprotected
  rw [resolveDisplayAction, if_neg hopen]
  cases hmode : (settings.event mode).mode with
  | builtInImage => simp [hmode, DisplayMode.action]
  | customImage => simp [hmode, DisplayMode.action, himage mode hmode]
  | customScene => simp [hmode, DisplayMode.action, hscene mode hmode]

namespace Dialog

variable {d : Dialog} {answers : OkAnswers} {enabled : Bool}

def group (mode : Mode) : Group := if mode = .sensitive then .sensitive else .connection

theorem updated_event (mode : Mode) : d.updated.event mode = (d.form (group mode)).event := by
  unfold DisplaySettings.event group
  split <;> rfl

structure Checked (d : Dialog) (answers : OkAnswers) (enabled : Bool) : Prop where
  risk : ∀ group, d.selection group = .customScene → d.riskAccepted = true
  image : ∀ group, d.selection group = .customImage → (d.form group).image ∈ answers.images
  scene : ∀ group, d.selection group = .customScene →
    cString ((d.form group).scene.currentData.getD []) ∈ answers.scenes
  confirmed : enabled = true → d.protectionEnabled = false → answers.confirmed = true

theorem checked_of_ok (h : d.ok answers enabled = .accepted) : Checked d answers enabled := by
  unfold ok at h
  split at h
  case isTrue => cases h
  case isFalse hrisk =>
  split at h
  case isTrue => cases h
  case isFalse himage =>
  split at h
  case isTrue => cases h
  case isFalse hscene =>
  split at h
  case isTrue => cases h
  case isFalse hconfirmed =>
  simp only [anySelected, lacksImage, lacksScene, List.contains_eq_mem, Bool.and_eq_true,
    Bool.or_eq_true, decide_eq_true_eq, Bool.not_eq_true', decide_eq_false_iff_not]
    at hrisk himage hscene hconfirmed
  constructor
  case risk =>
    intro group hgroup
    cases group <;> grind
  case image =>
    intro group hgroup
    cases group <;> grind
  case scene =>
    intro group hgroup
    cases group <;> grind
  case confirmed =>
    intro henabled hprotection
    grind

/-- No image file and no scene has an empty name. -/
def OkNamed (answers : OkAnswers) : Prop := [] ∉ answers.images ∧ [] ∉ answers.scenes

theorem Checked.honoured (h : Checked d answers enabled) (hnamed : OkNamed answers) :
    Honoured d.updated := by
  apply honoured_of_event
  · intro mode hmode
    rw [updated_event] at hmode ⊢
    refine ⟨h.risk _ hmode, fun hempty => hnamed.2 ?_⟩
    have hscene := h.scene _ hmode
    change (d.form (group mode)).scene.currentData.getD [] = [] at hempty
    rwa [hempty] at hscene
  · intro mode hmode hempty
    rw [updated_event] at hmode hempty
    exact hnamed.1 (hempty ▸ h.image _ hmode)

end Dialog

/-! ### A dialog without an edit -/

section Unchanged

variable {widgets : Widgets} {names : List Bytes} {selected : Bytes}

theorem selectedDisplayMode_populate (mode : DisplayMode) :
    selectedDisplayMode (populateDisplayModes mode) = mode := by
  cases mode <;> decide

theorem items_foldl (combo : ComboBox Bytes) :
    names.foldl (fun combo name => combo.addItem (widgets.item name) (widgets.item name)) combo =
      { combo with
        items := combo.items ++ names.map fun name => (widgets.item name, widgets.item name) } := by
  induction names generalizing combo with
  | nil => simp
  | cons name names ih =>
    rw [List.foldl_cons, ih]
    simp [ComboBox.addItem]

theorem currentData_findData {combo : ComboBox Bytes} {data : Bytes}
    (hmem : ∃ item ∈ combo.items, item.2 = data) (index : ℕ) :
    ComboBox.currentData { combo with currentIndex := (combo.findData data).getD index } =
      some data := by
  cases hfind : combo.findData data with
  | none =>
    obtain ⟨item, hitem, hdata⟩ := hmem
    rw [ComboBox.findData, List.findIdx?_eq_none_iff] at hfind
    simpa [hdata] using hfind item hitem
  | some i =>
    rw [ComboBox.findData, List.findIdx?_eq_some_iff_getElem] at hfind
    obtain ⟨hlt, hdata, -⟩ := hfind
    simp only [ComboBox.currentData, Option.getD_some, List.getElem?_eq_getElem hlt,
      Option.map_some, Option.some.injEq]
    simpa using hdata

theorem currentData_populateSceneCombo_of_ne (hselected : selected ≠ []) :
    (populateSceneCombo widgets names selected).currentData = some (widgets.item selected) := by
  refine currentData_findData ?_ _
  rw [items_foldl]
  by_cases hfound : selected ∈ names
  · refine ⟨(widgets.item selected, widgets.item selected), ?_, rfl⟩
    simp only [List.contains_eq_mem, hfound, decide_true, Bool.not_true, Bool.and_false,
      Bool.false_eq_true, if_false]
    exact List.mem_append_right _ (List.mem_map_of_mem hfound)
  · refine ⟨(ascii "Missing: " ++ widgets.item selected, widgets.item selected), ?_, rfl⟩
    simp [hfound, hselected, ComboBox.addItem]

theorem currentData_populateSceneCombo_nil (hnames : ∀ name ∈ names, widgets.item name ≠ [])
    (hempty : widgets.item [] = []) :
    (populateSceneCombo widgets names []).currentData = names.head?.map widgets.item := by
  have hfind : ComboBox.findData
      { items := names.map fun name => (widgets.item name, widgets.item name) } ([] : Bytes) =
        none := by
    rw [ComboBox.findData, List.findIdx?_eq_none_iff]
    simpa using hnames
  rw [populateSceneCombo, items_foldl]
  simp only [List.isEmpty_nil, Bool.not_true, Bool.false_and, Bool.false_eq_true, if_false, hempty,
    List.nil_append, hfind]
  cases names <;> rfl

structure Widgets.Keep (widgets : Widgets) (event : EventDisplaySettings) : Prop where
  image : widgets.lineEdit event.imagePath = event.imagePath
  scene : widgets.item event.scene = event.scene

theorem event_build {event : EventDisplaySettings}
    (hnames : ∀ name ∈ names, widgets.item name ≠ []) (hkeep : widgets.Keep event) :
    (EventForm.build widgets names event).event =
      event.orScene ((names.head?.map widgets.item).getD []) := by
  have hscene := hkeep.scene
  have himage : widgets.lineEdit event.imagePath = event.imagePath := hkeep.image
  obtain ⟨mode, imagePath, scene⟩ := event
  simp only at hscene himage
  simp only [EventForm.event, EventForm.build, selectedDisplayMode_populate, himage,
    EventDisplaySettings.orScene]
  by_cases hempty : scene = []
  · subst hempty
    rw [currentData_populateSceneCombo_nil hnames hscene, if_pos rfl]
  · rw [currentData_populateSceneCombo_of_ne hempty, hscene, if_neg hempty, Option.getD_some]

theorem updated_build {settings : DisplaySettings} (enabled : Bool)
    (hnames : ∀ name ∈ names, widgets.item name ≠ []) (hsensitive : widgets.Keep settings.sensitive)
    (hconnection : widgets.Keep settings.connection) :
    (Dialog.build widgets settings names enabled).updated =
      settings.orScene ((names.head?.map widgets.item).getD []) := by
  simp only [Dialog.updated, Dialog.build, DisplaySettings.orScene,
    event_build hnames hsensitive, event_build hnames hconnection]

theorem EventDisplaySettings.orScene_eq_self_iff {event : EventDisplaySettings} {scene : Bytes} :
    event.orScene scene = event ↔ scene = [] ∨ event.scene ≠ [] := by
  obtain ⟨mode, imagePath, own⟩ := event
  by_cases hempty : own = [] <;> simp [orScene, hempty]

theorem DisplaySettings.orScene_eq_self_iff {settings : DisplaySettings} {scene : Bytes} :
    settings.orScene scene = settings ↔
      scene = [] ∨ settings.sensitive.scene ≠ [] ∧ settings.connection.scene ≠ [] := by
  have hboth : settings.orScene scene = settings ↔
      settings.sensitive.orScene scene = settings.sensitive ∧
        settings.connection.orScene scene = settings.connection := by
    obtain ⟨sensitive, connection, risk⟩ := settings
    simp [orScene]
  rw [hboth, EventDisplaySettings.orScene_eq_self_iff, EventDisplaySettings.orScene_eq_self_iff,
    or_and_left]

end Unchanged

/-! ### Texts in the scene collection -/

theorem loadSettings_saveSettings_cut (settings : DisplaySettings) :
    loadSettings (saveSettings settings) = settings.cut := by
  have hw := written_saveSettings settings
  have htext : ∀ (key : String) (text : Bytes),
      (saveSettings settings).lookup key = some { text := cString text } →
        (saveSettings settings).getString key = cString text := by
    intro key text hitem
    simp [ObsData.getString, ObsData.item, hitem]
  have hrisk : (saveSettings settings).getBool riskAcceptedKey =
      settings.customSceneRiskAccepted := by
    simp [ObsData.getBool, ObsData.item, hw.riskAccepted]
  rw [loadSettings, loadDisplayMode_eq hw.sensitiveMode, loadDisplayMode_eq hw.connectionMode,
    htext _ _ hw.sensitiveImage, htext _ _ hw.sensitiveScene, htext _ _ hw.connectionImage,
    htext _ _ hw.connectionScene, hrisk]
  rfl

theorem cut_eq_self {settings : DisplaySettings} (h : settings.ZeroFree) :
    settings.cut = settings := by
  obtain ⟨⟨_, _, _⟩, ⟨_, _, _⟩, _⟩ := settings
  simp [DisplaySettings.cut, EventDisplaySettings.cut, cString_eq_self h.sensitive.imagePath,
    cString_eq_self h.sensitive.scene, cString_eq_self h.connection.imagePath,
    cString_eq_self h.connection.scene]

namespace Controller

variable {c : Controller} {request : ApplyRequest} {answers : Answers}

theorem settings_applyOnUiThread : (c.applyOnUiThread request answers).settings = c.settings := by
  cases halive : c.alive with
  | false => simp [applyOnUiThread, halive]
  | true =>
    by_cases hcurrent : request.generation = c.generation
    · exact (applyOnUiThread_of_current halive hcurrent).same.settings
    · rw [applyOnUiThread_of_stale hcurrent]

theorem settings_privacyModeChanged (mode : Mode) :
    (c.privacyModeChanged mode).settings = c.settings := by
  unfold privacyModeChanged
  split
  · rfl
  · split <;> rfl

theorem settings_sceneListChanged : (c.sceneListChanged answers).settings = c.settings := by
  unfold sceneListChanged
  split
  · obtain ⟨switches, hr⟩ := restorePreviousScene_eq
      (selectDefault { c with watermarkRequired := false, overlayRequired := true } c.latestMode
        answers.bundled) answers.previous
    simp only [hr]
    rfl
  · rfl

end Controller

/-! ### Runs -/

namespace Frontend

variable {widgets : Widgets} {s s' : Frontend} {l : Label} {loaded : SceneCollection → Prop}

/-- The settings in force, and those in the scene collection. -/
structure Settled (loaded : SceneCollection → Prop) (s : Frontend) : Prop where
  /-- A restart of OBS finds the settings in force. -/
  stored : storedSettings s.collection = s.controller.settings.cut
  /-- They come from the dialog and are carried out, or from a scene collection. -/
  chosen : Honoured s.controller.settings ∨
    ∃ saveData, loaded saveData ∧ s.controller.settings = storedSettings saveData

theorem Settled.congr (h : Settled loaded s)
    (hsettings : s'.controller.settings = s.controller.settings)
    (hcollection : s'.collection = s.collection) : Settled loaded s' := by
  constructor
  · rw [hcollection, hsettings]
    exact h.stored
  · rw [hsettings]
    exact h.chosen

theorem storedSettings_saved (c : Controller) (saveData : SceneCollection) :
    storedSettings (c.saveLoad saveData true).2 = c.settings.cut := by
  have hsave : (c.saveLoad saveData true).2 =
      saveData.insert settingsKey (saveSettings c.settings) := rfl
  rw [hsave, storedSettings, AList.lookup_insert]
  exact loadSettings_saveSettings_cut c.settings

theorem Settled.save (h : Settled loaded s) : Settled loaded s.save :=
  ⟨storedSettings_saved s.controller s.collection, h.chosen⟩

theorem settled_accept {d : Dialog} (hd : Honoured d.updated) : Settled loaded (s.accept d) := by
  refine ⟨storedSettings_saved _ _, .inl ?_⟩
  have hsettings : (s.accept d).controller.settings = d.updated :=
    Controller.settings_updateSettings _ _
  rw [hsettings]
  exact hd

theorem settled_load (saveData : SceneCollection) (hloaded : loaded saveData) :
    Settled loaded
      { s with
        controller := (s.controller.saveLoad saveData false).1, collection := saveData } := by
  have hsettings := Controller.settings_load s.controller saveData
  constructor
  · simp only [hsettings]
    exact (cut_eq_self (zeroFree_storedSettings saveData)).symm
  · exact .inr ⟨saveData, hloaded, hsettings⟩

/-- The inputs of a run: no scene and no image file has an empty name. -/
def Label.Named (loaded : SceneCollection → Prop) : Label → Prop
  | .ok answers => Dialog.OkNamed answers
  | .load saveData => loaded saveData
  | _ => True

theorem Settled.step (h : Settled loaded s) (hl : l.Named loaded)
    (hs : s.step widgets l = some s') :
    Settled loaded s' := by
  cases l with
  | showSettingsDialog sceneNames =>
    obtain ⟨-, hs⟩ := Option.ite_none_right_eq_some.mp hs
    exact Option.some.inj hs ▸ h.congr rfl rfl
  | edit edit =>
    obtain ⟨d, -, hs⟩ := Option.bind_eq_some_iff.mp hs
    obtain ⟨d', -, rfl⟩ := Option.map_eq_some_iff.mp hs
    exact h.congr rfl rfl
  | ok answers =>
    obtain ⟨d, -, hs⟩ := Option.map_eq_some_iff.mp hs
    split at hs
    case isTrue hok => exact hs ▸ settled_accept ((Dialog.checked_of_ok hok).honoured hl)
    case isFalse => exact hs ▸ h
  | cancel =>
    obtain ⟨d, -, rfl⟩ := Option.map_eq_some_iff.mp hs
    exact h.congr rfl rfl
  | save => exact Option.some.inj hs ▸ h.save
  | load saveData => exact Option.some.inj hs ▸ settled_load saveData hl
  | call op =>
    cases op with
    | setEnabled enabled => cases hs
    | _ => exact Option.some.inj hs ▸ h.congr rfl rfl
  | privacyModeChanged mode =>
    exact Option.some.inj hs ▸ h.congr (Controller.settings_privacyModeChanged mode) rfl
  | apply i answers =>
    obtain ⟨request, -, rfl⟩ := Option.map_eq_some_iff.mp hs
    exact h.congr Controller.settings_applyOnUiThread rfl
  | sceneCollectionChanging => exact Option.some.inj hs ▸ h.congr rfl rfl
  | sceneListChanged answers =>
    exact Option.some.inj hs ▸ h.congr Controller.settings_sceneListChanged rfl

theorem settled_start (timeout : ℤ) (watermarkAvailable : Bool) :
    Settled loaded (start timeout watermarkAvailable) := by
  refine ⟨rfl, .inl (honoured_of_event ?_ ?_)⟩
  · simp [start, DisplaySettings.event]
  · simp [start, DisplaySettings.event]

/-- However the dialog is used, and whatever happens behind it. -/
theorem settled_of_run {timeout : ℤ} {watermarkAvailable : Bool} {labels : List Label}
    (hnamed : ∀ answers, .ok answers ∈ labels → [] ∉ answers.images ∧ [] ∉ answers.scenes)
    (hrun : Transition.run (step widgets) (start timeout watermarkAvailable) labels = some s) :
    Settled (fun saveData => .load saveData ∈ labels) s := by
  have hlabels : ∀ l ∈ labels, l.Named fun saveData => .load saveData ∈ labels := by
    intro l hl
    cases l with
    | ok answers => exact hnamed answers hl
    | load saveData => exact hl
    | _ => trivial
  exact Transition.run_along (fun _ _ _ h hl hs => Settled.step h hl hs) (settled_start _ _)
    (Transition.Along.of_forall hlabels) hrun

/-! ### Protection -/

/-- Protection goes off by an accepted dialog only, behind a warning answered with Yes. -/
theorem enabled_step (hs : s.step widgets l = some s') (henabled : s.privacyState.enabled = true) :
    s'.privacyState.enabled = true ∨ ∃ answers d, l = .ok answers ∧ s.dialog = some d ∧
      d.protectionEnabled = false ∧ answers.confirmed = true := by
  cases l with
  | showSettingsDialog sceneNames =>
    obtain ⟨-, hs⟩ := Option.ite_none_right_eq_some.mp hs
    exact .inl (Option.some.inj hs ▸ henabled)
  | edit edit =>
    obtain ⟨d, -, hs⟩ := Option.bind_eq_some_iff.mp hs
    obtain ⟨d', -, rfl⟩ := Option.map_eq_some_iff.mp hs
    exact .inl henabled
  | ok answers =>
    obtain ⟨d, hdialog, hs⟩ := Option.map_eq_some_iff.mp hs
    split at hs
    case isFalse => exact .inl (hs ▸ henabled)
    case isTrue hok =>
      subst hs
      cases hprotection : d.protectionEnabled with
      | true =>
        left
        simp [accept, save, hprotection, PrivacyState.setEnabled, henabled]
      | false =>
        have hconfirmed := (Dialog.checked_of_ok hok).confirmed henabled hprotection
        exact .inr ⟨answers, d, rfl, hdialog, hprotection, hconfirmed⟩
  | cancel =>
    obtain ⟨d, -, rfl⟩ := Option.map_eq_some_iff.mp hs
    exact .inl henabled
  | call op =>
    left
    cases op with
    | setEnabled enabled => cases hs
    | _ => exact Option.some.inj hs ▸ (PrivacyState.perform_enabled _ _).trans henabled
  | apply i answers =>
    obtain ⟨request, -, rfl⟩ := Option.map_eq_some_iff.mp hs
    exact .inl henabled
  | save | load | privacyModeChanged | sceneCollectionChanging | sceneListChanged =>
    exact .inl (Option.some.inj hs ▸ henabled)

structure Disabled (widgets : Widgets) (first : Frontend) (labels : List Label) (u : Frontend)
    (answers : OkAnswers) (d : Dialog) : Prop where
  taken : ∃ earlier later, labels = earlier ++ .ok answers :: later ∧
    Transition.run (step widgets) first earlier = some u
  enabled : u.privacyState.enabled = true
  dialog : u.dialog = some d
  unticked : d.protectionEnabled = false
  confirmed : answers.confirmed = true

/-- Wherever protection is disabled, the user has unticked it and answered the warning with
Yes, on an Ok that was pressed while it was enabled. -/
theorem disabled_of_run {timeout : ℤ} {watermarkAvailable : Bool} {labels : List Label}
    (hrun : Transition.run (step widgets) (start timeout watermarkAvailable) labels = some s)
    (hdisabled : s.privacyState.enabled = false) :
    ∃ u answers d, Disabled widgets (start timeout watermarkAvailable) labels u answers d := by
  have hstart : (start timeout watermarkAvailable).privacyState.enabled = true := rfl
  obtain ⟨earlier, l, later, u, v, hlabels, hearlier, hstep, hu, hv⟩ :=
    Transition.exists_step_of_not (I := fun s : Frontend => s.privacyState.enabled = true) hstart
      hrun (by simp [hdisabled])
  obtain ⟨answers, d, rfl, hdialog, hunticked, hconfirmed⟩ :=
    (enabled_step hstep hu).resolve_left hv
  exact ⟨u, answers, d, ⟨earlier, later, hlabels, hearlier⟩, hu, hdialog, hunticked, hconfirmed⟩

/-! ### An unchanged dialog -/

/-- A dialog that is opened and accepted without an edit puts the first scene where there is
no other. -/
theorem settings_reopened {names : List Bytes} {answers : OkAnswers}
    (hnames : ∀ name ∈ names, widgets.item name ≠ [])
    (hsensitive : widgets.Keep s.controller.settings.sensitive)
    (hconnection : widgets.Keep s.controller.settings.connection)
    (hrun : Transition.run (step widgets) s [.showSettingsDialog names, .ok answers] = some s')
    (haccepted : s'.dialog = none) :
    s'.controller.settings =
        s.controller.settings.orScene ((names.head?.map widgets.item).getD []) ∧
      (s'.controller.settings = s.controller.settings ↔
        names = [] ∨ s.controller.settings.sensitive.scene ≠ [] ∧
          s.controller.settings.connection.scene ≠ []) := by
  obtain ⟨u, hshow, hrest⟩ := Transition.run_cons.mp hrun
  obtain ⟨v, hok, hv⟩ := Transition.run_cons.mp hrest
  obtain rfl := (Option.some.inj hv).symm
  obtain ⟨-, hshow⟩ := Option.ite_none_right_eq_some.mp hshow
  obtain rfl := Option.some.inj hshow
  simp only [step, Option.map_some, Option.some.injEq] at hok
  have hsettings : s'.controller.settings =
      s.controller.settings.orScene ((names.head?.map widgets.item).getD []) := by
    rw [← updated_build s.privacyState.enabled hnames hsensitive hconnection]
    split at hok
    case isTrue =>
      obtain rfl := hok
      exact Controller.settings_updateSettings _ _
    case isFalse =>
      obtain rfl := hok
      cases haccepted
  have hnone : (names.head?.map widgets.item).getD [] = [] ↔ names = [] := by
    cases names with
    | nil => simp
    | cons name names => simpa using hnames name (by simp)
  refine ⟨hsettings, ?_⟩
  rw [hsettings, DisplaySettings.orScene_eq_self_iff, hnone]

/-! ### A session -/

def plain : Widgets := ⟨id, id⟩

def session : List Label :=
  [.privacyModeChanged .sensitive, .showSettingsDialog [ascii "Desktop", ascii "Pause"],
    .edit (.mode .sensitive 2), .edit (.scene .sensitive 1), .ok { scenes := [ascii "Pause"] },
    .edit (.risk true), .edit (.protection false), .privacyModeChanged .safe,
    .ok { scenes := [ascii "Pause"] }, .ok { scenes := [ascii "Pause"], confirmed := true }]

def chosen : Frontend :=
  (Transition.run (step plain) (start 2000 true) session).get (by decide +kernel)

theorem settled_chosen : chosen.controller.settings.sensitive =
      { mode := .customScene, scene := ascii "Pause" } ∧
    Settled (fun saveData => .load saveData ∈ session) chosen := by
  refine ⟨by decide +kernel, settled_of_run ?_ (Option.some_get _).symm⟩
  intro answers hmem
  simp only [session, List.mem_cons, List.not_mem_nil, or_false, false_or, reduceCtorEq,
    Label.ok.injEq] at hmem
  rcases hmem with rfl | rfl | rfl <;> decide

theorem disabled_chosen :
    ∃ u answers d, Disabled plain (start 2000 true) session u answers d := by
  have hdisabled : chosen.privacyState.enabled = false := by decide +kernel
  exact disabled_of_run (Option.some_get _).symm hdisabled

/-- The dialog of a new installation selects the first scene, which accepting it makes the
scene of the settings. -/
def reopened : Frontend :=
  (Transition.run (step plain) (start 2000 true)
    [.showSettingsDialog [ascii "Desktop"], .ok {}]).get (by decide +kernel)

theorem settings_reopened_start :
    reopened.controller.settings =
        (start 2000 true).controller.settings.orScene (ascii "Desktop") ∧
      ¬ reopened.controller.settings = (start 2000 true).controller.settings := by
  have hboth : reopened.controller.settings =
        (start 2000 true).controller.settings.orScene (ascii "Desktop") ∧
      (reopened.controller.settings = (start 2000 true).controller.settings ↔
        [ascii "Desktop"] = [] ∨ (start 2000 true).controller.settings.sensitive.scene ≠ [] ∧
          (start 2000 true).controller.settings.connection.scene ≠ []) :=
    settings_reopened (by decide) ⟨rfl, rfl⟩ ⟨rfl, rfl⟩ (Option.some_get _).symm
      (by decide +kernel)
  refine ⟨hboth.1, ?_⟩
  rw [hboth.2]
  decide

end Frontend

end PrivacyGuard
