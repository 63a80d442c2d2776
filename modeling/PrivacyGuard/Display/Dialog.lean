import PrivacyGuard.Display.Persistence

/-! # The settings dialog

The dialog shows the current settings in its widgets, lets the user edit what is visible,
and checks the choice whenever the user presses Ok. It runs inside the event loop of OBS,
so modes, scene collections and queued tasks change behind it.
-/

namespace PrivacyGuard

/-- A combo box: the texts and the data of its items, the first of which becomes current. -/
structure ComboBox (α : Type) where
  items : List (Bytes × α) := []
  currentIndex : ℕ := 0
  deriving DecidableEq, Repr

namespace ComboBox

variable {α : Type}

def addItem (combo : ComboBox α) (text : Bytes) (data : α) : ComboBox α :=
  { combo with items := combo.items ++ [(text, data)] }

def findData [DecidableEq α] (combo : ComboBox α) (data : α) : Option ℕ :=
  combo.items.findIdx? fun item => decide (item.2 = data)

def currentData (combo : ComboBox α) : Option α := combo.items[combo.currentIndex]?.map Prod.snd

def pick (combo : ComboBox α) (index : ℕ) : Option (ComboBox α) :=
  if index < combo.items.length then some { combo with currentIndex := index } else none

end ComboBox

/-- What the widgets make of the texts of the program. -/
structure Widgets where
  /-- The text of a line edit. -/
  lineEdit : Bytes → Bytes
  /-- The text and the data of an item. -/
  item : Bytes → Bytes

def selectedDisplayMode (combo : ComboBox DisplayMode) : DisplayMode :=
  combo.currentData.getD .builtInImage

def populateDisplayModes (selected : DisplayMode) : ComboBox DisplayMode :=
  let combo : ComboBox DisplayMode := {}
  let combo := combo.addItem (ascii "Built-in Privacy Guard image (recommended)") .builtInImage
  let combo := combo.addItem (ascii "Custom image (post-render protected)") .customImage
  let combo := combo.addItem (ascii "Custom OBS scene (user managed)") .customScene
  { combo with currentIndex := (combo.findData selected).getD 0 }

def populateSceneCombo (widgets : Widgets) (sceneNames : List Bytes) (selected : Bytes) :
    ComboBox Bytes :=
  let combo : ComboBox Bytes :=
    sceneNames.foldl (fun combo name => combo.addItem (widgets.item name) (widgets.item name)) {}
  let selectedFound := sceneNames.contains selected
  let combo :=
    if !selected.isEmpty && !selectedFound then
      combo.addItem (ascii "Missing: " ++ widgets.item selected) (widgets.item selected)
    else combo
  { combo with currentIndex := (combo.findData (widgets.item selected)).getD combo.currentIndex }

structure EventForm where
  mode : ComboBox DisplayMode
  image : Bytes
  scene : ComboBox Bytes
  deriving DecidableEq, Repr

namespace EventForm

def build (widgets : Widgets) (sceneNames : List Bytes) (current : EventDisplaySettings) :
    EventForm where
  mode := populateDisplayModes current.mode
  image := widgets.lineEdit current.imagePath
  scene := populateSceneCombo widgets sceneNames current.scene

def event (form : EventForm) : EventDisplaySettings where
  mode := selectedDisplayMode form.mode
  imagePath := form.image
  scene := form.scene.currentData.getD []

end EventForm

structure Dialog where
  sensitive : EventForm
  connection : EventForm
  riskAccepted : Bool
  protectionEnabled : Bool
  deriving DecidableEq, Repr

inductive Group
  | sensitive
  | connection
  deriving DecidableEq, Repr

inductive Edit
  | mode (group : Group) (index : ℕ)
  | image (group : Group) (text : Bytes)
  /-- The path chosen in the file dialog, empty if there is none. -/
  | browse (group : Group) (selected : Bytes)
  | scene (group : Group) (index : ℕ)
  | risk (accepted : Bool)
  | protection (enabled : Bool)
  deriving DecidableEq, Repr

structure OkAnswers where
  /-- The image files that can be loaded. -/
  images : List Bytes := []
  /-- The scenes that exist. -/
  scenes : List Bytes := []
  /-- The user answers the warning about disabling protection with Yes. -/
  confirmed : Bool := false
  deriving DecidableEq, Repr

inductive OkResult
  | riskRequired
  | imageUnavailable
  | sceneUnavailable
  | notConfirmed
  | accepted
  deriving DecidableEq, Repr

namespace Dialog

def build (widgets : Widgets) (current : DisplaySettings) (sceneNames : List Bytes)
    (enabled : Bool) : Dialog where
  sensitive := .build widgets sceneNames current.sensitive
  connection := .build widgets sceneNames current.connection
  riskAccepted := current.customSceneRiskAccepted
  protectionEnabled := enabled

def updated (d : Dialog) : DisplaySettings where
  sensitive := d.sensitive.event
  connection := d.connection.event
  customSceneRiskAccepted := d.riskAccepted

def form (d : Dialog) : Group → EventForm
  | .sensitive => d.sensitive
  | .connection => d.connection

def setForm (d : Dialog) (group : Group) (form : EventForm) : Dialog :=
  match group with
  | .sensitive => { d with sensitive := form }
  | .connection => { d with connection := form }

def selection (d : Dialog) (group : Group) : DisplayMode := selectedDisplayMode (d.form group).mode

def anySelected (d : Dialog) (mode : DisplayMode) : Bool :=
  decide (d.selection .sensitive = mode) || decide (d.selection .connection = mode)

/-- Only visible widgets can be edited. -/
def edit (d : Dialog) : Edit → Option Dialog
  | .mode group index =>
    ((d.form group).mode.pick index).map fun mode => d.setForm group { d.form group with mode }
  | .image group text =>
    if d.selection group = .customImage then
      some (d.setForm group { d.form group with image := text })
    else none
  | .browse group selected =>
    if d.selection group = .customImage then
      some (if selected.isEmpty then d
        else d.setForm group { d.form group with image := selected })
    else none
  | .scene group index =>
    if d.selection group = .customScene then
      ((d.form group).scene.pick index).map fun scene =>
        d.setForm group { d.form group with scene }
    else none
  | .risk accepted =>
    if d.anySelected .customScene then some { d with riskAccepted := accepted } else none
  | .protection enabled => some { d with protectionEnabled := enabled }

def lacksImage (d : Dialog) (answers : OkAnswers) (group : Group) : Bool :=
  decide (d.selection group = .customImage) && !answers.images.contains (d.form group).image

def lacksScene (d : Dialog) (answers : OkAnswers) (group : Group) : Bool :=
  decide (d.selection group = .customScene) &&
    !answers.scenes.contains (cString ((d.form group).scene.currentData.getD []))

/-- The handler of Ok; the dialog stays open behind every warning. -/
def ok (d : Dialog) (answers : OkAnswers) (enabled : Bool) : OkResult :=
  if d.anySelected .customScene && !d.riskAccepted then .riskRequired
  else if d.lacksImage answers .sensitive || d.lacksImage answers .connection then
    .imageUnavailable
  else if d.lacksScene answers .sensitive || d.lacksScene answers .connection then
    .sceneUnavailable
  else if enabled && !d.protectionEnabled && !answers.confirmed then .notConfirmed
  else .accepted

end Dialog

/-! ### The dialog inside OBS -/

/-- The controller, the state it reads, the scene collection as it was saved or loaded last,
and the dialog while it is open. -/
structure Frontend where
  controller : Controller
  privacyState : PrivacyState
  collection : SceneCollection := ∅
  dialog : Option Dialog := none

namespace Frontend

inductive Label
  /-- The user opens the dialog while OBS has the given scenes. -/
  | showSettingsDialog (sceneNames : List Bytes)
  | edit (edit : Edit)
  | ok (answers : OkAnswers)
  | cancel
  /-- OBS saves the scene collection, or loads one. -/
  | save
  | load (saveData : SceneCollection)
  /-- A call of the pipe server or of the tick callback. -/
  | call (op : Op)
  | privacyModeChanged (mode : Mode)
  | apply (i : ℕ) (answers : Answers)
  | sceneCollectionChanging
  | sceneListChanged (answers : Answers)

def start (livenessTimeout : ℤ) (watermarkAvailable : Bool) : Frontend where
  controller := { watermarkAvailable }
  privacyState := .init livenessTimeout

def save (s : Frontend) : Frontend :=
  { s with collection := (s.controller.saveLoad s.collection true).2 }

/-- The rest of `show_settings_dialog` once the dialog is accepted. -/
def accept (s : Frontend) (d : Dialog) : Frontend :=
  save
    { s with
      controller := s.controller.updateSettings d.updated
      privacyState := s.privacyState.setEnabled d.protectionEnabled
      dialog := none }

def step (widgets : Widgets) (s : Frontend) : Label → Option Frontend
  | .showSettingsDialog sceneNames =>
    if s.dialog = none then
      some { s with
        dialog := some (.build widgets s.controller.settings sceneNames s.privacyState.enabled) }
    else none
  | .edit edit => s.dialog.bind fun d => (d.edit edit).map fun d => { s with dialog := some d }
  | .ok answers =>
    s.dialog.map fun d =>
      if d.ok answers s.privacyState.enabled = .accepted then s.accept d else s
  | .cancel => s.dialog.map fun _ => { s with dialog := none }
  | .save => some s.save
  | .load saveData =>
    some { s with
      controller := (s.controller.saveLoad saveData false).1
      collection := saveData }
  | .call (.setEnabled _) => none
  | .call op => some { s with privacyState := (s.privacyState.perform op).1 }
  | .privacyModeChanged mode =>
    some { s with controller := s.controller.privacyModeChanged mode }
  | .apply i answers =>
    s.controller.queue[i]?.map fun request =>
      { s with controller := (s.controller.dequeue i).applyOnUiThread request answers }
  | .sceneCollectionChanging => some { s with controller := s.controller.sceneCollectionChanging }
  | .sceneListChanged answers => some { s with controller := s.controller.sceneListChanged answers }

end Frontend

end PrivacyGuard
