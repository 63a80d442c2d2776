import Mathlib.Data.List.TakeWhile
import PrivacyGuard.Display.Controller

/-! # Saving and loading the settings

The settings live in the scene collection, in an object of their own: a map from keys to
values with typed getters. Older versions stored two booleans instead of the modes.
-/

namespace PrivacyGuard

/-- What a stored value answers to each typed getter: the default, if it has another type. -/
structure Item where
  integer : ℤ := 0
  boolean : Bool := false
  text : Bytes := []
  deriving DecidableEq, Repr

abbrev ObsData := AList fun _ : String => Item

abbrev SceneCollection := AList fun _ : String => ObsData

/-- The bytes that a pointer to a zero-terminated string shows. -/
def cString (text : Bytes) : Bytes := text.takeWhile (· ≠ 0)

namespace ObsData

variable (data : ObsData) (key : String)

def item : Item := (data.lookup key).getD {}

def hasUserValue : Bool := (data.lookup key).isSome

def getInt : ℤ := (data.item key).integer

def getBool : Bool := (data.item key).boolean

def getString : Bytes := cString (data.item key).text

def setInt (value : ℤ) : ObsData := data.insert key { integer := value }

def setBool (value : Bool) : ObsData := data.insert key { boolean := value }

def setString (value : Bytes) : ObsData := data.insert key { text := cString value }

end ObsData

/-! ### Keys -/

def settingsKey : String := "obs-vscode-privacy-guard"
def sensitiveModeKey : String := "sensitive_mode"
def sensitiveImageKey : String := "sensitive_image"
def sensitiveSceneKey : String := "sensitive_scene"
def connectionModeKey : String := "connection_mode"
def connectionImageKey : String := "connection_image"
def connectionSceneKey : String := "connection_scene"
def riskAcceptedKey : String := "custom_scene_risk_accepted"
def legacyUseSensitiveSceneKey : String := "use_sensitive_scene"
def legacyUseConnectionSceneKey : String := "use_connection_scene"

/-! ### Display modes as integers -/

def DisplayMode.toInt : DisplayMode → ℤ
  | .builtInImage => 0
  | .customImage => 1
  | .customScene => 2

def DisplayMode.ofInt (stored : ℤ)
    (_ : ¬ (stored < DisplayMode.builtInImage.toInt ∨ stored > DisplayMode.customScene.toInt)) :
    DisplayMode :=
  if stored = 0 then .builtInImage else if stored = 1 then .customImage else .customScene

/-- A stored mode wins over the boolean of older versions. -/
def loadDisplayMode (data : ObsData) (key legacySceneKey : String) : DisplayMode :=
  if !data.hasUserValue key then
    if data.getBool legacySceneKey then .customScene else .builtInImage
  else
    let stored := data.getInt key
    if h : stored < DisplayMode.builtInImage.toInt ∨ stored > DisplayMode.customScene.toInt then
      .builtInImage
    else .ofInt stored h

/-! ### The callback for scene collections -/

def saveSettings (current : DisplaySettings) : ObsData :=
  let data : ObsData := ∅
  let data := data.setInt sensitiveModeKey current.sensitive.mode.toInt
  let data := data.setString sensitiveImageKey current.sensitive.imagePath
  let data := data.setString sensitiveSceneKey current.sensitive.scene
  let data := data.setInt connectionModeKey current.connection.mode.toInt
  let data := data.setString connectionImageKey current.connection.imagePath
  let data := data.setString connectionSceneKey current.connection.scene
  data.setBool riskAcceptedKey current.customSceneRiskAccepted

def loadSettings (data : ObsData) : DisplaySettings where
  sensitive :=
    { mode := loadDisplayMode data sensitiveModeKey legacyUseSensitiveSceneKey
      imagePath := data.getString sensitiveImageKey
      scene := data.getString sensitiveSceneKey }
  connection :=
    { mode := loadDisplayMode data connectionModeKey legacyUseConnectionSceneKey
      imagePath := data.getString connectionImageKey
      scene := data.getString connectionSceneKey }
  customSceneRiskAccepted := data.getBool riskAcceptedKey

/-- OBS invokes this callback when the active scene collection is saved or loaded. -/
def Controller.saveLoad (c : Controller) (saveData : SceneCollection) (saving : Bool) :
    Controller × SceneCollection :=
  if saving then (c, saveData.insert settingsKey (saveSettings c.settings))
  else
    match saveData.lookup settingsKey with
    | none => (c.updateSettings {}, saveData)
    | some data => (c.updateSettings (loadSettings data), saveData)

/-! ### Round trip -/

theorem cString_eq_self {text : Bytes} (h : 0 ∉ text) : cString text = text := by
  rw [cString, List.takeWhile_eq_self_iff]
  intro b hb
  simpa using fun hz : b = 0 => h (hz ▸ hb)

theorem zero_notMem_cString (text : Bytes) : 0 ∉ cString text := by
  intro h
  simpa using List.mem_takeWhile_imp h

@[simp] theorem cString_cString (text : Bytes) : cString (cString text) = cString text :=
  cString_eq_self (zero_notMem_cString text)

/-- No text of the settings contains a zero byte. -/
structure EventDisplaySettings.ZeroFree (event : EventDisplaySettings) : Prop where
  imagePath : 0 ∉ event.imagePath
  scene : 0 ∉ event.scene

structure DisplaySettings.ZeroFree (settings : DisplaySettings) : Prop where
  sensitive : settings.sensitive.ZeroFree
  connection : settings.connection.ZeroFree

theorem DisplayMode.toInt_ofInt (stored : ℤ) (h) : (DisplayMode.ofInt stored h).toInt = stored := by
  simp only [toInt, not_or, not_lt, gt_iff_lt] at h
  rw [ofInt]
  split
  · simp_all [toInt]
  · split
    · simp_all [toInt]
    · simp only [toInt]
      omega

theorem DisplayMode.toInt_injective {mode mode' : DisplayMode} (h : mode.toInt = mode'.toInt) :
    mode = mode' := by
  cases mode <;> cases mode' <;> simp_all [toInt]

theorem DisplayMode.toInt_mem (mode : DisplayMode) : 0 ≤ mode.toInt ∧ mode.toInt ≤ 2 := by
  cases mode <;> simp [toInt]

def storedMode (data : ObsData) (key legacySceneKey : String) : ℤ :=
  if data.hasUserValue key then
    if 0 ≤ data.getInt key ∧ data.getInt key ≤ 2 then data.getInt key else 0
  else if data.getBool legacySceneKey then 2 else 0

theorem toInt_loadDisplayMode (data : ObsData) (key legacySceneKey : String) :
    (loadDisplayMode data key legacySceneKey).toInt = storedMode data key legacySceneKey := by
  rw [loadDisplayMode, storedMode]
  cases data.hasUserValue key with
  | false =>
    cases data.getBool legacySceneKey <;> rfl
  | true =>
    simp only [Bool.not_true, Bool.false_eq_true, if_false, if_true]
    split
    · rename_i h
      rw [if_neg (by simp only [DisplayMode.toInt] at h; omega)]
      rfl
    · rename_i h
      rw [DisplayMode.toInt_ofInt, if_pos (by simp only [DisplayMode.toInt] at h; omega)]

/-- A mode written under its key is read back, whatever the older keys hold. -/
theorem loadDisplayMode_eq {data : ObsData} {key legacySceneKey : String} {mode : DisplayMode}
    (hitem : data.lookup key = some { integer := mode.toInt }) :
    loadDisplayMode data key legacySceneKey = mode := by
  have hint : data.getInt key = mode.toInt := by simp [ObsData.getInt, ObsData.item, hitem]
  apply DisplayMode.toInt_injective
  rw [toInt_loadDisplayMode, storedMode, ObsData.hasUserValue, hitem, hint, Option.isSome_some,
    if_pos rfl, if_pos mode.toInt_mem]

structure Written (data : ObsData) (settings : DisplaySettings) : Prop where
  sensitiveMode : data.lookup sensitiveModeKey = some { integer := settings.sensitive.mode.toInt }
  sensitiveImage : data.lookup sensitiveImageKey =
    some { text := cString settings.sensitive.imagePath }
  sensitiveScene : data.lookup sensitiveSceneKey = some { text := cString settings.sensitive.scene }
  connectionMode : data.lookup connectionModeKey =
    some { integer := settings.connection.mode.toInt }
  connectionImage : data.lookup connectionImageKey =
    some { text := cString settings.connection.imagePath }
  connectionScene : data.lookup connectionSceneKey =
    some { text := cString settings.connection.scene }
  riskAccepted : data.lookup riskAcceptedKey =
    some { boolean := settings.customSceneRiskAccepted }

theorem written_saveSettings (settings : DisplaySettings) :
    Written (saveSettings settings) settings := by
  constructor
  all_goals
    simp (disch := decide) only [saveSettings, ObsData.setInt, ObsData.setString, ObsData.setBool,
      AList.lookup_insert, AList.lookup_insert_ne]

theorem getString_eq {data : ObsData} {key : String} {text : Bytes}
    (hitem : data.lookup key = some { text := cString text }) (h : 0 ∉ text) :
    data.getString key = text := by
  simp [ObsData.getString, ObsData.item, hitem, cString_eq_self h]

/-- Settings without zero bytes are loaded as they were saved. -/
theorem loadSettings_saveSettings {settings : DisplaySettings} (h : settings.ZeroFree) :
    loadSettings (saveSettings settings) = settings := by
  have hw := written_saveSettings settings
  have hrisk : (saveSettings settings).getBool riskAcceptedKey =
      settings.customSceneRiskAccepted := by
    simp [ObsData.getBool, ObsData.item, hw.riskAccepted]
  rw [loadSettings, loadDisplayMode_eq hw.sensitiveMode, loadDisplayMode_eq hw.connectionMode,
    getString_eq hw.sensitiveImage h.sensitive.imagePath,
    getString_eq hw.sensitiveScene h.sensitive.scene,
    getString_eq hw.connectionImage h.connection.imagePath,
    getString_eq hw.connectionScene h.connection.scene, hrisk]

theorem zeroFree_loadSettings (data : ObsData) : (loadSettings data).ZeroFree where
  sensitive := ⟨zero_notMem_cString _, zero_notMem_cString _⟩
  connection := ⟨zero_notMem_cString _, zero_notMem_cString _⟩

/-! ### Loading any stored object -/

def storedSettings (saveData : SceneCollection) : DisplaySettings :=
  (saveData.lookup settingsKey).elim {} loadSettings

theorem zeroFree_storedSettings (saveData : SceneCollection) :
    (storedSettings saveData).ZeroFree := by
  rw [storedSettings]
  cases saveData.lookup settingsKey with
  | none => exact ⟨⟨List.not_mem_nil, List.not_mem_nil⟩, ⟨List.not_mem_nil, List.not_mem_nil⟩⟩
  | some data => exact zeroFree_loadSettings data

namespace Controller

variable (c : Controller) (saveData : SceneCollection)

theorem settings_updateSettings (settings : DisplaySettings) :
    (c.updateSettings settings).settings = settings := by
  rw [updateSettings]
  split <;> rfl

theorem settings_load : (c.saveLoad saveData false).1.settings = storedSettings saveData := by
  simp only [saveLoad, storedSettings, Bool.false_eq_true, if_false]
  cases saveData.lookup settingsKey <;> exact settings_updateSettings _ _

/-- Whatever is stored already, the settings saved last are the ones loaded. -/
theorem storedSettings_save (h : c.settings.ZeroFree) :
    storedSettings (c.saveLoad saveData true).2 = c.settings := by
  have hsave : (c.saveLoad saveData true).2 =
      saveData.insert settingsKey (saveSettings c.settings) := rfl
  rw [hsave, storedSettings, AList.lookup_insert]
  exact loadSettings_saveSettings h

/-- Saved settings come back, and loading makes sense of every stored object. -/
structure Persists (c : Controller) (saveData : SceneCollection) : Prop where
  roundTrip : c.settings.ZeroFree → ∀ c' : Controller,
    (c'.saveLoad (c.saveLoad saveData true).2 false).1.settings = c.settings
  inRange : ∀ mode, 0 ≤ ((c.saveLoad saveData false).1.settings.event mode).mode.toInt ∧
    ((c.saveLoad saveData false).1.settings.event mode).mode.toInt ≤ 2
  modes : ∀ data, saveData.lookup settingsKey = some data →
    (c.saveLoad saveData false).1.settings.sensitive.mode.toInt =
        storedMode data sensitiveModeKey legacyUseSensitiveSceneKey ∧
      (c.saveLoad saveData false).1.settings.connection.mode.toInt =
        storedMode data connectionModeKey legacyUseConnectionSceneKey
  stable : ∀ c' : Controller,
    (c'.saveLoad ((c.saveLoad saveData false).1.saveLoad saveData true).2 false).1.settings =
      (c.saveLoad saveData false).1.settings
  guarded : ∀ mode,
    resolveDisplayAction (c.saveLoad saveData false).1.settings mode = .customScene →
      ∃ data, saveData.lookup settingsKey = some data ∧ data.getBool riskAcceptedKey = true ∧
        data.getString (if mode = .sensitive then sensitiveSceneKey else connectionSceneKey) ≠ []

theorem persists : Persists c saveData where
  roundTrip h c' := by rw [settings_load, c.storedSettings_save saveData h]
  inRange mode := DisplayMode.toInt_mem _
  modes data h := by
    rw [settings_load, storedSettings, h]
    exact ⟨toInt_loadDisplayMode _ _ _, toInt_loadDisplayMode _ _ _⟩
  stable c' := by
    have hz : (c.saveLoad saveData false).1.settings.ZeroFree := by
      rw [settings_load]
      exact zeroFree_storedSettings saveData
    rw [settings_load, storedSettings_save _ _ hz]
  guarded mode h := by
    rw [settings_load, storedSettings] at h
    cases hd : saveData.lookup settingsKey with
    | none =>
      rw [hd] at h
      cases mode <;> simp [resolveDisplayAction, DisplaySettings.event] at h
    | some data =>
      rw [hd] at h
      obtain ⟨hrisk, hscene⟩ := of_resolveDisplayAction_eq_customScene h
      refine ⟨data, rfl, hrisk, ?_⟩
      rw [DisplaySettings.event] at hscene
      split at hscene
      · rename_i hmode
        rwa [if_pos hmode]
      · rename_i hmode
        rwa [if_neg hmode]

end Controller

end PrivacyGuard
