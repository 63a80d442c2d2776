import PrivacyGuard.Extension.Conversation
import PrivacyGuard.Extension.Rules

/-! # A window of the editor

`activate` watches the visible editors and the settings of one window, publishes what it
finds through the pipe client of the window, and keeps the status bar in step. VS Code
changes editors and settings first and delivers its events later.
-/

namespace PrivacyGuard

open Utf16

/-! ### The settings -/

/-- What is stored where the extension expects a list. -/
inductive Setting
  | array (elements : List Unknown)
  /-- A value without a `filter` method. -/
  | other

structure Configuration where
  /-- Whether the stored value is truthy. -/
  enabled : Option Bool := none
  rules : Option Setting := none

/-- The rule for files of secrets that the extension comes with. -/
def dotenv : PrivacyRule where
  id := utf16 "dotenv"
  type := .extension
  value := utf16 ".env"

namespace Configuration

/-- `configuration.get("enabled", true)`. -/
def getEnabled (c : Configuration) : Bool := c.enabled.getD true

/-- `configuration.get("rules", [])`. The default of the manifest comes before that of the
call. -/
def getRules (c : Configuration) : Setting := c.rules.getD (.array [dotenv.object])

end Configuration

/-- The rule that an accepted value of the settings is. -/
def Unknown.rule : Unknown → Option PrivacyRule
  | .object properties =>
    let candidate := Unknown.property properties
    match candidate "id", candidate "value", candidate "type" with
    | .string id, .string value, .string type =>
      (ruleTypes.find? fun ruleType => decide (ruleType.text = type)).map fun ruleType =>
        { id
          type := ruleType
          value
          caseSensitive :=
            match candidate "caseSensitive" with
            | .boolean b => some b
            | _ => none }
    | _, _, _ => none
  | _ => none

/-- `configuredRules.filter(isPrivacyRule)`. -/
def filterRules (configuredRules : List Unknown) : List PrivacyRule :=
  (configuredRules.filter isPrivacyRule).filterMap Unknown.rule

example : filterRules [dotenv.object] = [dotenv] := rfl

/-! ### The window -/

def PipeClient.ClientEvent.fromRuntime : PipeClient.ClientEvent → Bool
  | .connect | .publish _ | .dispose => false
  | _ => true

structure StatusBar where
  text : String := ""
  tooltip : String := ""
  backgroundColor : Option String := none
  deriving DecidableEq, Repr

/-- What the window shows and has stored, its client, and the variables of `activate`. -/
structure Window where
  client : PipeClient
  visibleTextEditors : List Utf16 := []
  configuration : Configuration := {}
  activated : Bool := false
  connectionState : ConnectionState := .disconnected
  sensitive : Bool := true
  statusBar : StatusBar := {}
  warnings : ℕ := 0
  /-- The event of the last change of the editors is still to be delivered. -/
  editorsPending : Bool := false
  configurationPending : Bool := false

namespace Window

/-- Keep the status bar aligned with both the file scan and pipe connection state. -/
def statusBarOf (sensitive : Bool) (connectionState : ConnectionState) : StatusBar :=
  if sensitive then
    { text := "$(shield) OBS: hidden"
      tooltip := "A visible file matches an OBS Privacy Guard rule."
      backgroundColor := some "statusBarItem.warningBackground" }
  else
    match connectionState with
    | .connected =>
      { text := "$(shield) OBS: safe"
        tooltip := "OBS Privacy Guard is connected and no visible file matches." }
    | .disconnected =>
      { text := "$(debug-disconnect) OBS: disconnected"
        tooltip := "OBS Privacy Guard is disconnected; OBS should fail closed." }

def renderStatus (w : Window) : Window :=
  { w with statusBar := statusBarOf w.sensitive w.connectionState }

def onConnectionState (w : Window) (state : ConnectionState) : Window :=
  renderStatus { w with connectionState := state }

/-- The client after a step, with the state it has announced in it. -/
def hear (w : Window) (client : PipeClient) : Window :=
  let announced := client.connectionStates.length - w.client.connectionStates.length
  (client.connectionStates.take announced).foldr (fun state w => w.onConnectionState state)
    { w with client }

def statusOf (sensitive : Bool) : PrivacyStatus := if sensitive then .sensitive else .safe

variable (d : CaseData)

/-- Local disabling reports sensitive: VS Code cannot disarm the OBS-side layer. -/
def isSensitive (w : Window) (configuredRules : List Unknown) : Bool :=
  !w.configuration.getEnabled ||
    w.visibleTextEditors.any fun path => matchesFile d path (filterRules configuredRules)

/-- Re-evaluate every editor currently visible in any VS Code editor group; nothing if the
stored rules are no list, since their `filter` is then called and throws. -/
def evaluateVisibleEditors (w : Window) : Option Window :=
  match w.configuration.getRules with
  | .other => none
  | .array configuredRules =>
    let rules := filterRules configuredRules
    let sensitive := w.isSensitive d configuredRules
    some <| renderStatus
      { w with
        warnings := if configuredRules.length ≠ rules.length then w.warnings + 1 else w.warnings
        sensitive
        client := w.client.publish (statusOf sensitive) }

/-- A listener that throws leaves the window as it is. -/
def evaluate (w : Window) : Window := (w.evaluateVisibleEditors d).getD w

/-- Publish a fail-closed initial state before opening the transport. Changes from before the
listeners are registered are not delivered. -/
def activate (w : Window) : Window :=
  let w := { w with activated := true, editorsPending := false, configurationPending := false }
  match w.evaluateVisibleEditors d with
  | none => w
  | some w => { w with client := w.client.connect }

inductive Event
  | activate
  /-- The window shows other editors. -/
  | show (editors : List Utf16)
  /-- The section of the extension changes. -/
  | configure (configuration : Configuration)
  | visibleTextEditorsChanged
  | configurationChanged (affectsConfiguration : Bool)
  /-- An event of a socket or a timer of the client. -/
  | client (event : PipeClient.ClientEvent)
  | dispose

/-- The listeners are registered by `activate` and disposed with the client. -/
def listening (w : Window) : Bool := w.activated && !w.client.disposed

def step (w : Window) : Event → Option Window
  | .activate => if w.activated then none else some (w.activate d)
  | .show editors => some { w with visibleTextEditors := editors, editorsPending := true }
  | .configure configuration => some { w with configuration, configurationPending := true }
  | .visibleTextEditorsChanged =>
    if w.listening then some (evaluate d { w with editorsPending := false }) else none
  | .configurationChanged affectsConfiguration =>
    if w.listening then
      if affectsConfiguration then some (evaluate d { w with configurationPending := false })
      else some w
    else none
  | .client event =>
    if event.fromRuntime then (w.client.step event).map w.hear else none
  | .dispose => if w.activated then some { w with client := w.client.dispose } else none

def create (clientId : Bytes) (uuid : Uuid clientId) : Window :=
  { client := .create clientId uuid }

end Window

end PrivacyGuard
