import NexTerminal.Inventory.Config
import NexTerminal.Library.SeqMap
import NexTerminal.Library.Json

/-! The records that the configuration commands exchange between machines (`models/config.ts`,
`models/terminalMacro.ts`). -/

namespace NexTerminal.Exchange

open Inventory Library

inductive TunnelConnectionMode
  | isolated | shared | ask
deriving DecidableEq

inductive TunnelType
  | «local» | reverse | dynamic
deriving DecidableEq

structure TunnelProfile where
  id : Text
  name : Text
  localPort : ℚ
  remoteIP : Text
  remotePort : ℚ
  defaultServerId : Option Text := none
  autoStart : Bool := false
  autoStop : Option Bool := none
  connectionMode : Option TunnelConnectionMode := none
  tunnelType : Option TunnelType := none
  remoteBindAddress : Option Text := none
  localTargetIP : Option Text := none
  localBindAddress : Option Text := none
  notes : Option Text := none
  browserUrl : Option Text := none
deriving DecidableEq

inductive SerialDataBits
  | five | six | seven | eight
deriving DecidableEq

inductive SerialStopBits
  | one | two
deriving DecidableEq

inductive SerialParity
  | none | even | odd | mark | space
deriving DecidableEq

inductive SerialProfileMode
  | standard | smartFollow
deriving DecidableEq

structure SerialDeviceHint where
  manufacturer : Option Text := none
  serialNumber : Option Text := none
  vendorId : Option Text := none
  productId : Option Text := none
deriving DecidableEq

structure SerialProfile where
  id : Text
  name : Text
  group : Option Text := none
  path : Text
  baudRate : ℚ
  dataBits : SerialDataBits := .eight
  stopBits : SerialStopBits := .one
  parity : SerialParity := .none
  rtscts : Bool := false
  logSession : Option Bool := none
  mode : Option SerialProfileMode := none
  deviceHint : Option SerialDeviceHint := none
deriving DecidableEq

inductive LocalShellLaunchMode
  | vscodeProfile | custom
deriving DecidableEq

structure LocalShellProfile where
  id : Text
  name : Text
  group : Option Text := none
  launchMode : LocalShellLaunchMode
  vscodeProfileName : Option Text := none
  shellPath : Option Text := none
  shellArgs : Option (List Text) := none
  cwd : Option Text := none
  env : Option (List (Text × Text)) := none
  startupCommand : Option Text := none
deriving DecidableEq

structure AuthProfile where
  id : Text
  name : Text
  username : Text
  authType : AuthType
  keyPath : Option Text := none
deriving DecidableEq

inductive MacroTriggerScope
  | allTerminals | activeSession | profile
deriving DecidableEq

inductive MacroRunTarget
  | session | localTerminal | browser
deriving DecidableEq

inductive MacroRoute
  | «local» | ipmiGateway
deriving DecidableEq

structure MacroVariable where
  name : Text
  label : Option Text := none
  «default» : Option Text := none
  secret : Option Bool := none
  remember : Option Bool := none
deriving DecidableEq

/-- What stands in the list of a macro's variables: a declaration, or a value that is no object. -/
inductive MacroVariableEntry
  | declared (declaration : MacroVariable)
  | stray (value : Json)

inductive MacroVariables
  | entries (entries : List MacroVariableEntry)
  | notArray (value : Json)

structure TerminalMacro where
  id : Option Text := none
  name : Text
  text : Text
  keybinding : Option Text := none
  slot : Option ℚ := none
  secret : Option Bool := none
  triggerPattern : Option Text := none
  triggerCooldown : Option ℚ := none
  triggerInterval : Option ℚ := none
  triggerInitiallyDisabled : Option Bool := none
  triggerScope : Option MacroTriggerScope := none
  triggerProfileId : Option Text := none
  «variables» : Option MacroVariables := none
  group : Option Text := none
  runIn : Option MacroRunTarget := none
  provideIpmiCredentials : Option Bool := none
  route : Option MacroRoute := none

/-- What a share export is made of, and what it consists of (`SanitizedSnapshot`). -/
structure SharedRecords where
  servers : List ServerConfig := []
  tunnels : List TunnelProfile := []
  serialProfiles : List SerialProfile := []
  localShellProfiles : List LocalShellProfile := []
  authProfiles : List AuthProfile := []
  macros : List TerminalMacro := []
  settings : SeqMap Text Json := .empty

def truthy : Json → Bool
  | .null => false
  | .bool b => b
  | .number (.posInt n) => n ≠ 0
  | .number (.negInt i) => i ≠ 0
  | .number (.float q) => q ≠ 0
  | .string text => text ≠ []
  | .array _ => true
  | .object _ => true

def present (id : Option Text) : Option Text := id.filter (· ≠ [])

/-- An id counts where it is not empty. -/
theorem present_eq_some {id : Option Text} {held : Text} :
    present id = some held ↔ id = some held ∧ held ≠ [] := by
  simp [present]

theorem present_some {held : Text} (ne : held ≠ []) : present (some held) = some held :=
  present_eq_some.mpr ⟨rfl, ne⟩

end NexTerminal.Exchange
