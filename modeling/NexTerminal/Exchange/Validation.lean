import NexTerminal.Host.JsValue
import NexTerminal.Library.SeqMap

namespace NexTerminal.Exchange

open Host Library

theorem js_inj {a b : String} : js a = js b ↔ a = b := by
  refine ⟨fun same => ?_, congrArg js⟩
  exact String.toList_inj.mp (encodeUtf16_injective same)

abbrev JsRecord := List (JsString × JsValue)

namespace JsRecord

def get (r : JsRecord) (key : String) : JsValue := (ownField r key).getD .undefined

/-- `delete r[key]`. -/
def remove (r : JsRecord) (key : String) : JsRecord := r.filter fun field => field.1 ≠ js key

/-- `{ ...r, [key]: value }`. -/
def set (r : JsRecord) (key : String) (value : JsValue) : JsRecord := (js key, value) :: r.remove key

@[simp] theorem get_remove (r : JsRecord) (key other : String) :
    (r.remove key).get other = if key = other then .undefined else r.get other := by
  simp only [get, ownField, remove]
  induction r with
  | nil => simp
  | cons field rest ih =>
    obtain ⟨name, -⟩ := field
    by_cases removed : name = js key
    · rw [List.filter_cons_of_neg (by simp [removed]), ih, List.lookup_cons, removed]
      by_cases same : key = other
      · simp [same]
      · have ne : (js other == js key) = false := by simp [js_inj, Ne.symm same]
        simp [ne]
    · rw [List.filter_cons_of_pos (by simp [removed]), List.lookup_cons, List.lookup_cons]
      by_cases here : js other == name
      · have ne : key ≠ other := by
          rintro rfl
          exact removed (beq_iff_eq.mp here).symm
        simp [here, ne]
      · simp only [here]
        exact ih

/-- Setting a field changes that field only. -/
@[simp] theorem get_set (r : JsRecord) (key other : String) (value : JsValue) :
    (r.set key value).get other = if key = other then value else r.get other := by
  by_cases same : key = other
  · subst same
    simp [set, get, ownField]
  · have ne : (js other == js key) = false := by simp [js_inj, Ne.symm same]
    have step : (r.set key value).get other = (r.remove key).get other := by
      simp [set, get, ownField, List.lookup_cons, ne]
    rw [step, get_remove, if_neg same, if_neg same]

end JsRecord

end NexTerminal.Exchange

namespace NexTerminal.Host.JsValue

open Exchange Library

/-- `value[key]` of an object. -/
def get (value : JsValue) (key : String) : JsValue :=
  match value with
  | .record fields => JsRecord.get fields key
  | _ => .undefined

/-- `{ ...value, [key]: held }` of an object. -/
def set (value : JsValue) (key : String) (held : JsValue) : JsValue :=
  match value with
  | .record fields => .record (JsRecord.set fields key held)
  | _ => .record (JsRecord.set [] key held)

def asString : JsValue → Option JsString
  | .string text => some text
  | _ => none

def isUndefined : JsValue → Bool
  | .undefined => true
  | _ => false

def isNull : JsValue → Bool
  | .null => true
  | _ => false

/-- `typeof value === "object" && value !== null`. -/
def isObject : JsValue → Bool
  | .array _ => true
  | .record _ => true
  | .exotic .object => true
  | _ => false

/-- `value === text`. -/
def isText (value : JsValue) (text : String) : Bool := value.asString == some (js text)

def isBoolean : JsValue → Bool
  | .boolean _ => true
  | _ => false

def isNumber : JsValue → Bool
  | .number _ => true
  | _ => false

def truthy : JsValue → Bool
  | .undefined => false
  | .null => false
  | .boolean b => b
  | .number (.finite q) => q ≠ 0
  | .number .nan => false
  | .number _ => true
  | .string text => text ≠ []
  | _ => true

def ofOption : Option JsString → JsValue
  | none => .undefined
  | some text => .string text

theorem asString_eq_some {value : JsValue} {text : JsString} : value.asString = some text ↔ value = .string text := by
  cases value <;> simp [asString]

@[simp] theorem asString_ofOption (held : Option JsString) : (ofOption held).asString = held := by
  cases held <;> rfl

@[simp] theorem get_set (value : JsValue) (key other : String) (held : JsValue) :
    (value.set key held).get other = if key = other then held else value.get other := by
  cases value with
  | record fields => exact JsRecord.get_set fields key other held
  | _ => exact JsRecord.get_set [] key other held

end NexTerminal.Host.JsValue

/-! What an import lets into the store (`utils/validation.ts`). -/

namespace NexTerminal.Exchange

open Host Library

def isNonEmptyString (value : JsValue) : Bool := value.asString.any (· ≠ [])

def isValidPort : JsValue → Bool
  | .number n => n.isInteger && n.within 1 65535
  | _ => false

def isOptionalNonEmptyString (value : JsValue) : Bool := value.isUndefined || isNonEmptyString value

def isOptionalString (value : JsValue) : Bool := value.isUndefined || value.asString.isSome

def isOptionalBoolean (value : JsValue) : Bool := value.isUndefined || value.isBoolean

def isOneOf (value : JsValue) (texts : List String) : Bool := texts.any value.isText

def validateSerialDeviceHint (value : JsValue) : Bool :=
  value.isUndefined ||
    (value.isObject && isOptionalNonEmptyString (value.get "manufacturer") &&
      isOptionalNonEmptyString (value.get "serialNumber") && isOptionalNonEmptyString (value.get "vendorId") &&
      isOptionalNonEmptyString (value.get "productId"))

def validateProxyConfig (proxy : JsValue) : Bool :=
  proxy.isObject &&
    if (proxy.get "type").isText "ssh" then isNonEmptyString (proxy.get "jumpHostId")
    else if isOneOf (proxy.get "type") ["socks5", "http"] then
      isNonEmptyString (proxy.get "host") && isValidPort (proxy.get "port") && isOptionalString (proxy.get "username")
    else false

def isValidTemplatedStamps (value : JsValue) : Bool :=
  value.isObject && ((value.get "proxy").isUndefined || validateProxyConfig (value.get "proxy")) &&
    isOptionalBoolean (value.get "multiplexing") && isOptionalBoolean (value.get "legacyAlgorithms") &&
    isOptionalBoolean (value.get "logSession") && isOptionalNonEmptyString (value.get "ipmiAuthProfileId") &&
    isOptionalNonEmptyString (value.get "ipmiGatewayServerId")

def isOptionalProtocol (value : JsValue) : Bool := value.isUndefined || isOneOf value ["ssh", "telnet"]

def isWholePort : JsValue → Bool
  | .number (.finite q) => q.isInt && decide (0 ≤ q)
  | _ => false

def isValidServerOrigin (value : JsValue) : Bool :=
  value.isObject && ((value.get "templated").isUndefined || isValidTemplatedStamps (value.get "templated")) &&
    isNonEmptyString (value.get "sourceId") && isNonEmptyString (value.get "externalId") &&
    (value.get "syncedAt").isNumber && isOptionalNonEmptyString (value.get "syncedInstanceKey") &&
    isOptionalNonEmptyString (value.get "syncedUsername") &&
      isOptionalNonEmptyString (value.get "syncedAuthProfileId") &&
    isOptionalNonEmptyString (value.get "syncedIpmiHost") && isOptionalNonEmptyString (value.get "syncedAltHost") &&
    isOptionalProtocol (value.get "syncedProtocol") && isOptionalNonEmptyString (value.get "syncedHost") &&
    ((value.get "syncedPort").isUndefined || isWholePort (value.get "syncedPort"))

def isValidDetachedServerOrigin (value : JsValue) : Bool :=
  value.isObject && isOptionalNonEmptyString (value.get "instanceKey") &&
    isOptionalNonEmptyString (value.get "syncedAuthProfileId") &&
      isOptionalNonEmptyString (value.get "syncedIpmiHost") &&
    isOptionalNonEmptyString (value.get "syncedAltHost") && isOptionalProtocol (value.get "syncedProtocol") &&
    ((value.get "templated").isUndefined || isValidTemplatedStamps (value.get "templated")) &&
    isNonEmptyString (value.get "sourceId") && isNonEmptyString (value.get "sourceName") &&
    isNonEmptyString (value.get "providerId") && isNonEmptyString (value.get "externalId") &&
    (value.get "detachedAt").isNumber

def isAuthType (value : JsValue) : Bool := isOneOf value ["password", "key", "agent"]

def isFiniteNumber : JsValue → Bool
  | .number (.finite _) => true
  | _ => false

/-- `obj.addressless === true`. -/
def isTrue : JsValue → Bool
  | .boolean b => b
  | _ => false

def validateOwnFields (obj : JsRecord) : Bool :=
  isOptionalProtocol (obj.get "protocol") && isNonEmptyString (obj.get "name") &&
    (if isTrue (obj.get "addressless") then (obj.get "host").isText "" else isNonEmptyString (obj.get "host")) &&
    (if isTrue (obj.get "addressless") then isFiniteNumber (obj.get "port") else isValidPort (obj.get "port")) &&
    (if (obj.get "protocol").isText "telnet" then isOptionalString (obj.get "username")
      else isNonEmptyString (obj.get "username")) &&
    isAuthType (obj.get "authType") && isOptionalBoolean (obj.get "legacyAlgorithms") &&
    isOptionalBoolean (obj.get "openFileExplorerOnFirstConnect") && isOptionalString (obj.get "keyPath") &&
    isOptionalString (obj.get "ipmiHost") && isOptionalString (obj.get "altHost") &&
    isOptionalString (obj.get "bmcWebProtocol")

def validateServerConfig (obj : JsRecord) : Bool :=
  validateOwnFields obj && isNonEmptyString (obj.get "id") &&
    ((obj.get "proxy").isUndefined || (obj.get "proxy").isNull || validateProxyConfig (obj.get "proxy")) &&
    isOptionalNonEmptyString (obj.get "authProfileId") && isOptionalNonEmptyString (obj.get "ipmiAuthProfileId") &&
    isOptionalNonEmptyString (obj.get "ipmiGatewayServerId")

def validateTunnelProfile (obj : JsRecord) : Bool :=
  isNonEmptyString (obj.get "id") && isNonEmptyString (obj.get "name") && isValidPort (obj.get "localPort") &&
    isNonEmptyString (obj.get "remoteIP") &&
    (isValidPort (obj.get "remotePort") || ((obj.get "tunnelType").isText "dynamic" && isZero (obj.get "remotePort")))
where
  isZero : JsValue → Bool
    | .number (.finite q) => q = 0
    | _ => false

def validateSerialProfile (obj : JsRecord) : Bool :=
  isNonEmptyString (obj.get "id") && isNonEmptyString (obj.get "name") && isNonEmptyString (obj.get "path") &&
    (obj.get "baudRate").isNumber &&
    ((obj.get "mode").isUndefined || isOneOf (obj.get "mode") ["standard", "smartFollow"]) &&
    validateSerialDeviceHint (obj.get "deviceHint")

def validateStringArray : JsValue → Bool
  | .undefined => true
  | .array items => items.all (·.asString.isSome)
  | _ => false

def validateEnv : JsValue → Bool
  | .undefined => true
  | .record fields => fields.all (·.2.asString.isSome)
  | .exotic .object => true
  | _ => false

def validateLocalShellProfile (obj : JsRecord) : Bool :=
  isNonEmptyString (obj.get "id") && isNonEmptyString (obj.get "name") &&
    (if (obj.get "launchMode").isText "vscodeProfile" then isNonEmptyString (obj.get "vscodeProfileName")
      else if (obj.get "launchMode").isText "custom" then isNonEmptyString (obj.get "shellPath")
      else false) &&
    validateStringArray (obj.get "shellArgs") && validateEnv (obj.get "env") &&
    isOptionalNonEmptyString (obj.get "group") && isOptionalNonEmptyString (obj.get "cwd") &&
    isOptionalNonEmptyString (obj.get "startupCommand")

def validateAuthProfile (obj : JsRecord) : Bool :=
  isNonEmptyString (obj.get "id") && isNonEmptyString (obj.get "name") && isNonEmptyString (obj.get "username") &&
    isAuthType (obj.get "authType") && isOptionalString (obj.get "keyPath")

end NexTerminal.Exchange
