import NexTerminal.Host.ConfigValidation

/-! How the host validates a DHCP runtime answer (`networkServerRpcProtocol.ts`). A
parser that hands back `undefined` is `none` here. -/

namespace NexTerminal.Host

open Library

def maxRpcLineBytes : Nat := 1048576
def maxRpcTextFieldHeadroomBytes : Nat := 1024
def maxRpcTextBytes : Nat := maxRpcLineBytes - maxRpcTextFieldHeadroomBytes

/-- Dynamic-pool leases plus every configured static reservation may be active together. -/
def maxDhcpRuntimeLeases : Nat := maxDhcpPoolSize + maxStaticReservations
def maxNetworkAddressBytes : Nat := 255
def maxDhcpFieldBytes : Nat := 255
def maxPort : Nat := 65535

inductive RpcServiceId
  | tftp | dhcp
deriving DecidableEq

inductive RpcServerStatus
  | stopped | starting | running | stopping | error
deriving DecidableEq

inductive RpcLeaseType
  | dynamic | static | renewed | inform
deriving DecidableEq

structure RpcServerSnapshot where
  id : RpcServiceId
  name : JsString
  port : ℚ
  status : RpcServerStatus
  errorMessage : Option JsString

/-- `clientId` is absent, `null` or a string. -/
structure RpcDhcpLease where
  mac : JsString
  ip : JsString
  boundAt : ℚ
  leaseSec : ℚ
  expiresAt : ℚ
  remainingSec : ℚ
  hostname : Option JsString
  leaseType : RpcLeaseType
  clientId : Option (Option JsString)

structure RpcDhcpPacketCounters where
  packetsReceived : ℚ
  packetsSentEstimate : ℚ
  discoverCount : ℚ
  offerCount : ℚ
  requestCount : ℚ
  declineCount : ℚ
  ackCount : ℚ
  nakCount : ℚ
  releaseCount : ℚ
  informCount : ℚ

structure RpcDhcpPoolInfo where
  rangeStart : JsString
  rangeEnd : JsString
  poolSize : ℚ
  activeCount : ℚ
  utilizationPct : ℚ
  staticEntryCount : ℚ

structure RpcDhcpRuntimeSnapshot where
  snapshot : RpcServerSnapshot
  leases : List RpcDhcpLease
  packetCounters : RpcDhcpPacketCounters
  poolInfo : RpcDhcpPoolInfo
  boundPort : Option ℚ

abbrev Fields := List (JsString × JsValue)

def fieldsOf : JsValue → Option Fields
  | .record fields => some fields
  | _ => none

def hasExactShape (fields : Fields) (allowed required : List String) : Bool :=
  fields.all (fun field => (allowed.map js).contains field.1)
    && required.all fun key => (ownField fields key).isSome

def exactFields (value : JsValue) (allowed required : List String) : Option Fields :=
  (fieldsOf value).filter fun fields => hasExactShape fields allowed required

def arrayValues (value : JsValue) (maximumEntries : Nat) : Option (List JsValue) :=
  match value with
  | .array items => if items.length > maximumEntries then none else some items
  | _ => none

def parsedArray {α : Type} (value : JsValue) (maximumEntries : Nat) (parse : JsValue → Option α) :
    Option (List α) := do
  (← arrayValues value maximumEntries).mapM parse

def boundedString (value : JsValue) (maximumBytes : Nat) (allowEmpty : Bool) : Option JsString :=
  match value with
  | .string text =>
    if !allowEmpty && text.isEmpty then none
    else if utf8Bytes text ≤ maximumBytes then some text
    else none
  | _ => none

def checkedNumber (check : JsNumber → Bool) : JsValue → Option ℚ
  | .number (.finite q) => if check (.finite q) then some q else none
  | _ => none

def safeInteger (value : JsValue) (minimum maximum : Nat) : Option ℚ :=
  checkedNumber (fun n => n.isSafeInteger && n.within minimum maximum) value

def finiteNumber (value : JsValue) (minimum maximum : ℚ) : Option ℚ :=
  checkedNumber (fun n => n.within minimum maximum) value

def port (value : JsValue) : Option ℚ := safeInteger value 0 maxPort

def nullablePort : JsValue → Option (Option ℚ)
  | .null => some none
  | value => (port value).map some

def enumeration {α : Type} (names : List (String × α)) : JsValue → Option α
  | .string text => (names.find? fun entry => js entry.1 == text).map Prod.snd
  | _ => none

def serviceId : JsValue → Option RpcServiceId := enumeration [("tftp", .tftp), ("dhcp", .dhcp)]

def serverStatus : JsValue → Option RpcServerStatus :=
  enumeration [("stopped", .stopped), ("starting", .starting), ("running", .running),
    ("stopping", .stopping), ("error", .error)]

def dhcpLeaseType : JsValue → Option RpcLeaseType :=
  enumeration [("dynamic", .dynamic), ("static", .static), ("renewed", .renewed), ("inform", .inform)]

/-- A string, or `null`. -/
def nullableString (value : JsValue) (maximumBytes : Nat) : Option (Option JsString) :=
  match value with
  | .null => some none
  | value => (boundedString value maximumBytes true).map some

/-- `fields.get(key)`. -/
def field (fields : Fields) (key : String) : JsValue := (ownField fields key).getD .undefined

def optionalField {α : Type} (fields : Fields) (key : String) (parse : JsValue → Option α) : Option (Option α) :=
  match ownField fields key with
  | none => some none
  | some value => (parse value).map some

def parseSnapshot (value : JsValue) : Option RpcServerSnapshot := do
  let fields ← exactFields value ["id", "name", "port", "status", "errorMessage"]
    ["id", "name", "port", "status"]
  let id ← serviceId (field fields "id")
  let name ← boundedString (field fields "name") maxRpcTextBytes false
  let parsedPort ← port (field fields "port")
  let status ← serverStatus (field fields "status")
  let errorMessage ← optionalField fields "errorMessage" fun text =>
    boundedString text maxRpcTextBytes true
  return { id := id, name := name, port := parsedPort, status := status, errorMessage := errorMessage }

def parseDhcpLease (value : JsValue) : Option RpcDhcpLease := do
  let fields ← exactFields value
    ["mac", "ip", "boundAt", "leaseSec", "expiresAt", "remainingSec", "hostname", "leaseType", "clientId"]
    ["mac", "ip", "boundAt", "leaseSec", "expiresAt", "remainingSec", "hostname", "leaseType"]
  let mac ← boundedString (field fields "mac") maxDhcpFieldBytes false
  let ip ← boundedString (field fields "ip") maxNetworkAddressBytes false
  let boundAt ← safeInteger (field fields "boundAt") 0 maxSafeInteger
  let leaseSec ← safeInteger (field fields "leaseSec") 0 maxSafeInteger
  let expiresAt ← safeInteger (field fields "expiresAt") 0 maxSafeInteger
  let remainingSec ← safeInteger (field fields "remainingSec") 0 maxSafeInteger
  let hostname ← nullableString (field fields "hostname") maxDhcpFieldBytes
  let leaseType ← dhcpLeaseType (field fields "leaseType")
  let clientId ← optionalField fields "clientId" fun value => nullableString value maxDhcpFieldBytes
  return {
    mac := mac, ip := ip, boundAt := boundAt, leaseSec := leaseSec, expiresAt := expiresAt
    remainingSec := remainingSec, hostname := hostname, leaseType := leaseType, clientId := clientId }

def counterKeys : List String :=
  ["packetsReceived", "packetsSentEstimate", "discoverCount", "offerCount", "requestCount",
    "declineCount", "ackCount", "nakCount", "releaseCount", "informCount"]

def parsePacketCounters (value : JsValue) : Option RpcDhcpPacketCounters := do
  let fields ← exactFields value counterKeys counterKeys
  let count (key : String) : Option ℚ := safeInteger (field fields key) 0 maxSafeInteger
  return {
    packetsReceived := ← count "packetsReceived"
    packetsSentEstimate := ← count "packetsSentEstimate"
    discoverCount := ← count "discoverCount"
    offerCount := ← count "offerCount"
    requestCount := ← count "requestCount"
    declineCount := ← count "declineCount"
    ackCount := ← count "ackCount"
    nakCount := ← count "nakCount"
    releaseCount := ← count "releaseCount"
    informCount := ← count "informCount" }

def poolKeys : List String :=
  ["rangeStart", "rangeEnd", "poolSize", "activeCount", "utilizationPct", "staticEntryCount"]

def parsePoolInfo (value : JsValue) : Option RpcDhcpPoolInfo := do
  let fields ← exactFields value poolKeys poolKeys
  let rangeStart ← boundedString (field fields "rangeStart") maxNetworkAddressBytes false
  let rangeEnd ← boundedString (field fields "rangeEnd") maxNetworkAddressBytes false
  let poolSize ← safeInteger (field fields "poolSize") 0 maxDhcpPoolSize
  let activeCount ← safeInteger (field fields "activeCount") 0 maxDhcpRuntimeLeases
  let utilizationPct ← finiteNumber (field fields "utilizationPct") 0 100
  let staticEntryCount ← safeInteger (field fields "staticEntryCount") 0 maxStaticReservations
  return {
    rangeStart := rangeStart, rangeEnd := rangeEnd, poolSize := poolSize, activeCount := activeCount
    utilizationPct := utilizationPct, staticEntryCount := staticEntryCount }

def runtimeKeys : List String := ["snapshot", "leases", "packetCounters", "poolInfo", "boundPort"]

/-- The lease array is a view, not the count: fewer than the pool claims is fine, more is
not. -/
def parseDhcpRuntime (fields : Fields) : Option RpcDhcpRuntimeSnapshot := do
  if !hasExactShape fields runtimeKeys runtimeKeys then none
  let snapshot ← parseSnapshot (field fields "snapshot")
  let leases ← parsedArray (field fields "leases") maxDhcpRuntimeLeases parseDhcpLease
  let packetCounters ← parsePacketCounters (field fields "packetCounters")
  let poolInfo ← parsePoolInfo (field fields "poolInfo")
  let boundPort ← nullablePort (field fields "boundPort")
  if snapshot.id ≠ .dhcp ∨ (leases.length : ℚ) > poolInfo.activeCount then none
  return {
    snapshot := snapshot, leases := leases, packetCounters := packetCounters, poolInfo := poolInfo
    boundPort := boundPort }

end NexTerminal.Host
