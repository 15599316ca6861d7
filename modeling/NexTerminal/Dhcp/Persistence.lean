import NexTerminal.Library.Json
import NexTerminal.Dhcp.Lease
import NexTerminal.Dhcp.Protocol

/-! The on-disk lease table (`persistence.rs`): reading, reconciling, writing.
The JSON parser and the printing of floats are left open; a file is its text, or
`none` when it is absent or not readable as text. -/

namespace NexTerminal.Dhcp

open Std Library

def maxDhcpPoolSize : Nat := 65536
def maxStaticReservations : Nat := 1024
def leaseStoreVersion : Nat := 1

/-- The largest integer the host can carry back out of a lease. -/
def maxSafeIntegerMs : Nat := 9007199254740991

def maxLeaseRecordBytes : Nat := 1024

def maxPersistedLeases : Nat := maxDhcpPoolSize + maxStaticReservations

def maxLeaseFileBytes : Nat := maxPersistedLeases * maxLeaseRecordBytes + 4096

inductive DropReason
  | expired | staticConflict | outOfPool | duplicateAddress
deriving DecidableEq

def DropReason.asStr : DropReason → String
  | .expired => "expired"
  | .staticConflict => "static-conflict"
  | .outOfPool => "out-of-pool"
  | .duplicateAddress => "duplicate-address"

structure DroppedLease where
  lease : LeaseInfo
  reason : DropReason
deriving DecidableEq

structure ReconcileResult where
  restored : List LeaseInfo := []
  dropped : List DroppedLease := []
deriving DecidableEq

/-- The configuration a persisted lease has to still agree with. -/
structure ReconcileContext where
  statics : TreeMap MacKey Ipv4Addr compare
  rangeStart : Ipv4Addr
  rangeEnd : Ipv4Addr
  nowMs : Nat

structure LeaseStore where
  leases : List LeaseInfo := []
  quarantine : List (Ipv4Addr × Nat) := []

/-- Accepts a JSON number that is a finite, non-negative epoch-millisecond value.
The cast to `u64` truncates and saturates; values the host cannot carry are
rejected. -/
def finiteMs (value : Json) : Option Nat := do
  let number ← value.asF64
  if number < 0 then none
  let millis := min number.floor.toNat (2 ^ 64 - 1)
  if millis ≤ maxSafeIntegerMs then some millis else none

/-- The lease length: any non-negative number, clamped to a `u32`. -/
def leaseSecFromJson (value : Json) : Option Nat := do
  let number ← value.asF64
  if number < 0 then none
  some (min number.floor.toNat (2 ^ 32 - 1))

/-- A missing or null hostname is none; anything but text is a malformed record. -/
def hostnameFromJson : Option Json → Option (Option Text)
  | none => some none
  | some .null => some none
  | some (.string text) => some (some (sanitizeText text))
  | some _ => none

/-- Rejects anything that is not a complete, well-typed lease record. -/
def leaseFromJson (value : Json) : Option LeaseInfo := do
  let rawMac ← ((← value.get "mac").asStr).filter fun text => !text.isEmpty
  let mac ← (MacKey.parse rawMac).or (MacKey.fromWireKey rawMac)
  let ip ← parseIpv4 (← (← value.get "ip").asStr)
  let boundAt ← finiteMs (← value.get "boundAt")
  let leaseSec ← leaseSecFromJson (← value.get "leaseSec")
  let expiresAt ← finiteMs (← value.get "expiresAt")
  let hostname ← hostnameFromJson (value.get "hostname")
  let leaseType ← LeaseType.fromStrLossy (← (← value.get "leaseType").asStr)
  return {
    mac := mac, ip := ip, boundAt := boundAt, leaseSec := leaseSec, expiresAt := expiresAt
    remainingSec := (expiresAt - boundAt) / 1000, hostname := hostname, leaseType := leaseType }

def quarantineFromJson (value : Json) : Option (Ipv4Addr × Nat) := do
  let address ← parseIpv4 (← (← value.get "ip").asStr)
  let deadline ← finiteMs (← value.get "until")
  return (address, deadline)

/-- Reads the persisted lease table and its quarantine deadlines. Every failure
mode degrades to an empty store; junk is filtered record by record. -/
def loadStore (fromStr : Text → Option Json) (file : Option Text) : LeaseStore :=
  match file with
  | none => {}
  | some raw =>
    if byteLen raw > maxLeaseFileBytes then {}
    else
      match fromStr raw with
      | none => {}
      | some parsed =>
        if (parsed.get "version").bind Json.asU64 ≠ some leaseStoreVersion then {}
        else
          match (parsed.get "leases").bind Json.asArray with
          | none => {}
          | some entries =>
            { leases := (entries.filterMap leaseFromJson).take maxPersistedLeases
              quarantine :=
                match (parsed.get "quarantine").bind Json.asArray with
                | none => []
                | some held => (held.filterMap quarantineFromJson).take maxPersistedLeases }

def jsonNat (n : Nat) : Json := .number (.posInt n)

def hostnameToJson : Option Text → Json
  | some text => .string text
  | none => .null

def leaseToJson (lease : LeaseInfo) : Json :=
  .object [
    ("boundAt", jsonNat lease.boundAt),
    ("expiresAt", jsonNat lease.expiresAt),
    ("hostname", hostnameToJson lease.hostname),
    ("ip", .string lease.ip.toText),
    ("leaseSec", jsonNat lease.leaseSec),
    ("leaseType", .string lease.leaseType.asStr.toList),
    ("mac", .string lease.mac.text),
    ("remainingSec", jsonNat lease.remainingSec)]

def quarantineToJson (hold : Ipv4Addr × Nat) : Json :=
  .object [("ip", .string hold.1.toText), ("until", jsonNat hold.2)]

/-- The payload `save_leases` writes. -/
def storePayload (savedAt : Nat) (leases : List LeaseInfo) (quarantine : List (Ipv4Addr × Nat)) : Json :=
  .object [
    ("leases", .array (leases.map leaseToJson)),
    ("quarantine", .array (quarantine.map quarantineToJson)),
    ("savedAt", jsonNat savedAt),
    ("version", jsonNat leaseStoreVersion)]

/-- The text a successful `save_leases` publishes over the lease file. -/
def saveLeases (printFloat : ℚ → Text) (savedAt : Nat) (leases : List LeaseInfo)
    (quarantine : List (Ipv4Addr × Nat)) : Text :=
  (storePayload savedAt leases quarantine).toStringPretty printFloat 0

def reconcileStep (context : ReconcileContext) (state : ReconcileResult × List Ipv4Addr)
    (lease : LeaseInfo) : ReconcileResult × List Ipv4Addr :=
  let (result, claimed) := state
  let drop (reason : DropReason) : ReconcileResult × List Ipv4Addr :=
    ({ result with dropped := result.dropped ++ [⟨lease, reason⟩] }, claimed)
  let keep (kind : LeaseType) : ReconcileResult × List Ipv4Addr :=
    ({ result with restored := result.restored ++ [{ lease with leaseType := kind }] }, lease.ip :: claimed)
  if lease.expiresAt ≤ context.nowMs then drop .expired
  else
    match context.statics[lease.mac]? with
    | some reserved =>
      if reserved = lease.ip then
        if lease.ip ∉ claimed then keep .static else drop .duplicateAddress
      else drop .staticConflict
    | none =>
      if context.statics.toList.any (fun reservation => reservation.2 == lease.ip) then
        drop .staticConflict
      else if !isIpInPool lease.ip context.rangeStart context.rangeEnd then drop .outOfPool
      else if lease.ip ∈ claimed then drop .duplicateAddress
      else keep .dynamic

/-- Decides which persisted leases may be restored under the configuration
currently in effect. -/
def reconcile (leases : List LeaseInfo) (context : ReconcileContext) : ReconcileResult :=
  (leases.foldl (reconcileStep context) ({}, [])).1

end NexTerminal.Dhcp
