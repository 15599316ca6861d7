import NexTerminal.Library.OrderedMap
import NexTerminal.Dhcp.Net

/-! The lease table: allocation, binding, expiry and static reservations
(`lease.rs`). Times are epoch milliseconds. The release build aborts on an integer
overflow, so sums are plain: no run goes on past a sum that does not fit. -/

namespace NexTerminal.Dhcp

open Std Library

def defaultOfferSecs : Nat := 120
def pendingOfferPoolDivisor : Nat := 2
def minPendingOffers : Nat := 8
def defaultDeclineQuarantineSecs : Nat := 600

inductive LeaseState
  | offered
  | bound
  /-- A placeholder holding a configured reservation's address out of the pool. -/
  | reserved
deriving DecidableEq

inductive LeaseType
  | dynamic | static | renewed | inform
deriving DecidableEq

def LeaseType.asStr : LeaseType → String
  | .dynamic => "dynamic"
  | .static => "static"
  | .renewed => "renewed"
  | .inform => "inform"

def LeaseType.fromStrLossy (text : Text) : Option LeaseType :=
  [LeaseType.dynamic, .static, .renewed, .inform].find? (fun kind => kind.asStr.toList == text)

structure LeaseEntry where
  address : Ipv4Addr
  state : LeaseState
  /-- Epoch ms of the first bind; `none` while only ever offered or reserved. -/
  boundAtMs : Option Nat
  expiresAtMs : Nat
  leaseSecs : Nat
  hostname : Option Text
deriving DecidableEq

/-- A reservation has no clock: it holds its address for as long as it is configured. -/
def LeaseEntry.isLive (entry : LeaseEntry) (nowMs : Nat) : Bool :=
  entry.state == .reserved || decide (entry.expiresAtMs > nowMs)

/-- Immutable snapshot of one lease, in the shape the lease file stores. -/
structure LeaseInfo where
  mac : MacKey
  ip : Ipv4Addr
  boundAt : Nat
  leaseSec : Nat
  expiresAt : Nat
  remainingSec : Nat
  hostname : Option Text
  leaseType : LeaseType
deriving DecidableEq

inductive BindOutcome
  | bound | renewed
deriving DecidableEq

/-- Which reservations `seedStaticReservations` acted on. -/
structure SeedReport where
  seeded : List (MacKey × Ipv4Addr) := []
  skipped : List (MacKey × Ipv4Addr) := []

structure LeaseTable where
  entries : TreeMap MacKey LeaseEntry compare
  statics : TreeMap MacKey Ipv4Addr compare
  /-- Declined addresses, and the epoch ms they become usable again. -/
  quarantine : TreeMap Ipv4Addr Nat compare
  rangeStart : Ipv4Addr
  rangeEnd : Ipv4Addr
  leaseSecs : Nat
  offerSecs : Nat
  quarantineSecs : Nat

namespace LeaseTable

def new (rangeStart rangeEnd : Ipv4Addr) (leaseSecs : Nat)
    (statics : TreeMap MacKey Ipv4Addr compare) : LeaseTable where
  entries := ∅
  statics := statics
  quarantine := ∅
  rangeStart := rangeStart
  rangeEnd := rangeEnd
  leaseSecs := leaseSecs
  offerSecs := defaultOfferSecs
  quarantineSecs := defaultDeclineQuarantineSecs

def isQuarantined (table : LeaseTable) (address : Ipv4Addr) (nowMs : Nat) : Bool :=
  match table.quarantine[address]? with
  | some deadline => decide (deadline > nowMs)
  | none => false

def inPool (table : LeaseTable) (address : Ipv4Addr) : Bool := isIpInPool address table.rangeStart table.rangeEnd

/-- The placeholder that holds a configured reservation. It never expires while
it is a placeholder; `isLive` short-circuits on the state. -/
def placeholder (table : LeaseTable) (address : Ipv4Addr) (nowMs : Nat) : LeaseEntry where
  address := address
  state := .reserved
  boundAtMs := none
  expiresAtMs := nowMs
  leaseSecs := table.leaseSecs
  hostname := none

/-- What seeding puts under one reserved MAC: nothing outside the pool, on the address already, or in quarantine. -/
def seedEntry (table : LeaseTable) (nowMs : Nat) (_mac : MacKey) (address : Ipv4Addr)
    (current : Option LeaseEntry) : Option LeaseEntry :=
  if !table.inPool address then none
  else if current.any (fun entry => entry.address == address) then none
  else if table.isQuarantined address nowMs then none
  else some (table.placeholder address nowMs)

/-- Holds every configured reservation that falls inside the dynamic pool out of
that pool. -/
def seedStaticReservations (table : LeaseTable) (nowMs : Nat) : LeaseTable × SeedReport :=
  ({ table with
      entries := table.statics.toList.foldl (overwriteWith (table.seedEntry nowMs)) table.entries },
    { seeded := table.statics.toList.filter fun reservation =>
        (table.seedEntry nowMs reservation.1 reservation.2 table.entries[reservation.1]?).isSome
      skipped := table.statics.toList.filter fun reservation => !table.inPool reservation.2 })

def restoredEntry (lease : LeaseInfo) : LeaseEntry where
  address := lease.ip
  state := .bound
  boundAtMs := some lease.boundAt
  expiresAtMs := lease.expiresAt
  leaseSecs := lease.leaseSec
  hostname := lease.hostname

def restore (table : LeaseTable) (leases : List LeaseInfo) : LeaseTable :=
  { table with
    entries := leases.foldl (fun entries lease => entries.insert lease.mac (restoredEntry lease))
      table.entries }

def usableReservation (table : LeaseTable) (mac : MacKey) (nowMs : Nat) : Option Ipv4Addr :=
  table.statics[mac]?.filter fun reserved => !table.isQuarantined reserved nowMs

/-- The address this client already holds, without allocating a new one. -/
def existingAddress (table : LeaseTable) (mac : MacKey) (nowMs : Nat) : Option Ipv4Addr :=
  match table.usableReservation mac nowMs with
  | some reserved => some reserved
  | none =>
    ((table.entries[mac]?.filter fun entry => entry.isLive nowMs).filter fun entry =>
      !table.isQuarantined entry.address nowMs).map LeaseEntry.address

/-- The address this client has actually been granted, as against merely offered. -/
def grantedAddress (table : LeaseTable) (mac : MacKey) (nowMs : Nat) : Option Ipv4Addr :=
  match table.usableReservation mac nowMs with
  | some reserved => some reserved
  | none =>
    ((table.entries[mac]?.filter fun entry =>
      entry.isLive nowMs && (entry.state == .bound || entry.state == .reserved)).filter fun entry =>
        !table.isQuarantined entry.address nowMs).map LeaseEntry.address

def isTakenByOther (table : LeaseTable) (address : Ipv4Addr) (mac : MacKey) (nowMs : Nat) : Bool :=
  table.isQuarantined address nowMs
    || table.statics.toList.any (fun reservation =>
        reservation.2 == address && reservation.1 != mac)
    || table.entries.toList.any (fun entry =>
        entry.1 != mac && entry.2.address == address && entry.2.isLive nowMs)

/-- The claims `lowestFreeAddress` walks: live entries of others, reservations of
others and live quarantines, as one ordered set. -/
def takenAddresses (table : LeaseTable) (mac : MacKey) (nowMs : Nat) : TreeSet Nat compare :=
  let held := table.entries.toList.filter (fun entry => entry.1 != mac && entry.2.isLive nowMs)
    |>.map fun entry => entry.2.address.toNat
  let configured := table.statics.toList.filter (fun reservation => reservation.1 != mac)
    |>.map fun reservation => reservation.2.toNat
  let contested := table.quarantine.toList.filter (fun hold => decide (hold.2 > nowMs))
    |>.map fun hold => hold.1.toNat
  ((TreeSet.ofList held compare).insertMany configured).insertMany contested

/-- The walk over the ordered claims: `none` when the candidate runs off the
address space (`checked_add`). -/
def firstGap : Nat → List Nat → Option Nat
  | candidate, [] => some candidate
  | candidate, used :: rest =>
    if used < candidate then firstGap candidate rest
    else if used = candidate then
      if candidate + 1 < 2 ^ 32 then firstGap (candidate + 1) rest else none
    else some candidate

def lowestFreeAddress (table : LeaseTable) (mac : MacKey) (nowMs : Nat) : Option Ipv4Addr :=
  let first := table.rangeStart.toNat
  let last := table.rangeEnd.toNat
  if first > last then none
  else
    match firstGap first (table.takenAddresses mac nowMs).toList with
    | none => none
    | some candidate => if candidate > last then none else some (.ofNat candidate)

/-- Chooses the address to offer or acknowledge to `mac`: its reservation, the
address it already holds, the address it asked for, the lowest free one. -/
def selectAddress (table : LeaseTable) (mac : MacKey) (requested : Option Ipv4Addr) (nowMs : Nat) : Option Ipv4Addr :=
  match table.existingAddress mac nowMs with
  | some existing => some existing
  | none =>
    match requested with
    | some wanted =>
      if table.inPool wanted && !table.isTakenByOther wanted mac nowMs then some wanted
      else table.lowestFreeAddress mac nowMs
    | none => table.lowestFreeAddress mac nowMs

/-- True when unclaimed offers already hold the share of the pool they may. -/
def offerCapacityReached (table : LeaseTable) (nowMs : Nat) : Bool :=
  let cap := max (poolSize table.rangeStart table.rangeEnd / pendingOfferPoolDivisor) minPendingOffers
  let pending := (table.entries.toList.filter fun entry =>
    entry.2.state == .offered && entry.2.isLive nowMs).length
  decide (pending ≥ cap)

/-- A device that already holds a bound lease on `address`. -/
def holdsBound (previous : Option LeaseEntry) (address : Ipv4Addr) : Bool :=
  previous.any fun entry => entry.state == .bound && entry.address == address

/-- The entry an OFFER leaves: a device that already holds the address under a
bound lease keeps its full remaining term. -/
def offeredEntry (table : LeaseTable) (previous : Option LeaseEntry) (address : Ipv4Addr)
    (hostname : Option Text) (nowMs : Nat) : LeaseEntry where
  address := address
  state := if holdsBound previous address then .bound else .offered
  boundAtMs := previous.bind LeaseEntry.boundAtMs
  expiresAtMs :=
    match previous with
    | some entry =>
      if entry.state == .bound && entry.address == address then
        max entry.expiresAtMs (nowMs + table.offerSecs * 1000)
      else nowMs + table.offerSecs * 1000
    | none => nowMs + table.offerSecs * 1000
  leaseSecs := table.leaseSecs
  hostname := hostname.or (previous.bind LeaseEntry.hostname)

def offer (table : LeaseTable) (mac : MacKey) (address : Ipv4Addr) (hostname : Option Text)
    (nowMs : Nat) : LeaseTable :=
  { table with
    entries := table.entries.insert mac
      (table.offeredEntry table.entries[mac]? address hostname nowMs) }

def alreadyBound (previous : Option LeaseEntry) (address : Ipv4Addr) : Bool :=
  previous.any fun entry =>
    entry.state == .bound && entry.address == address && entry.boundAtMs.isSome

def boundEntry (table : LeaseTable) (previous : Option LeaseEntry) (address : Ipv4Addr)
    (hostname : Option Text) (nowMs : Nat) : LeaseEntry where
  address := address
  state := .bound
  boundAtMs := some
    (if alreadyBound previous address then (previous.bind LeaseEntry.boundAtMs).getD nowMs
     else nowMs)
  expiresAtMs := nowMs + table.leaseSecs * 1000
  leaseSecs := table.leaseSecs
  hostname := hostname.or (previous.bind LeaseEntry.hostname)

/-- Records an ACK. Returns whether this was a first bind or a renewal. -/
def bind (table : LeaseTable) (mac : MacKey) (address : Ipv4Addr) (hostname : Option Text)
    (nowMs : Nat) : LeaseTable × BindOutcome :=
  ({ table with
      entries := table.entries.insert mac
        (table.boundEntry table.entries[mac]? address hostname nowMs) },
    if alreadyBound table.entries[mac]? address then .renewed else .bound)

/-- Releases a claim of this MAC without an address match. A MAC with an in-pool
reservation drops back to the placeholder. -/
def releaseAny (table : LeaseTable) (mac : MacKey) (nowMs : Nat) : LeaseTable × Option Ipv4Addr :=
  match table.entries[mac]? with
  | none => (table, none)
  | some entry =>
    let removed := table.entries.erase mac
    match table.statics[mac]? with
    | some reserved =>
      if table.inPool reserved then
        ({ table with entries := removed.insert mac (table.placeholder reserved nowMs) }, some entry.address)
      else ({ table with entries := removed }, some entry.address)
    | none => ({ table with entries := removed }, some entry.address)

/-- Gives an address back on DHCPRELEASE. Returns the address released. -/
def release (table : LeaseTable) (mac : MacKey) (address : Ipv4Addr) (nowMs : Nat) : LeaseTable × Option Ipv4Addr :=
  if table.entries[mac]?.map LeaseEntry.address ≠ some address then (table, none)
  else table.releaseAny mac nowMs

/-- Handles a DHCPDECLINE: the entry is dropped and the address is quarantined. -/
def decline (table : LeaseTable) (mac : MacKey) (declined : Ipv4Addr) (nowMs : Nat) : LeaseTable × Option Ipv4Addr :=
  match table.entries[mac]? with
  | none => (table, none)
  | some entry =>
    if entry.address ≠ declined then (table, none)
    else
      ({ table with
          entries := table.entries.erase mac
          quarantine := table.quarantine.insert entry.address
            (nowMs + table.quarantineSecs * 1000) },
        some entry.address)

/-- The live quarantine deadlines, for persisting alongside the leases. -/
def quarantineSnapshot (table : LeaseTable) (nowMs : Nat) : List (Ipv4Addr × Nat) :=
  table.quarantine.toList.filter fun hold => decide (hold.2 > nowMs)

/-- Reinstates quarantine deadlines read back from the lease file, skipping those
that have already passed. -/
def restoreQuarantine (table : LeaseTable) (held : List (Ipv4Addr × Nat)) (nowMs : Nat) : LeaseTable :=
  { table with
    quarantine := held.foldl
      (fun quarantine hold => if hold.2 > nowMs then quarantine.insert hold.1 hold.2 else quarantine)
      table.quarantine }

def lapsed (table : LeaseTable) (nowMs : Nat) : List (MacKey × Ipv4Addr) :=
  (table.entries.toList.filter fun entry => !entry.2.isLive nowMs).map fun entry =>
    (entry.1, entry.2.address)

def swept (table : LeaseTable) (nowMs : Nat) : LeaseTable :=
  { table with
    quarantine := table.quarantine.filter fun _ deadline => decide (deadline > nowMs)
    entries := ((table.lapsed nowMs).map Prod.fst).foldl (fun entries mac => entries.erase mac)
      table.entries }

/-- Removes every claim whose term has run out. Seeding, so placeholders, only after a sweep that removed something.
-/
def expire (table : LeaseTable) (nowMs : Nat) : LeaseTable × List (MacKey × Ipv4Addr) :=
  let dead := table.lapsed nowMs
  if dead.isEmpty then (table.swept nowMs, dead)
  else (((table.swept nowMs).seedStaticReservations nowMs).1, dead)

def leaseTypeFor (table : LeaseTable) (mac : MacKey) (address : Ipv4Addr) : LeaseType :=
  if table.statics[mac]? = some address then .static else .dynamic

def infoFor (table : LeaseTable) (mac : MacKey) (entry : LeaseEntry) (nowMs : Nat) : LeaseInfo where
  mac := mac
  ip := entry.address
  boundAt := entry.boundAtMs.getD nowMs
  leaseSec := entry.leaseSecs
  expiresAt := entry.expiresAtMs
  remainingSec := (entry.expiresAtMs - nowMs) / 1000
  hostname := entry.hostname
  leaseType := table.leaseTypeFor mac entry.address

/-- Everything a client currently holds: offers included, reservations not. -/
def activeLeases (table : LeaseTable) (nowMs : Nat) : List LeaseInfo :=
  (table.entries.toList.filter fun entry =>
    entry.2.state != .reserved && entry.2.isLive nowMs).map fun entry =>
      table.infoFor entry.1 entry.2 nowMs

def persistableLeases (table : LeaseTable) (nowMs : Nat) : List LeaseInfo :=
  (table.entries.toList.filter fun entry =>
    entry.2.state == .bound && entry.2.isLive nowMs).map fun entry =>
      table.infoFor entry.1 entry.2 nowMs

end LeaseTable

end NexTerminal.Dhcp
