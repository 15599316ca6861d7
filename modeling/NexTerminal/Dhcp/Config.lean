import NexTerminal.Dhcp.Engine

/-! The daemon's DHCP settings and how they become engine options (`config.rs`).
The bind address and port are parsed for their errors; the engine core does not
read them. -/

namespace NexTerminal.Dhcp

open Std Library

def maxIpv4AddressesPerDhcpOption : Nat := maxOptionValueBytes / 4
def maxPathBytes : Nat := 4096
def minDhcpLeaseSeconds : Nat := 60
def maxDhcpLeaseSeconds : Nat := 604800
def defaultBroadcast : Ipv4Addr := .new 192 168 2 255

structure DhcpConfig where
  port : Option UInt16 := none
  rangeStart : Option Text := none
  rangeEnd : Option Text := none
  subnet : Option Text := none
  gateway : Option Text := none
  dns : Option (List Text) := none
  leaseTimeSec : Option Nat := none
  serverId : Option Text := none
  broadcast : Option Text := none
  /-- MAC → IP reservations, keyed as the operator typed them. -/
  statics : Option (TreeMap Text Text compare) := none
  bindAddress : Option Text := none
  leaseStorePath : Option Text := none
  bootFileName : Option Text := none
  nextServer : Option Text := none
  tftpServerAddresses : Option (List Text) := none
  vendorClassId : Option Text := none
  vendorSpecificOptions : Option (List VendorEntry) := none
  allowRelayAgents : Option Bool := none

/-- Derives the broadcast address as `(gateway & mask) | !mask`. -/
def broadcastAddress (gateway netmask : Ipv4Addr) : Ipv4Addr :=
  if gateway = 0 ∨ netmask = 0 then defaultBroadcast else (gateway &&& netmask) ||| ~~~netmask

def parseOptionalIpv4 (raw : Option Text) (label : String) : Except String (Option Ipv4Addr) :=
  match raw with
  | none => .ok none
  | some text =>
    if (trim text).isEmpty then .ok none
    else
      match parseIpv4 (trim text) with
      | some address => .ok (some address)
      | none => .error s!"{label} ('{String.ofList text}') is not a valid IPv4 address."

def parseListedIpv4 (label : String) (text : Text) : Except String Ipv4Addr :=
  match parseIpv4 (trim text) with
  | some address => .ok address
  | none => .error s!"{label} ('{String.ofList text}') is not a valid IPv4 address."

def parseIpv4List (values : List Text) (label : String) : Except String (List Ipv4Addr) := do
  let parsed ← (values.filter fun text => !(trim text).isEmpty).mapM (parseListedIpv4 label)
  if parsed.length > maxIpv4AddressesPerDhcpOption then
    throw (s!"{label} list has {parsed.length} address(es); DHCP options can carry at most "
      ++ s!"{maxIpv4AddressesPerDhcpOption}.")
  return parsed

/-- The reservations accepted so far, and who owns each address. -/
abbrev ParsedReservations := TreeMap MacKey Ipv4Addr compare × TreeMap Ipv4Addr MacKey compare

def parseReservation (parsed : ParsedReservations) (entry : Text × Text) : Except String ParsedReservations :=
  let mac := String.ofList entry.1
  match parseIpv4 (trim entry.2) with
  | none =>
    .error (s!"Static reservation for '{mac}' is not a valid IPv4 address: "
      ++ s!"'{String.ofList entry.2}'.")
  | some address =>
    match MacKey.parse entry.1 with
    | none =>
      .error (s!"Static reservation MAC address '{mac}' is not a canonicalizable six-octet "
        ++ "address.")
    | some key =>
      if parsed.1.contains key then
        .error s!"Static reservation for '{mac}' duplicates a reservation this MAC already has."
      else
        match parsed.2[address]? with
        | some owner =>
          .error s!"Static reservation address '{address.display}' is already reserved by {owner}."
        | none => .ok (parsed.1.insert key address, parsed.2.insert address key)

def parseStaticReservations (map : TreeMap Text Text compare) : Except String (TreeMap MacKey Ipv4Addr compare) := do
  if map.size > maxStaticReservations then
    throw (s!"Static reservations has {map.size} entries; the maximum is "
      ++ s!"{maxStaticReservations}.")
  let parsed ← map.toList.foldlM parseReservation (∅, ∅)
  return parsed.1

def checkBindAddress (bindAddress : Option Text) : Except String Unit :=
  match bindAddress with
  | none => .ok ()
  | some raw =>
    if (trim raw).isEmpty then .ok ()
    else
      match parseIpv4 (trim raw) with
      | some _ => .ok ()
      | none =>
        .error (s!"'{String.ofList raw}' is not a valid IPv4 address for the DHCP interface "
          ++ "setting. Leave it empty to serve on all interfaces.")

def resolveSubnet (subnet : Option Text) (fallback : Ipv4Addr) : Except String Ipv4Addr := do
  match ← parseOptionalIpv4 subnet "Subnet Mask" with
  | none => return fallback
  | some value =>
    if !isContiguousMask value then
      throw (s!"Subnet Mask ('{value.display}') is not a netmask — its set bits must be "
        ++ "contiguous.")
    return value

def resolveLeaseSecs (leaseTimeSec : Option Nat) : Except String Nat :=
  match leaseTimeSec with
  | none => .ok defaultLeaseSecs
  | some seconds =>
    if seconds < minDhcpLeaseSeconds ∨ maxDhcpLeaseSeconds < seconds then
      .error (s!"Lease time must be between {minDhcpLeaseSeconds} and "
        ++ s!"{maxDhcpLeaseSeconds} seconds.")
    else .ok seconds

def resolveLeaseStorePath (leaseStorePath : Option Text) : Except String (Option Text) :=
  match (leaseStorePath.map trim).filter fun path => !path.isEmpty with
  | none => .ok none
  | some path =>
    if byteLen path > maxPathBytes then
      .error s!"Lease store path is {byteLen path} bytes; the maximum is {maxPathBytes}."
    else .ok (some path)

def resolveDns (dns : Option (List Text)) (fallback : List Ipv4Addr) : Except String (List Ipv4Addr) :=
  match dns with
  | some list => parseIpv4List list "DNS server"
  | none => .ok fallback

def resolveStatics (statics : Option (TreeMap Text Text compare)) : Except String (TreeMap MacKey Ipv4Addr compare) :=
  match statics with
  | some map => parseStaticReservations map
  | none => .ok ∅

namespace DhcpConfig

def resolveBoot (config : DhcpConfig) : Except String BootOptions := do
  let tftpServers ← match config.tftpServerAddresses with
    | some list => parseIpv4List list "TFTP server address"
    | none => .ok []
  match BootOptions.new config.nextServer config.bootFileName tftpServers config.vendorClassId
      (config.vendorSpecificOptions.getD []) with
  | .ok boot => return boot
  | .error error => throw s!"invalid DHCP boot options: {error.display}"

/-- Turns the payload into engine options, or explains why it cannot. -/
def resolve (config : DhcpConfig) : Except String EngineOptions := do
  let defaults : EngineOptions := {}
  checkBindAddress config.bindAddress
  let rangeStart := (← parseOptionalIpv4 config.rangeStart "Pool Start").getD defaults.rangeStart
  let rangeEnd := (← parseOptionalIpv4 config.rangeEnd "Pool End").getD defaults.rangeEnd
  let subnet ← resolveSubnet config.subnet defaults.subnet
  let gateway := (← parseOptionalIpv4 config.gateway "Gateway").getD defaults.gateway
  let serverId := (← parseOptionalIpv4 config.serverId "Server Identifier").getD defaults.serverId
  let broadcast := (← parseOptionalIpv4 config.broadcast "Broadcast").getD
    (broadcastAddress gateway subnet)
  let dns ← resolveDns config.dns defaults.dns
  let leaseSecs ← resolveLeaseSecs config.leaseTimeSec
  let statics ← resolveStatics config.statics
  let leaseStorePath ← resolveLeaseStorePath config.leaseStorePath
  let boot ← config.resolveBoot
  let options : EngineOptions := {
    rangeStart := rangeStart, rangeEnd := rangeEnd, subnet := subnet, gateway := gateway
    dns := dns, leaseSecs := leaseSecs, serverId := serverId, broadcast := broadcast
    statics := statics, leaseStorePath := leaseStorePath, boot := boot
    allowRelayAgents := config.allowRelayAgents.getD false }
  options.validate
  return options

end DhcpConfig

def DistinctReservations (statics : TreeMap MacKey Ipv4Addr compare) : Prop :=
  ∀ (mac other : MacKey) (address : Ipv4Addr),
    statics[mac]? = some address → statics[other]? = some address → mac = other

/-- Every reserved MAC is in the canonical six-octet spelling. -/
def CanonicalReservations (statics : TreeMap MacKey Ipv4Addr compare) : Prop :=
  ∀ (mac : MacKey) (address : Ipv4Addr), statics[mac]? = some address → ∃ raw, MacKey.parse raw = some mac

structure EngineOptions.Validated (options : EngineOptions) : Prop where
  distinct : DistinctReservations options.statics
  canonical : CanonicalReservations options.statics
  few : options.statics.size ≤ maxStaticReservations
  pool : 0 < poolSize options.rangeStart options.rangeEnd ∧
    poolSize options.rangeStart options.rangeEnd ≤ maxDhcpPoolSize
  dnsFits : options.dns.length * 4 ≤ maxOptionValueBytes
  leaseBound : options.leaseSecs ≤ maxDhcpLeaseSeconds

structure ReservationsParsed (parsed : ParsedReservations) : Prop where
  owners : ∀ (mac : MacKey) (address : Ipv4Addr), parsed.1[mac]? = some address ↔ parsed.2[address]? = some mac
  canonical : CanonicalReservations parsed.1

theorem parseReservation_ok {parsed next : ParsedReservations} {entry : Text × Text}
    (step : parseReservation parsed entry = .ok next) :
    ∃ addr key, MacKey.parse entry.1 = some key ∧ parsed.1[key]? = none ∧
      parsed.2[addr]? = none ∧ next = (parsed.1.insert key addr, parsed.2.insert addr key) := by
  unfold parseReservation at step
  split at step
  · cases step
  · rename_i addr _
    split at step
    · cases step
    · rename_i key atKey
      split at step
      · cases step
      · rename_i absent
        split at step
        · cases step
        · rename_i free
          cases step
          refine ⟨addr, key, atKey, ?_, free, rfl⟩
          simpa using absent

theorem ReservationsParsed.step {parsed next : ParsedReservations} {entry : Text × Text}
    (pre : ReservationsParsed parsed) (step : parseReservation parsed entry = .ok next) :
    ReservationsParsed next := by
  obtain ⟨address, key, atKey, newKey, newAddress, rfl⟩ := parseReservation_ok step
  constructor
  · intro mac x
    simp only [TreeMap.getElem?_insert_eq]
    by_cases sameKey : key = mac
    · subst sameKey
      by_cases sameAddress : address = x
      · simp [sameAddress]
      · have unowned : parsed.2[x]? ≠ some key := by rw [Ne, ← pre.owners, newKey]; simp
        simp [unowned]
    · by_cases sameAddress : address = x
      · subst sameAddress
        have unheld : parsed.1[mac]? ≠ some address := by rw [Ne, pre.owners, newAddress]; simp
        simp [unheld]
      · simp [if_neg sameKey, if_neg sameAddress, pre.owners]
  · intro mac x hit
    rw [TreeMap.getElem?_insert_eq] at hit
    split at hit
    · rename_i same
      exact ⟨entry.1, same ▸ atKey⟩
    · exact pre.canonical mac x hit

theorem foldlM_parseReservation {entries : List (Text × Text)} {parsed res : ParsedReservations}
    (run : entries.foldlM parseReservation parsed = .ok res) (pre : ReservationsParsed parsed) :
    ReservationsParsed res ∧ res.1.size ≤ parsed.1.size + entries.length := by
  induction entries generalizing parsed with
  | nil => cases run; exact ⟨pre, by simp⟩
  | cons entry rest ih =>
    rw [List.foldlM_cons] at run
    cases step : parseReservation parsed entry with
    | error msg => rw [step] at run; cases run
    | ok next =>
      rw [step] at run
      obtain ⟨after, size⟩ := ih run (pre.step step)
      obtain ⟨addr, key, _, _, _, rfl⟩ := parseReservation_ok step
      have grown := TreeMap.size_insert_le (t := parsed.1) (k := key) (v := addr)
      refine ⟨after, ?_⟩
      simp only [List.length_cons] at *
      omega

variable {statics : TreeMap MacKey Ipv4Addr compare}

theorem parseStaticReservations_ok {map : TreeMap Text Text compare}
    (run : parseStaticReservations map = .ok statics) :
    DistinctReservations statics ∧ CanonicalReservations statics ∧ statics.size ≤ maxStaticReservations := by
  unfold parseStaticReservations at run
  split at run
  · cases run
  · cases loop : map.toList.foldlM parseReservation (∅, ∅) with
    | error msg => simp only [loop] at run; cases run
    | ok parsed =>
      simp only [loop] at run
      cases run
      have start : ReservationsParsed (∅, ∅) := ⟨by simp, by simp [CanonicalReservations]⟩
      obtain ⟨after, size⟩ := foldlM_parseReservation loop start
      refine ⟨?_, after.canonical, ?_⟩
      · intro mac other addr atMac atOther
        rw [after.owners] at atMac atOther
        exact Option.mem_unique atMac atOther
      · simp only [TreeMap.length_toList, TreeMap.size_emptyc] at size
        omega

theorem parseIpv4List_length {values : List Text} {label : String} {parsed : List Ipv4Addr}
    (run : parseIpv4List values label = .ok parsed) : parsed.length * 4 ≤ maxOptionValueBytes := by
  unfold parseIpv4List at run
  cases loop : (values.filter fun text => !(trim text).isEmpty).mapM (parseListedIpv4 label) with
  | error msg => rw [loop] at run; cases run
  | ok addresses =>
    rw [loop] at run
    change (if addresses.length > maxIpv4AddressesPerDhcpOption then _ else _) = _ at run
    split at run
    · cases run
    · cases run
      simp only [maxIpv4AddressesPerDhcpOption] at *
      omega

variable {options : EngineOptions}

theorem EngineOptions.validate_ok (run : options.validate = .ok ()) :
    0 < poolSize options.rangeStart options.rangeEnd ∧
      poolSize options.rangeStart options.rangeEnd ≤ maxDhcpPoolSize := by
  unfold EngineOptions.validate at run
  simp only at run
  split at run
  · cases run
  · split at run
    · cases run
    · omega

theorem resolveLeaseSecs_ok {leaseTimeSec : Option Nat} {seconds : Nat}
    (run : resolveLeaseSecs leaseTimeSec = .ok seconds) : seconds ≤ maxDhcpLeaseSeconds := by
  unfold resolveLeaseSecs at run
  split at run
  · cases run; decide
  · split at run
    · cases run
    · cases run; omega

theorem resolveDns_length {dns : Option (List Text)} {fallback parsed : List Ipv4Addr}
    (fits : fallback.length * 4 ≤ maxOptionValueBytes) (run : resolveDns dns fallback = .ok parsed) :
    parsed.length * 4 ≤ maxOptionValueBytes := by
  cases dns with
  | none => cases run; exact fits
  | some list => exact parseIpv4List_length run

theorem resolveStatics_ok {map : Option (TreeMap Text Text compare)}
    (run : resolveStatics map = .ok statics) :
    DistinctReservations statics ∧ CanonicalReservations statics ∧ statics.size ≤ maxStaticReservations := by
  cases map with
  | none => cases run; exact ⟨by simp [DistinctReservations], by simp [CanonicalReservations], by simp⟩
  | some map => exact parseStaticReservations_ok run

theorem DhcpConfig.resolve_spec {cfg : DhcpConfig}
    (resolved : cfg.resolve = .ok options) : options.Validated ∧ cfg.resolveBoot = .ok options.boot := by
  obtain ⟨_, _, resolved⟩ := bind_eq_ok resolved
  obtain ⟨rangeStart, _, resolved⟩ := bind_eq_ok resolved
  obtain ⟨rangeEnd, _, resolved⟩ := bind_eq_ok resolved
  obtain ⟨subnet, _, resolved⟩ := bind_eq_ok resolved
  obtain ⟨gateway, _, resolved⟩ := bind_eq_ok resolved
  obtain ⟨serverId, _, resolved⟩ := bind_eq_ok resolved
  obtain ⟨broadcast, _, resolved⟩ := bind_eq_ok resolved
  obtain ⟨dns, atDns, resolved⟩ := bind_eq_ok resolved
  obtain ⟨leaseSecs, atLease, resolved⟩ := bind_eq_ok resolved
  obtain ⟨statics, atStatics, resolved⟩ := bind_eq_ok resolved
  obtain ⟨path, _, resolved⟩ := bind_eq_ok resolved
  obtain ⟨boot, atBoot, resolved⟩ := bind_eq_ok resolved
  obtain ⟨_, valid, resolved⟩ := bind_eq_ok resolved
  cases resolved
  obtain ⟨nodup, canonical, few⟩ := resolveStatics_ok atStatics
  exact ⟨⟨nodup, canonical, few, EngineOptions.validate_ok valid, resolveDns_length (by decide) atDns,
    resolveLeaseSecs_ok atLease⟩, atBoot⟩

/-- A configuration that resolves has options the engine may rely on. -/
theorem DhcpConfig.resolve_validated {cfg : DhcpConfig}
    (resolved : cfg.resolve = .ok options) : options.Validated := (resolve_spec resolved).1

end NexTerminal.Dhcp
