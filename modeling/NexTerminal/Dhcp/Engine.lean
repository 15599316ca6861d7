import NexTerminal.Dhcp.Boot
import NexTerminal.Dhcp.Persistence

/-! The DHCP protocol core (`engine.rs`). Each entry point takes the core and the
environment of that call, and returns the new core with everything it put out:
datagrams handed to the socket and events, in order. -/

namespace NexTerminal.Dhcp

open Std

def serverPort : UInt16 := 67
def clientPort : UInt16 := 68
def defaultLeaseSecs : Nat := 86400

/-- Monotonic clock readings and durations are in nanoseconds. -/
def noticeLogInterval : Nat := 1000000000
def defaultPersistDebounce : Nat := 500000000
def maxListedDroppedLeases : Nat := 20

inductive LogLevel
  | trace | debug | info | warn | error
deriving DecidableEq

structure PacketCounters where
  packetsReceived : Nat := 0
  packetsSent : Nat := 0
  discoverCount : Nat := 0
  offerCount : Nat := 0
  requestCount : Nat := 0
  declineCount : Nat := 0
  ackCount : Nat := 0
  nakCount : Nat := 0
  releaseCount : Nat := 0
  informCount : Nat := 0
  malformedCount : Nat := 0
deriving DecidableEq

inductive ReleaseReason
  | released | expired | declined
deriving DecidableEq

inductive EngineEvent
  | log (level : LogLevel) (message : String)
  | leaseBound (lease : LeaseInfo)
  | leaseRenewed (lease : LeaseInfo)
  | leaseReleased (mac : MacKey) (ip : Option Ipv4Addr) (reason : ReleaseReason)
  | leaseDeclined (mac : MacKey) (ip : Option Ipv4Addr)
deriving DecidableEq

structure SocketAddr where
  ip : Ipv4Addr
  port : UInt16
deriving DecidableEq

def SocketAddr.display (peer : SocketAddr) : String := s!"{peer.ip.display}:{peer.port}"

structure Reply where
  kind : MessageType
  header : ReplyBuilder
  options : Bytes
deriving DecidableEq

def Reply.packet (reply : Reply) : Bytes := reply.header.encode reply.options

inductive Output
  | sent (peer : SocketAddr) (reply : Reply)
  | event (event : EngineEvent)
  /-- The text `persist` publishes over the lease file. -/
  | saved (text : Text)
deriving DecidableEq

def replies (outputs : List Output) : List Reply :=
  outputs.filterMap fun output => match output with
    | .sent _ reply => some reply
    | _ => none

def logLine (level : LogLevel) (message : String) : Output := .event (.log level message)

/-- The engine options the core reads (`EngineOptions`). -/
structure EngineOptions where
  rangeStart : Ipv4Addr := .new 192 168 2 10
  rangeEnd : Ipv4Addr := .new 192 168 2 199
  subnet : Ipv4Addr := .new 255 255 255 0
  gateway : Ipv4Addr := .new 192 168 2 1
  dns : List Ipv4Addr := [.new 8 8 8 8, .new 8 8 4 4]
  leaseSecs : Nat := defaultLeaseSecs
  serverId : Ipv4Addr := .new 192 168 2 1
  broadcast : Ipv4Addr := .new 192 168 2 255
  statics : TreeMap MacKey Ipv4Addr compare := ∅
  /-- Where the lease table is mirrored. `none` keeps leases in memory only. -/
  leaseStorePath : Option Text := none
  boot : BootOptions := {}
  persistDebounce : Nat := defaultPersistDebounce
  allowRelayAgents : Bool := false

/-- Everything that must hold before a socket is worth binding. -/
def EngineOptions.validate (options : EngineOptions) : Except String Unit :=
  let size := poolSize options.rangeStart options.rangeEnd
  if size = 0 then
    .error (s!"The address pool {options.rangeStart.display} → {options.rangeEnd.display} is empty: "
      ++ "the end address is below the start. No client could be given an address.")
  else if size > maxDhcpPoolSize then
    .error s!"DHCP pool size is {size} addresses; it must not exceed 65,536."
  else .ok ()

/-- What a call reads from outside: the clocks, whether a send or a save fails, how floats are printed. -/
structure Env where
  nowMs : UInt64
  persistMs : UInt64 := nowMs
  instant : Nat := 0
  sendError : Option String := none
  saveError : Option String := none
  printFloat : ℚ → Text := fun _ => []

def Env.now (env : Env) : Nat := env.nowMs.toNat

/-- The protocol core: everything except the socket loop itself. -/
structure DhcpCore where
  table : LeaseTable
  subnet : Ipv4Addr
  gateway : Ipv4Addr
  dns : List Ipv4Addr
  serverId : Ipv4Addr
  broadcast : Ipv4Addr
  leaseSecs : Nat
  boot : BootOptions
  leaseStorePath : Option Text
  persistDebounce : Nat
  dirtySince : Option Nat
  allowRelayAgents : Bool
  /-- The instant of the last notice logged; `none` before the first. -/
  noticeGate : Option Nat
  noticesSuppressed : Nat
  poolExhausted : Bool
  persistFailed : Bool
  counters : PacketCounters

/-- The address a REQUEST names: option 50, else a non-zero `ciaddr`. -/
def Message.requestedAddress (request : Message) : Option Ipv4Addr :=
  (request.options.ipv4 optionRequestedIp).or
    (if request.ciaddr.isUnspecified then none else some request.ciaddr)

/-- The other server a REQUEST selects with option 54, if any. -/
def Message.selectsOther (request : Message) (serverId : Ipv4Addr) : Option Ipv4Addr :=
  (request.options.ipv4 optionServerId).filter fun chosen => chosen != serverId

namespace DhcpCore

def count (core : DhcpCore) (bump : PacketCounters → PacketCounters) : DhcpCore :=
  { core with counters := bump core.counters }

def withTable (core : DhcpCore) (table : LeaseTable) : DhcpCore := { core with table := table }

def describeDropped (dropped : DroppedLease) : String :=
  s!"{dropped.lease.mac}→{dropped.lease.ip.display} ({dropped.reason.asStr})"

def restorePersisted (table : LeaseTable) (options : EngineOptions) (store : LeaseStore) (nowMs : Nat) :
    LeaseTable × List Output :=
  match options.leaseStorePath with
  | none => (table, [])
  | some path =>
    let table := table.restoreQuarantine store.quarantine nowMs
    if store.leases.isEmpty then (table, [])
    else
      let result := reconcile store.leases
        { statics := options.statics, rangeStart := options.rangeStart, rangeEnd := options.rangeEnd
          nowMs := nowMs }
      let line := s!"restored {result.restored.length} lease(s) from {String.ofList path}"
      let detail := ", ".intercalate ((result.dropped.take maxListedDroppedLeases).map describeDropped)
      let more :=
        if result.dropped.length > maxListedDroppedLeases then
          s!", and {result.dropped.length - maxListedDroppedLeases} more"
        else ""
      let line :=
        if result.dropped.isEmpty then line
        else line ++ s!" · dropped {result.dropped.length}: {detail}" ++ more
      (table.restore result.restored, [logLine .info line])

def describeReservation (reservation : MacKey × Ipv4Addr) : String := s!"{reservation.1}→{reservation.2.display}"

def seedLine (report : SeedReport) : List Output :=
  if report.seeded.isEmpty && report.skipped.isEmpty then []
  else
    let seeded := ", ".intercalate (report.seeded.map describeReservation)
    let skipped := ", ".intercalate (report.skipped.map describeReservation)
    let line := s!"reserved {report.seeded.length} in-pool static address(es)"
    let line := if seeded.isEmpty then line else line ++ s!": {seeded}"
    let line :=
      if skipped.isEmpty then line
      else line ++ s!" · {report.skipped.length} outside the pool (no reservation needed): {skipped}"
    [logLine .info line]

/-- Builds the core: restores from disk, then seeds the reservations, each with its reading of the clock. -/
def new (options : EngineOptions) (store : LeaseStore) (restoreMs seedMs : UInt64) : DhcpCore × List Output :=
  let table := LeaseTable.new options.rangeStart options.rangeEnd options.leaseSecs options.statics
  let (restored, restoreLog) := restorePersisted table options store restoreMs.toNat
  let (seeded, report) := restored.seedStaticReservations seedMs.toNat
  ({ table := seeded
     subnet := options.subnet
     gateway := options.gateway
     dns := options.dns
     serverId := options.serverId
     broadcast := options.broadcast
     leaseSecs := options.leaseSecs
     boot := options.boot
     leaseStorePath := options.leaseStorePath
     persistDebounce := options.persistDebounce
     dirtySince := none
     allowRelayAgents := options.allowRelayAgents
     noticeGate := none
     noticesSuppressed := 0
     poolExhausted := false
     persistFailed := false
     counters := {} },
    restoreLog ++ seedLine report)

def logNotice (core : DhcpCore) (env : Env) (level : LogLevel) (message : String) : DhcpCore × List Output :=
  if core.noticeGate.any fun gate => env.instant - gate < noticeLogInterval then
    ({ core with noticesSuppressed := core.noticesSuppressed + 1 }, [])
  else
    let suppressed := core.noticesSuppressed
    ({ core with noticeGate := some env.instant, noticesSuppressed := 0 },
      [logLine level (if suppressed = 0 then message
        else s!"{message} · {suppressed} similar suppressed")])

def flushSuppressedNotices (core : DhcpCore) : DhcpCore × List Output :=
  ({ core with noticesSuppressed := 0 },
    if core.noticesSuppressed > 0 then
      [logLine .debug
        s!"{core.noticesSuppressed} per-packet line(s) suppressed while the gate was closed"]
    else [])

def markDirty (core : DhcpCore) (env : Env) : DhcpCore :=
  if core.dirtySince.isNone then { core with dirtySince := some env.instant } else core

def persist (core : DhcpCore) (env : Env) : DhcpCore × List Output :=
  let core := { core with dirtySince := none }
  match core.leaseStorePath with
  | none => (core, [])
  | some path =>
    let now := env.persistMs.toNat
    let leases := core.table.persistableLeases now
    let quarantine := core.table.quarantineSnapshot now
    match env.saveError with
    | some error =>
      let core := { core with dirtySince := some env.instant }
      if core.persistFailed then (core, [])
      else
        ({ core with persistFailed := true },
          [logLine .warn
            (s!"could not persist the lease table to {String.ofList path} — leases will not survive "
              ++ s!"a restart, and this will be retried quietly: {error}")])
    | none =>
      let saved := Output.saved (saveLeases env.printFloat now leases quarantine)
      if core.persistFailed then
        ({ core with persistFailed := false },
          [saved, logLine .info s!"lease table persisted again to {String.ofList path}"])
      else (core, [saved])

def expiryOutputs (lapsed : MacKey × Ipv4Addr) : List Output :=
  [logLine .info s!"lease expired: {lapsed.1} had {lapsed.2.display}",
    .event (.leaseReleased lapsed.1 (some lapsed.2) .expired)]

def tick (core : DhcpCore) (env : Env) : DhcpCore × List Output :=
  let (core, flushed) := core.flushSuppressedNotices
  let (table, expired) := core.table.expire env.now
  let core := { core with table := table }
  let core := if expired.isEmpty then core else core.markDirty env
  let outputs := flushed ++ expired.flatMap expiryOutputs
  if core.dirtySince.any fun since => env.instant - since ≥ core.persistDebounce then
    let (core, persisted) := core.persist env
    (core, outputs ++ persisted)
  else (core, outputs)

def countSent (core : DhcpCore) (env : Env) (bump : PacketCounters → PacketCounters) : DhcpCore :=
  if env.sendError.isNone then
    core.count fun counters => bump { counters with packetsSent := counters.packetsSent + 1 }
  else core

/-- Where a reply goes: through the relay agent, broadcast, or unicast. -/
def replyDestination (core : DhcpCore) (request : Message) (forceBroadcast : Bool) : SocketAddr :=
  if !request.giaddr.isUnspecified then ⟨request.giaddr, serverPort⟩
  else if forceBroadcast || request.wantsBroadcast then ⟨core.broadcast, clientPort⟩
  else ⟨request.ciaddr, clientPort⟩

def send (env : Env) (peer : SocketAddr) (reply : Reply) : List Output :=
  .sent peer reply ::
    match env.sendError with
    | none => []
    | some error => [logLine .warn s!"send to {peer.display} failed: {error}"]

def leaseTimeOptions (core : DhcpCore) : OptionsBuilder Unit := do
  OptionsBuilder.putU32 optionLeaseTime core.leaseSecs
  OptionsBuilder.putU32 optionRenewalTime (core.leaseSecs / 2)
  OptionsBuilder.putU32 optionRebindingTime (core.leaseSecs / 8 * 7)

def networkOptions (core : DhcpCore) : OptionsBuilder Unit := do
  OptionsBuilder.putIpv4 optionSubnetMask core.subnet
  OptionsBuilder.putIpv4 optionRouter core.gateway
  if !core.dns.isEmpty then
    OptionsBuilder.putIpv4List optionDns core.dns
  OptionsBuilder.putIpv4 optionBroadcast core.broadcast

/-- The options of an OFFER or ACK before the boot options. -/
def replyOptions (core : DhcpCore) (kind : MessageType) (granting : Bool) : OptionsBuilder Unit := do
  OptionsBuilder.putU8 optionMessageType kind.asWire
  OptionsBuilder.putIpv4 optionServerId core.serverId
  if granting then core.leaseTimeOptions
  core.networkOptions

/-- The header of an OFFER or ACK. An INFORM is answered to the address the
client already holds. -/
def replyHeader (core : DhcpCore) (request : Message) (address : Option Ipv4Addr) : ReplyBuilder :=
  let header := { ReplyBuilder.forRequest request with siaddr := core.serverId }
  match address with
  | some address => { header with yiaddr := address }
  | none => { header with ciaddr := request.ciaddr }

/-- A malformed boot option costs the boot options, not the address. -/
def bootOmitted : Except EncodeError Bool → List Output
  | .ok _ => []
  | .error error => [logLine .error s!"boot options omitted from this reply: {error.display}"]

def buildReply (core : DhcpCore) (request : Message) (kind : MessageType) (address : Option Ipv4Addr)
    (vendorClass : Option Text) : Option Reply × List Output :=
  match (core.replyOptions kind address.isSome).run [] with
  | (.error error, _) =>
    (none, [logLine .error s!"could not encode a {kind.asStr}: {error.display}"])
  | (.ok (), options) =>
    let boot := (core.boot.writeInto vendorClass).run options
    (some { kind := kind, header := core.replyHeader request address
            options := OptionsBuilder.finish boot.2 }, bootOmitted boot.1)

def truncateOptionText (text : String) : Text := text.toList.take 200

def nakOptions (core : DhcpCore) (reason : String) : OptionsBuilder Unit := do
  OptionsBuilder.putU8 optionMessageType MessageType.nak.asWire
  OptionsBuilder.putIpv4 optionServerId core.serverId
  OptionsBuilder.putText optionMessage (truncateOptionText reason)

def sendNak (core : DhcpCore) (env : Env) (request : Message) (mac : MacKey) (reason : String) :
    DhcpCore × List Output :=
  match (core.nakOptions reason).run [] with
  | (.error _, _) => (core, [logLine .error "could not encode a DHCPNAK"])
  | (.ok (), options) =>
    let reply : Reply :=
      { kind := .nak, header := .forRequest request, options := OptionsBuilder.finish options }
    let sent := send env (core.replyDestination request true) reply
    let core := core.countSent env fun counters => { counters with nakCount := counters.nakCount + 1 }
    let (core, noticed) := core.logNotice env .info s!"NAK to {mac}: {reason}"
    (core, sent ++ noticed)

/-- Exhaustion is reported when it begins, not once per rejected DISCOVER. -/
def reportExhausted (core : DhcpCore) (mac : MacKey) (nowMs : Nat) : DhcpCore × List Output :=
  if core.poolExhausted then (core, [])
  else
    let active := (core.table.activeLeases nowMs).length
    let size := poolSize core.table.rangeStart core.table.rangeEnd
    ({ core with poolExhausted := true },
      [logLine .warn
        (s!"no address available for {mac}: the pool {core.table.rangeStart.display} → "
          ++ s!"{core.table.rangeEnd.display} is fully allocated ({active} of {size} in use). "
          ++ "Widen the range or wait for a lease to expire.")])

def reportAvailable (core : DhcpCore) : DhcpCore × List Output :=
  if core.poolExhausted then
    ({ core with poolExhausted := false }, [logLine .info "the pool has addresses to offer again"])
  else (core, [])

def countOffer (counters : PacketCounters) : PacketCounters :=
  { counters with offerCount := counters.offerCount + 1 }

def countAck (counters : PacketCounters) : PacketCounters :=
  { counters with ackCount := counters.ackCount + 1 }

def sendOffer (core : DhcpCore) (env : Env) (request : Message) (mac : MacKey)
    (vendorClass : Option Text) (address : Ipv4Addr) : DhcpCore × List Output :=
  let hostname := request.options.text optionHostname
  let core := core.withTable (core.table.offer mac address hostname env.now)
  match core.buildReply request .offer (some address) vendorClass with
  | (none, built) => (core, built)
  | (some reply, built) =>
    let sent := send env (core.replyDestination request false) reply
    let (core, noticed) := (core.countSent env countOffer).logNotice env .info
      s!"OFFER {address.display} to {mac}"
    (core, built ++ sent ++ noticed)

/-- A client that holds nothing gets no offer while unclaimed offers hold their
share of the pool. -/
def handleDiscover (core : DhcpCore) (env : Env) (request : Message) (mac : MacKey)
    (vendorClass : Option Text) : DhcpCore × List Output :=
  let core := core.count fun counters => { counters with discoverCount := counters.discoverCount + 1 }
  match core.table.selectAddress mac (request.options.ipv4 optionRequestedIp) env.now with
  | none => core.reportExhausted mac env.now
  | some address =>
    let (core, available) := core.reportAvailable
    let (core, outputs) :=
      if (core.table.existingAddress mac env.now).isNone && core.table.offerCapacityReached env.now then
        core.logNotice env .warn
          (s!"declining to offer {mac} an address: unclaimed offers already hold the share of the "
            ++ "pool reserved for them. A client that completes DHCP frees its offer immediately; "
            ++ "a flood of new addresses never does.")
      else core.sendOffer env request mac vendorClass address
    (core, available ++ outputs)

/-- Our own offer is freed when the client accepted another server's. -/
def releaseForOther (core : DhcpCore) (env : Env) (mac : MacKey) (chosen : Ipv4Addr) : DhcpCore × List Output :=
  match core.table.releaseAny mac env.now with
  | (_, none) => (core, [])
  | (table, some freed) =>
    ((core.withTable table).markDirty env,
      [logLine .debug
        s!"{mac} accepted an offer from {chosen.display}; released {freed.display}"])

def announceBind (core : DhcpCore) (mac : MacKey) (address : Ipv4Addr) (outcome : BindOutcome)
    (nowMs : Nat) : List Output :=
  match (core.table.activeLeases nowMs).find? fun lease => lease.mac == mac with
  | none => []
  | some info =>
    let hostname := match info.hostname with
      | some name => s!", hostname={String.ofList name}"
      | none => ""
    [logLine .info
      (s!"ACK {address.display} to {mac} ({info.leaseType.asStr}, lease {info.leaseSec}s{hostname})"),
     .event (match outcome with
      | .bound => .leaseBound info
      | .renewed => .leaseRenewed info)]

def acknowledge (core : DhcpCore) (env : Env) (request : Message) (mac : MacKey)
    (vendorClass : Option Text) (address : Ipv4Addr) : DhcpCore × List Output :=
  let hostname := request.options.text optionHostname
  let (table, outcome) := core.table.bind mac address hostname env.now
  let core := (core.withTable table).markDirty env
  match core.buildReply request .ack (some address) vendorClass with
  | (none, built) => (core, built)
  | (some reply, built) =>
    let sent := send env (core.replyDestination request false) reply
    let core := core.countSent env countAck
    (core, built ++ sent ++ core.announceBind mac address outcome env.now)

def discardAddressless (core : DhcpCore) (mac : MacKey) : DhcpCore × List Output :=
  (core.count fun counters => { counters with malformedCount := counters.malformedCount + 1 },
    [logLine .debug s!"REQUEST from {mac} names no address in any valid state; discarded"])

def handleRequest (core : DhcpCore) (env : Env) (request : Message) (mac : MacKey)
    (vendorClass : Option Text) : DhcpCore × List Output :=
  let core := core.count fun counters => { counters with requestCount := counters.requestCount + 1 }
  match request.selectsOther core.serverId with
  | some chosen => core.releaseForOther env mac chosen
  | none =>
    let requested := request.requestedAddress
    if requested.isNone && (core.table.grantedAddress mac env.now).isNone then
      core.discardAddressless mac
    else
      match requested, core.table.selectAddress mac requested env.now with
      | _, none => core.sendNak env request mac "no address is available in the configured pool"
      | some wanted, some available =>
        if wanted ≠ available then
          core.sendNak env request mac
            s!"{wanted.display} is not yours; {available.display} is what this server would assign"
        else core.acknowledge env request mac vendorClass available
      | none, some available => core.acknowledge env request mac vendorClass available

def handleRelease (core : DhcpCore) (env : Env) (request : Message) (mac : MacKey) : DhcpCore × List Output :=
  let core := core.count fun counters => { counters with releaseCount := counters.releaseCount + 1 }
  if request.options.ipv4 optionServerId ≠ some core.serverId then (core, [])
  else if request.ciaddr.isUnspecified then (core, [])
  else
    match core.table.release mac request.ciaddr env.now with
    | (_, none) => (core, [])
    | (table, some released) =>
      ((core.withTable table).markDirty env,
        [logLine .info s!"RELEASE from {mac} (was {released.display})",
         .event (.leaseReleased mac (some released) .released)])

def handleDecline (core : DhcpCore) (env : Env) (request : Message) (mac : MacKey) : DhcpCore × List Output :=
  let core := core.count fun counters => { counters with declineCount := counters.declineCount + 1 }
  if request.options.ipv4 optionServerId ≠ some core.serverId then (core, [])
  else
    match request.options.ipv4 optionRequestedIp with
    | none => (core, [])
    | some named =>
      match core.table.decline mac named env.now with
      | (_, none) => (core, [])
      | (table, some declined) =>
        ((core.withTable table).markDirty env,
          [logLine .warn
            (s!"DECLINE from {mac} for {declined.display} — another host is already answering on "
              ++ "that address; it is held out of the pool for now"),
           .event (.leaseDeclined mac (some declined))])

def handleInform (core : DhcpCore) (env : Env) (request : Message) (mac : MacKey)
    (vendorClass : Option Text) : DhcpCore × List Output :=
  let core := core.count fun counters => { counters with informCount := counters.informCount + 1 }
  match core.buildReply request .ack none vendorClass with
  | (none, built) => (core, built)
  | (some reply, built) =>
    let sent := send env (core.replyDestination request false) reply
    (core.countSent env countAck, built ++ sent ++ [logLine .debug s!"INFORM answered for {mac}"])

/-- A datagram that did not decode is logged, not answered; a truncated option
is raised to a warning. -/
def rejectDatagram (core : DhcpCore) (peer : SocketAddr) (error : DecodeError) : DhcpCore × List Output :=
  (core.count fun counters => { counters with malformedCount := counters.malformedCount + 1 },
    logLine .debug s!"dropped a malformed datagram from {peer.display}: {error.display}" ::
      match error with
      | .optionTruncated code declared available =>
        [logLine .warn
          (s!"{peer.display} sent option {code} declaring {declared} byte(s) with only "
            ++ s!"{available} present — the packet was rejected, not parsed past the claim")]
      | _ => [])

def dispatch (core : DhcpCore) (env : Env) (peer : SocketAddr) (message : Message) (mac : MacKey)
    (kind : MessageType) (vendorClass : Option Text) : DhcpCore × List Output :=
  match kind with
  | .discover => core.handleDiscover env message mac vendorClass
  | .request => core.handleRequest env message mac vendorClass
  | .release => core.handleRelease env message mac
  | .decline => core.handleDecline env message mac
  | .inform => core.handleInform env message mac vendorClass
  | .offer | .ack | .nak =>
    (core, [logLine .debug
      (s!"ignored a {kind.asStr} from {peer.display}: that is a server message, "
        ++ "so another DHCP server is answering on this network")])

/-- A decoded message: relayed requests are dropped before allocation unless
relay agents are allowed. -/
def handleDecoded (core : DhcpCore) (env : Env) (peer : SocketAddr) (message : Message) : DhcpCore × List Output :=
  if message.op ≠ opBootrequest then
    (core, [logLine .debug
      s!"ignored a BOOTREPLY from {peer.display}: another DHCP server is answering here"])
  else
    match message.options.messageType with
    | none =>
      (core, [logLine .debug
        s!"ignored a packet from {peer.display} with no DHCP message type (option 53)"])
    | some kind =>
      let mac := message.hardwareKey
      let vendorClass := message.options.textFull optionVendorClassId
      let suffix := match message.options.text optionVendorClassId with
        | some observed => s!" · vendor-class=\"{String.ofList observed}\""
        | none => ""
      let (core, noticed) := core.logNotice env .debug s!"{kind.asStr} from MAC {mac}{suffix}"
      if !message.giaddr.isUnspecified && !core.allowRelayAgents then
        let (core, ignored) := core.logNotice env .debug
          (s!"ignoring a request from {mac} that claims relay agent {message.giaddr.display} — "
            ++ "this server answers only the segment it is bound to")
        (core, noticed ++ ignored)
      else
        let (core, outputs) := core.dispatch env peer message mac kind vendorClass
        (core, noticed ++ outputs)

def handleMessage (core : DhcpCore) (env : Env) (buf : Bytes) (peer : SocketAddr) : DhcpCore × List Output :=
  let core := core.count fun counters => { counters with packetsReceived := counters.packetsReceived + 1 }
  match Message.decode buf with
  | .error error => core.rejectDatagram peer error
  | .ok message => core.handleDecoded env peer message

end DhcpCore

end NexTerminal.Dhcp
