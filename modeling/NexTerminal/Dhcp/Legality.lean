import NexTerminal.Dhcp.Config
import NexTerminal.Dhcp.Step

namespace NexTerminal.Dhcp

open Std Library

/-- The runs of a server built from these options over any persisted store. -/
def Runs (options : EngineOptions) (store : LeaseStore) (events : List (Event DhcpCore Input))
    (core : DhcpCore) (time : Nat) : Prop :=
  ∃ restoreMs seedMs : UInt64, restoreMs ≤ seedMs ∧
    server.Run (DhcpCore.new options store restoreMs seedMs).1 seedMs.toNat events core time

/-- The settings every core built from these options keeps. -/
def EngineOptions.settings (options : EngineOptions) : Settings where
  dns := options.dns
  serverId := options.serverId
  leaseSecs := options.leaseSecs
  leaseStorePath := options.leaseStorePath
  table := LeaseTable.new options.rangeStart options.rangeEnd options.leaseSecs options.statics

variable {options : EngineOptions} {core : DhcpCore}

theorem DhcpCore.fits_of_settings (valid : options.Validated) (settings : core.settings = options.settings) :
    core.dns.length * 4 ≤ maxOptionValueBytes :=
  (show core.dns = options.dns from congrArg Settings.dns settings) ▸ valid.dnsFits

section Construction

variable {options : EngineOptions} (store : LeaseStore)

theorem LeaseTable.new_invariant (rangeStart rangeEnd : Ipv4Addr) (leaseSecs : Nat)
    {statics : TreeMap MacKey Ipv4Addr compare} (nodup : DistinctReservations statics) (now : Nat) :
    (LeaseTable.new rangeStart rangeEnd leaseSecs statics).Invariant now where
  distinct mac other addr atMac atOther := nodup mac other addr atMac atOther
  sound := .empty fun mac => by simp [LeaseTable.claims, LeaseTable.new]
  placed mac entry found := by simp [LeaseTable.new] at found

theorem restorePersisted_invariant (nodup : DistinctReservations options.statics) (now later : Nat) :
    (DhcpCore.restorePersisted (LeaseTable.new options.rangeStart options.rangeEnd options.leaseSecs
      options.statics) options store now).1.Invariant later := by
  have fresh := LeaseTable.new_invariant options.rangeStart options.rangeEnd options.leaseSecs
    nodup later
  simp only [DhcpCore.restorePersisted]
  split
  · exact fresh
  · split
    · exact { fresh with }
    · refine LeaseTable.Invariant.restore fresh.distinct ?_
      simp [LeaseTable.restoreQuarantine, LeaseTable.new]

theorem restorePersisted_config (table : LeaseTable) (now : Nat) :
    (DhcpCore.restorePersisted table options store now).1.config = table.config := by
  simp only [DhcpCore.restorePersisted]
  split
  · rfl
  · split
    · rfl
    · rfl

theorem DhcpCore.new_start (valid : options.Validated) (restoreMs seedMs : UInt64) :
    (DhcpCore.new options store restoreMs seedMs).1.table.Invariant seedMs.toNat ∧
      (DhcpCore.new options store restoreMs seedMs).1.settings = options.settings := by
  refine ⟨(restorePersisted_invariant store valid.distinct _ _).seedStaticReservations, ?_⟩
  simp only [DhcpCore.settings, EngineOptions.settings, DhcpCore.new, Settings.mk.injEq, true_and]
  exact restorePersisted_config store _ _

end Construction

variable {sent : List Reply}

theorem Served.invariant {table next : LeaseTable} {serverId : Ipv4Addr} {now : Nat} {msg : Message}
    {kind : MessageType} (served : Served table serverId now msg kind next sent)
    (pre : table.Invariant now) : next.Invariant now := by
  cases served with
  | silent => exact pre
  | offered chosen => exact pre.offer (pre.selectAddress_assignable chosen) _
  | refused => exact pre
  | acknowledged _ _ chosen => exact pre.bind (pre.selectAddress_assignable chosen) _
  | left => exact pre.releaseAny _
  | released => exact pre.release _ _
  | declined => exact pre.decline _ _
  | informed => exact pre

theorem Effect.invariant {input : Input} {table : LeaseTable}
    (effect : Effect core input table sent) (pre : core.table.Invariant input.now) :
    table.Invariant input.now := by
  cases effect with
  | ignored => exact pre
  | served _ served => exact served.invariant pre
  | swept => exact pre.expire

structure Sane (options : EngineOptions) (core : DhcpCore) (now : Nat) : Prop where
  invariant : core.table.Invariant now
  settings : core.settings = options.settings

theorem Sane.mono {now later : Nat} (sane : Sane options core now) (bound : now ≤ later) : Sane options core later :=
  ⟨sane.invariant.mono bound, sane.settings⟩

theorem Sane.step {input : Input} (valid : options.Validated) (sane : Sane options core input.now) :
    Sane options (core.step input).1 input.now := by
  obtain ⟨effect, settings⟩ := core.step_effect (core.fits_of_settings valid sane.settings) input
  exact ⟨effect.invariant sane.invariant, settings.trans sane.settings⟩

theorem Runs.sane {store : LeaseStore} {events : List (Event DhcpCore Input)} {time : Nat}
    (run : Runs options store events core time) (valid : options.Validated) : Sane options core time := by
  obtain ⟨restoreMs, seedMs, _, run⟩ := run
  obtain ⟨inv, settings⟩ := DhcpCore.new_start store valid restoreMs seedMs
  refine run.invariant (fun _ => True) (Sane options) ⟨inv, settings⟩ ?_ ?_ ?_
  · exact fun _ _ _ bound sane => sane.mono bound
  · exact fun event _ sane => sane.step valid
  · exact fun _ _ => trivial

/-- A client packet as it arrives: the fixed header, the cookie, the options. -/
def clientPacket (kind : MessageType) (chaddr : Bytes) (options : Bytes) : Bytes :=
  [opBootrequest, htypeEthernet, .ofNat chaddr.length] ++ List.replicate 25 0
    ++ (chaddr ++ List.replicate (maxHardwareLen - chaddr.length) 0) ++ List.replicate 192 0
    ++ magicCookie ++ [optionMessageType, 1, kind.asWire] ++ options ++ [optionEnd]

def addressOption (code : UInt8) (address : Ipv4Addr) : Bytes := [code, 4] ++ address.octets

def packetAt (nowMs : UInt64) (kind : MessageType) (chaddr : Bytes) (options : Bytes) : Input :=
  .message { nowMs := nowMs } (clientPacket kind chaddr options) ⟨0, clientPort⟩

def tickAt (nowMs : UInt64) : Input := .tick { nowMs := nowMs }

theorem Runs.play (options : EngineOptions) (store : LeaseStore) (startMs : UInt64) (inputs : List Input)
    (ordered : server.Ordered startMs.toNat inputs) :
    Runs options store (server.history (DhcpCore.new options store startMs startMs).1 inputs)
      (server.final (DhcpCore.new options store startMs startMs).1 inputs)
      (server.finish startMs.toNat inputs) :=
  ⟨startMs, startMs, Nat.le_refl _, TimedSystem.Run.start.play inputs ordered⟩

def sampleConfig : DhcpConfig where
  statics := some (TreeMap.ofList [("00:11:22:33:44:55".toList, "192.168.2.20".toList)])

def sampleOptions : EngineOptions :=
  match sampleConfig.resolve with
  | .ok options => options
  | .error _ => {}

theorem sampleConfig_resolve : sampleConfig.resolve = .ok sampleOptions := by
  have valid : sampleConfig.resolve.isOk = true := by decide
  unfold sampleOptions
  cases hit : sampleConfig.resolve with
  | ok options => rfl
  | error msg =>
    rw [hit] at valid
    cases valid

def reservedClient : Bytes := [0x00, 0x11, 0x22, 0x33, 0x44, 0x55]
def otherClient : Bytes := [0x66, 0x77, 0x88, 0x99, 0xAA, 0xBB]

def declined : Input :=
  packetAt 1000 .decline reservedClient (addressOption optionServerId (.new 192 168 2 1)
    ++ addressOption optionRequestedIp (.new 192 168 2 20))

def taken : Input := packetAt 2000 .request reservedClient (addressOption optionRequestedIp (.new 192 168 2 10))

/-- In every reachable state live entries of distinct clients hold distinct addresses, none reserved for another. -/
theorem live_addresses_exclusive {config : DhcpConfig} {options : EngineOptions} {store : LeaseStore}
    {events : List (Event DhcpCore Input)} {core : DhcpCore} {time now : Nat}
    (resolved : config.resolve = .ok options) (run : Runs options store events core time)
    (bound : time ≤ now) {mac : MacKey} {entry : LeaseEntry}
    (found : core.table.entries[mac]? = some entry) (live : entry.isLive now = true) :
    (∀ (other : MacKey) (entry' : LeaseEntry), core.table.entries[other]? = some entry' →
      entry'.isLive now = true → other ≠ mac → entry'.address ≠ entry.address) ∧
    ∀ other : MacKey, options.statics[other]? = some entry.address → other = mac := by
  have sane := run.sane (DhcpConfig.resolve_validated resolved)
  have sound := (sane.invariant.mono bound).sound
  have statics : core.table.statics = options.statics :=
    congrArg (fun settings : Settings => settings.table.statics) sane.settings
  have held : core.table.claims now mac = some entry.address :=
    LeaseTable.claims_eq_some.mpr ⟨entry, found, live, rfl⟩
  refine ⟨?_, ?_⟩
  · intro other entry' found' live' different same
    refine different (sound.exclusive ?_ held)
    exact LeaseTable.claims_eq_some.mpr ⟨entry', found', live', same⟩
  · intro other reserved
    rw [← statics] at reserved
    exact (sound.respects held reserved).symm

def twoLeases : List Input :=
  [packetAt 1000 .request reservedClient (addressOption optionRequestedIp (.new 192 168 2 20)),
    packetAt 2000 .request otherClient (addressOption optionRequestedIp (.new 192 168 2 11))]

theorem live_addresses_exclusive_twoLeases :
    ∃ entry, (server.final (DhcpCore.new sampleOptions {} 1000 1000).1 twoLeases).table.entries[
        MacKey.fromHardware otherClient]? = some entry ∧
      (∀ (other : MacKey) (entry' : LeaseEntry),
        (server.final (DhcpCore.new sampleOptions {} 1000 1000).1 twoLeases).table.entries[other]?
          = some entry' → entry'.isLive 3000 = true → other ≠ MacKey.fromHardware otherClient →
        entry'.address ≠ entry.address) ∧
      ∀ other : MacKey, sampleOptions.statics[other]? = some entry.address →
        other = MacKey.fromHardware otherClient := by
  have held : ((server.final (DhcpCore.new sampleOptions {} 1000 1000).1 twoLeases).table.entries[
      MacKey.fromHardware otherClient]?.filter fun entry => entry.isLive 3000).isSome = true := by
    decide +kernel
  obtain ⟨entry, found⟩ := Option.isSome_iff_exists.mp held
  rw [Option.filter_eq_some_iff] at found
  have run := Runs.play sampleOptions {} 1000 twoLeases (by decide)
  have bound : server.finish (1000 : UInt64).toNat twoLeases ≤ 3000 := by decide
  exact ⟨entry, found.1, live_addresses_exclusive sampleConfig_resolve run bound found.1 found.2⟩

/-- An address this client may be sent: in the pool or its own reservation, and not another's. -/
def EngineOptions.Allows (options : EngineOptions) (mac : MacKey) (address : Ipv4Addr) : Prop :=
  (isIpInPool address options.rangeStart options.rangeEnd = true ∨
      options.statics[mac]? = some address) ∧
    ∀ other : MacKey, other ≠ mac → options.statics[other]? ≠ some address

/-- A reply that hands out an address: an OFFER, or an ACK answering a REQUEST. -/
def Grants (kind : MessageType) (reply : Reply) : Prop :=
  reply.kind = .offer ∨ (kind = .request ∧ reply.kind = .ack)

structure LegalReplies (options : EngineOptions) (before after : DhcpCore) (now : Nat)
    (message : Message) (kind : MessageType) (sent : List Reply) : Prop where
  allowed : ∀ reply ∈ sent, Grants kind reply →
    options.Allows message.hardwareKey reply.header.yiaddr ∧
      before.table.isQuarantined reply.header.yiaddr now = false
  named : kind = .request → ∀ wanted, message.requestedAddress = some wanted →
    ∀ reply ∈ sent, reply.kind = .ack → reply.header.yiaddr = wanted
  unnamed : kind = .request → message.requestedAddress = none →
    ∀ reply ∈ sent, reply.kind = .ack → before.table.RecordedGrant message.hardwareKey reply.header.yiaddr now
  unchanged : ((∃ reply ∈ sent, reply.kind = .nak) ∨
      (sent = [] ∧ (kind = .discover ∨ kind = .request ∧ message.selectsOther options.serverId = none))) →
    after.table.entries = before.table.entries ∧ after.table.quarantine = before.table.quarantine

theorem LeaseTable.Assignable.allowed {table : LeaseTable} {options : EngineOptions} {mac : MacKey}
    {addr : Ipv4Addr} {now : Nat} (free : table.Assignable mac addr now)
    (settings : table.config = options.settings.table) :
    options.Allows mac addr ∧ table.isQuarantined addr now = false := by
  have statics : table.statics = options.statics := congrArg LeaseTable.statics settings
  have start : table.rangeStart = options.rangeStart := congrArg LeaseTable.rangeStart settings
  have stop : table.rangeEnd = options.rangeEnd := congrArg LeaseTable.rangeEnd settings
  obtain ⟨placed, unreserved, usable, _⟩ := free
  rw [LeaseTable.inPool, start, stop, statics] at placed
  rw [statics] at unreserved
  exact ⟨⟨placed, fun other differ reserved => differ (unreserved other reserved)⟩, usable⟩

theorem Served.legal {options : EngineOptions} {pre after : DhcpCore} {now : Nat} {msg : Message}
    {kind : MessageType}
    (served : Served pre.table pre.serverId now msg kind after.table sent)
    (inv : pre.table.Invariant now) (settings : pre.settings = options.settings) :
    LegalReplies options pre after now msg kind sent := by
  have cfg : pre.table.config = options.settings.table := congrArg Settings.table settings
  have serverId : pre.serverId = options.serverId := congrArg Settings.serverId settings
  generalize res : after.table = table at served
  cases served with
  | silent =>
    refine ⟨by simp, by simp, by simp, fun _ => ?_⟩
    rw [res]
    exact ⟨rfl, rfl⟩
  | @offered addr reply chosen sent =>
    have free := inv.selectAddress_assignable chosen
    refine ⟨?_, by simp, by simp, ?_⟩
    · intro reply' mem _
      rw [List.mem_singleton.mp mem, sent.yiaddr_eq]
      exact free.allowed cfg
    · rintro (⟨reply', mem, nak⟩ | ⟨nothing, _⟩)
      · rw [List.mem_singleton.mp mem, sent.kind_eq] at nak
        cases nak
      · cases nothing
  | @refused reply nak =>
    refine ⟨?_, ?_, ?_, ?_⟩
    · intro reply' mem grants
      rw [List.mem_singleton.mp mem] at grants
      simp [Grants, nak] at grants
    · intro _ wanted _ reply' mem ack
      rw [List.mem_singleton.mp mem, nak] at ack
      cases ack
    · intro _ _ reply' mem ack
      rw [List.mem_singleton.mp mem, nak] at ack
      cases ack
    · intro _
      rw [res]
      exact ⟨rfl, rfl⟩
  | @acknowledged addr reply ours named chosen sent =>
    have free := inv.selectAddress_assignable chosen
    refine ⟨?_, ?_, ?_, ?_⟩
    · intro reply' mem _
      rw [List.mem_singleton.mp mem, sent.yiaddr_eq]
      exact free.allowed cfg
    · intro _ wanted asked reply' mem _
      rw [List.mem_singleton.mp mem, sent.yiaddr_eq]
      rcases named with same | ⟨nothing, _⟩
      · exact Option.mem_unique same asked
      · rw [nothing] at asked
        cases asked
    · intro _ nothing reply' mem _
      rw [List.mem_singleton.mp mem, sent.yiaddr_eq]
      rcases named with asked | ⟨_, recorded⟩
      · rw [nothing] at asked
        cases asked
      · exact LeaseTable.grantedAddress_spec recorded
    · rintro (⟨reply', mem, nak⟩ | ⟨nothing, _⟩)
      · rw [List.mem_singleton.mp mem, sent.kind_eq] at nak
        cases nak
      · cases nothing
  | @left chosen other =>
    refine ⟨by simp, by simp, by simp, ?_⟩
    rintro (⟨reply', mem, _⟩ | ⟨_, discover | ⟨_, ours⟩⟩)
    · cases mem
    · cases discover
    · rw [← serverId, other] at ours
      cases ours
  | released ours | declined ours named => exact ⟨by simp, by simp, by simp, by simp⟩
  | @informed reply sent =>
    refine ⟨?_, by simp, by simp, ?_⟩
    · intro reply' mem grants
      rw [List.mem_singleton.mp mem] at grants
      simp [Grants, sent.kind_eq] at grants
    · intro _
      rw [res]
      exact ⟨rfl, rfl⟩

/-- In every reachable state every client request is answered legally. -/
theorem replies_legal {config : DhcpConfig} {options : EngineOptions} {store : LeaseStore}
    {events : List (Event DhcpCore Input)} {core : DhcpCore} {time : Nat}
    (resolved : config.resolve = .ok options) (run : Runs options store events core time)
    {input : Input} (later : time ≤ input.now) {message : Message} {kind : MessageType}
    (request : input.request = some (message, kind)) :
    LegalReplies options core (core.step input).1 input.now message kind
      (replies (core.step input).2) := by
  have valid := DhcpConfig.resolve_validated resolved
  have sane := run.sane valid
  obtain ⟨effect, _⟩ := core.step_effect (core.fits_of_settings valid sane.settings) input
  have invariant := sane.invariant.mono later
  generalize table : (core.step input).1.table = next at effect
  generalize replies (core.step input).2 = sent at effect ⊢
  cases effect with
  | ignored => exact Served.legal (table ▸ .silent) invariant sane.settings
  | served request' served =>
    cases request.symm.trans request'
    exact Served.legal (table ▸ served) invariant sane.settings
  | swept => cases request

theorem replies_legal_unnamed :
    ∃ message, (packetAt 3000 .request reservedClient []).request = some (message, .request) ∧
      LegalReplies sampleOptions
        (server.final (DhcpCore.new sampleOptions {} 1000 1000).1 twoLeases)
        ((server.final (DhcpCore.new sampleOptions {} 1000 1000).1 twoLeases).step
          (packetAt 3000 .request reservedClient [])).1 3000 message .request
        (replies ((server.final (DhcpCore.new sampleOptions {} 1000 1000).1 twoLeases).step
          (packetAt 3000 .request reservedClient [])).2) := by
  have kind : (packetAt 3000 .request reservedClient []).request.map Prod.snd = some .request := by
    decide +kernel
  obtain ⟨⟨message, _⟩, request, rfl⟩ := Option.map_eq_some_iff.mp kind
  have run := Runs.play sampleOptions {} 1000 twoLeases (by decide)
  exact ⟨message, request, replies_legal sampleConfig_resolve run (by decide) request⟩

end NexTerminal.Dhcp
