import NexTerminal.Dhcp.Legality

namespace NexTerminal.Dhcp

open Std Library

structure BootOptions.Fits (boot : BootOptions) : Prop where
  nextServer : ∀ text ∈ boot.nextServer, byteLen text ≤ maxOptionValueBytes
  bootFileName : ∀ text ∈ boot.bootFileName, byteLen text ≤ maxOptionValueBytes
  tftpServerAddresses : boot.tftpServerAddresses.length * 4 ≤ maxOptionValueBytes
  vendorSpecific : boot.vendorSpecific.length ≤ maxOptionValueBytes

theorem normalizeOptionText_fits {value res : Option Text} {label : String}
    (run : normalizeOptionText value label = .ok res) : ∀ text ∈ res, byteLen text ≤ maxOptionValueBytes := by
  unfold normalizeOptionText at run
  split at run
  · cases run
    nofun
  · split at run
    · cases run
      nofun
    · split at run
      · cases run
      · rename_i short
        cases run
        intro text mem
        cases mem
        exact Nat.not_lt.mp short

theorem encodeVendorSpecificInfo_fits {entries : List VendorEntry} {encoded : Bytes}
    (run : encodeVendorSpecificInfo entries = .ok encoded) : encoded.length ≤ maxOptionValueBytes := by
  obtain ⟨parts, _, run⟩ := bind_eq_ok run
  dsimp only at run
  split at run
  · cases run
  · rename_i short
    cases run
    exact Nat.not_lt.mp short

variable {config : DhcpConfig}

theorem DhcpConfig.resolveBoot_fits {boot : BootOptions} (run : config.resolveBoot = .ok boot) : boot.Fits := by
  unfold DhcpConfig.resolveBoot at run
  have few {servers : List Ipv4Addr} (fits : servers.length * 4 ≤ maxOptionValueBytes)
      (given : BootOptions.new config.nextServer config.bootFileName servers config.vendorClassId
        (config.vendorSpecificOptions.getD []) = .ok boot) : boot.Fits := by
    obtain ⟨nextServer, atServer, given⟩ := bind_eq_ok given
    obtain ⟨bootFileName, atFile, given⟩ := bind_eq_ok given
    obtain ⟨vendorClassId, _, given⟩ := bind_eq_ok given
    obtain ⟨vendorSpecific, atVendor, given⟩ := bind_eq_ok given
    cases given
    exact ⟨normalizeOptionText_fits atServer, normalizeOptionText_fits atFile, fits,
      encodeVendorSpecificInfo_fits atVendor⟩
  split at run
  · obtain ⟨servers, parsed, run⟩ := bind_eq_ok run
    dsimp only at run
    split at run
    · rename_i built given
      cases run
      exact few (parseIpv4List_length parsed) given
    · cases run
  · obtain ⟨_, ⟨⟩, run⟩ := bind_eq_ok run
    dsimp only at run
    split at run
    · rename_i built given
      cases run
      exact few (by decide) given
    · cases run

theorem DhcpConfig.resolve_boot {opts : EngineOptions} (resolved : config.resolve = .ok opts) :
    opts.boot.Fits := DhcpConfig.resolveBoot_fits (DhcpConfig.resolve_spec resolved).2

namespace OptionsBuilder

/-- A builder that ends without an error, whatever is written already. -/
def Succeeds {α : Type} (builder : OptionsBuilder α) : Prop :=
  ∀ region, ∃ result out, builder.run region = (.ok result, out)

theorem Writes.then_succeeds {α : Type} {first : OptionsBuilder Unit} {next : Unit → OptionsBuilder α}
    (writes : Writes first) (later : Succeeds (next ())) : Succeeds (first >>= next) := by
  intro region
  obtain ⟨mid, run⟩ := writes region
  obtain ⟨res, out, run'⟩ := later mid
  refine ⟨res, out, ?_⟩
  have step : (first.run >>= ExceptT.bindCont next) region = ExceptT.bindCont next (.ok ()) mid :=
    congrArg (fun res : Except EncodeError Unit × Bytes => ExceptT.bindCont next res.1 res.2) run
  exact step.trans run'

theorem succeeds_pure {α : Type} (a : α) : Succeeds (pure a) := fun region => ⟨a, region, rfl⟩

theorem Succeeds.when {α : Type} {c : Prop} [Decidable c] {first : OptionsBuilder Unit}
    {next : Unit → OptionsBuilder α} (writes : Writes first) (later : Succeeds (next ())) :
    Succeeds (if c then first >>= next else next ()) := by
  split
  · exact writes.then_succeeds later
  · exact later

theorem writes_putText (code : UInt8) {value : Text} (plain : code ≠ optionPad ∧ code ≠ optionEnd)
    (fits : byteLen value ≤ maxOptionValueBytes) : Writes (putText code value) := by
  refine writes_put plain ?_
  rw [List.length_flatMap]
  have sizes : (value.map fun c => (String.utf8EncodeChar c).length) = value.map Char.utf8Size :=
    List.map_congr_left fun c _ => String.length_utf8EncodeChar c
  rw [sizes]
  exact fits

end OptionsBuilder

theorem BootOptions.Fits.writeInto {boot : BootOptions} (fits : boot.Fits) (observed : Option Text) :
    OptionsBuilder.Succeeds (boot.writeInto observed) := by
  have servers : OptionsBuilder.Succeeds (do
      if !boot.tftpServerAddresses.isEmpty then
        OptionsBuilder.putIpv4List optionCiscoTftpServers boot.tftpServerAddresses
      if !boot.vendorSpecific.isEmpty then
        OptionsBuilder.put optionVendorSpecific boot.vendorSpecific
      return true) :=
    .when (OptionsBuilder.writes_putIpv4List _ _ (by decide) fits.tftpServerAddresses)
      (.when (OptionsBuilder.writes_put (by decide) fits.vendorSpecific) (OptionsBuilder.succeeds_pure true))
  unfold BootOptions.writeInto
  split
  · exact OptionsBuilder.succeeds_pure false
  · dsimp only
    split
    · rename_i name given
      refine (OptionsBuilder.writes_putText _ (by decide) (fits.nextServer name given)).then_succeeds ?_
      split
      · rename_i file named
        exact (OptionsBuilder.writes_putText _ (by decide) (fits.bootFileName file named)).then_succeeds servers
      · exact servers
    · split
      · rename_i file named
        exact (OptionsBuilder.writes_putText _ (by decide) (fits.bootFileName file named)).then_succeeds servers
      · exact servers

namespace DhcpCore

theorem buildReply_whole {core : DhcpCore} (dns : core.dns.length * 4 ≤ maxOptionValueBytes) (boot : core.boot.Fits)
    (request : Message) (kind : MessageType) (addr : Option Ipv4Addr) (vendorClass : Option Text) :
    ∃ reply, core.buildReply request kind addr vendorClass = (some reply, []) := by
  obtain ⟨region, run⟩ := writes_replyOptions dns kind addr.isSome []
  obtain ⟨written, out, wrote⟩ := boot.writeInto vendorClass region
  simp only [buildReply, run, wrote]
  exact ⟨_, rfl⟩

section

variable (core : DhcpCore) (env : Env) (request : Message) (mac : MacKey) (vendorClass : Option Text)

@[simp] theorem logNotice_boot (level : LogLevel) (line : String) :
    (core.logNotice env level line).1.boot = core.boot := by
  unfold logNotice
  split
  · rfl
  · rfl

@[simp] theorem markDirty_boot : (core.markDirty env).boot = core.boot := by
  unfold markDirty
  split
  · rfl
  · rfl

@[simp] theorem countSent_boot (bump : PacketCounters → PacketCounters) :
    (core.countSent env bump).boot = core.boot := by
  unfold countSent
  split
  · rfl
  · rfl

theorem persist_boot : (core.persist env).1.boot = core.boot := by
  unfold persist
  dsimp only
  split
  · rfl
  · split
    · split
      · rfl
      · rfl
    · split
      · rfl
      · rfl

theorem tick_boot : (core.tick env).1.boot = core.boot := by
  simp only [tick]
  generalize atSweep : (if (core.flushSuppressedNotices.1.table.expire env.now).2.isEmpty = true then _
    else _) = sweep
  have kept : sweep.boot = core.boot := by
    rw [← atSweep]
    split
    · rfl
    · rw [markDirty_boot]
      rfl
  split
  · rw [persist_boot, kept]
  · exact kept

theorem sendNak_boot (reason : String) : (core.sendNak env request mac reason).1.boot = core.boot := by
  unfold sendNak
  split
  · rfl
  · simp

theorem handleDiscover_boot : (core.handleDiscover env request mac vendorClass).1.boot = core.boot := by
  have offered (any : DhcpCore) (addr : Ipv4Addr) :
      (any.sendOffer env request mac vendorClass addr).1.boot = any.boot := by
    unfold sendOffer
    dsimp only
    split
    · rfl
    · simp [withTable]
  have exhausted (any : DhcpCore) : (any.reportExhausted mac env.now).1.boot = any.boot := by
    unfold reportExhausted
    split
    · rfl
    · rfl
  have available (any : DhcpCore) : any.reportAvailable.1.boot = any.boot := by
    unfold reportAvailable
    split
    · rfl
    · rfl
  unfold handleDiscover
  dsimp only
  split
  · rw [exhausted]
    rfl
  · split
    · rw [logNotice_boot, available]
      rfl
    · rw [offered, available]
      rfl

theorem handleRequest_boot : (core.handleRequest env request mac vendorClass).1.boot = core.boot := by
  have bound (any : DhcpCore) (addr : Ipv4Addr) :
      (any.acknowledge env request mac vendorClass addr).1.boot = any.boot := by
    unfold acknowledge
    dsimp only
    split
    · simp [withTable]
    · simp [withTable]
  have left (any : DhcpCore) (chosen : Ipv4Addr) :
      (any.releaseForOther env mac chosen).1.boot = any.boot := by
    unfold releaseForOther
    split
    · rfl
    · simp [withTable]
  unfold handleRequest
  dsimp only
  split
  · rw [left]
    rfl
  · split
    · rfl
    · split
      · rw [sendNak_boot]
        rfl
      · split
        · rw [sendNak_boot]
          rfl
        · rw [bound]
          rfl
      · rw [bound]
        rfl

theorem dispatch_boot (peer : SocketAddr) (kind : MessageType) :
    (core.dispatch env peer request mac kind vendorClass).1.boot = core.boot := by
  cases kind with
  | discover => exact core.handleDiscover_boot env request mac vendorClass
  | request => exact core.handleRequest_boot env request mac vendorClass
  | offer | ack | nak => rfl
  | release =>
    unfold dispatch handleRelease
    dsimp only
    split
    · rfl
    · split
      · rfl
      · split
        · rfl
        · simp [withTable, count]
  | decline =>
    unfold dispatch handleDecline
    dsimp only
    split
    · rfl
    · split
      · rfl
      · split
        · rfl
        · simp [withTable, count]
  | inform =>
    unfold dispatch handleInform
    dsimp only
    split
    · rfl
    · simp [count]

theorem handleDecoded_boot (peer : SocketAddr) : (core.handleDecoded env peer request).1.boot = core.boot := by
  unfold handleDecoded
  split
  · rfl
  · split
    · rfl
    · dsimp only
      generalize noted : core.logNotice env .debug _ = notice
      have kept : notice.1.boot = core.boot := by rw [← noted, logNotice_boot]
      split
      · rw [logNotice_boot, kept]
      · rw [dispatch_boot, kept]

theorem step_boot (input : Input) : (core.step input).1.boot = core.boot := by
  cases input with
  | tick env => exact core.tick_boot env
  | message env buf peer =>
    simp only [step, handleMessage]
    split
    · rfl
    · exact handleDecoded_boot _ env _ peer

end

end DhcpCore

/-- In every run, any reply has room for its boot options. -/
theorem Runs.buildReply_whole {opts : EngineOptions} {store : LeaseStore} {events : List (Event DhcpCore Input)}
    {core : DhcpCore} {time : Nat} (resolved : config.resolve = .ok opts)
    (run : Runs opts store events core time) (request : Message) (kind : MessageType) (addr : Option Ipv4Addr)
    (vendorClass : Option Text) : ∃ reply, core.buildReply request kind addr vendorClass = (some reply, []) := by
  have valid := DhcpConfig.resolve_validated resolved
  have boot : core.boot = opts.boot := by
    obtain ⟨_, _, _, run⟩ := run
    refine run.invariant (fun _ => True) (fun core _ => core.boot = opts.boot) rfl ?_ ?_ ?_
    · exact fun _ _ _ _ kept => kept
    · exact fun event _ kept => (event.before.step_boot event.input).trans kept
    · exact fun _ _ => trivial
  refine DhcpCore.buildReply_whole (core.fits_of_settings valid (run.sane valid).settings) ?_
    request kind addr vendorClass
  rw [boot]
  exact DhcpConfig.resolve_boot resolved

end NexTerminal.Dhcp
