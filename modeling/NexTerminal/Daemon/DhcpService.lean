import NexTerminal.Daemon.ConfigStore
import NexTerminal.Dhcp.Activity

/-! The daemon's DHCP service (`dhcp_service.rs`): its lifecycle, and the answer to a
runtime request. -/

namespace NexTerminal.Daemon

open Std Library Dhcp

inductive ServerStatus
  | stopped | starting | running | stopping | error
deriving DecidableEq

def ServerStatus.asStr : ServerStatus → String
  | .stopped => "stopped"
  | .starting => "starting"
  | .running => "running"
  | .stopping => "stopping"
  | .error => "error"

def dhcpDefaultPort : UInt16 := 67

def listenPort (config : DhcpConfig) : UInt16 := config.port.getD dhcpDefaultPort

inductive IoErrorKind
  | permissionDenied | addrInUse | other
deriving DecidableEq

/-- The standard library reads the system's message into a buffer of at most 2048 units. -/
def maxIoErrorBytes : Nat := 8192

/-- An `io::Error`: its kind and its `Display` text. -/
structure IoError where
  kind : IoErrorKind
  text : Text
  short : byteLen text ≤ maxIoErrorBytes

inductive StartError
  | configuration (message : String)
  | bind (error : IoError)

def StartError.display : StartError → Text
  | .configuration message => message.toList
  | .bind error => error.text

def StartError.isPermissionDenied : StartError → Bool
  | .configuration _ => false
  | .bind error => error.kind == .permissionDenied

def StartError.isAddressInUse : StartError → Bool
  | .configuration _ => false
  | .bind error => error.kind == .addrInUse

structure StartEnv where
  bind : Except IoError UInt16
  fallback : Except IoError UInt16
  leaseFile : Option Text
  restoreMs : UInt64
  seedMs : UInt64

/-- A started engine. The core is gone once the socket loop has ended. -/
structure Engine where
  boundPort : UInt16
  core : Option DhcpCore

def Engine.start (fromStr : Text → Option Json) (options : EngineOptions) (env : StartEnv)
    (bind : Except IoError UInt16) : Except StartError Engine :=
  match options.validate with
  | .error message => .error (.configuration message)
  | .ok () =>
    match bind with
    | .error error => .error (.bind error)
    | .ok port => .ok {
        boundPort := port
        core := some (DhcpCore.new options (loadStore fromStr env.leaseFile) env.restoreMs env.seedMs).1 }

/-- Everything the host renders, or nothing if the loop is gone. -/
def Engine.runtime (engine : Engine) (nowMs : Nat) : Option RuntimeSnapshot :=
  engine.core.map fun core => core.runtimeSnapshotAt nowMs

structure DhcpService where
  status : ServerStatus := .stopped
  error : Option Text := none
  config : DhcpConfig := {}
  engine : Option Engine := none

namespace DhcpService

def isActive (service : DhcpService) : Bool := service.status == .running || service.status == .starting

/-- A running service keeps serving under the configuration it started with. -/
def setConfig (service : DhcpService) (config : DhcpConfig) : DhcpService := { service with config := config }

def fail (service : DhcpService) (message : Text) : DhcpService :=
  { service with status := .error, error := some message }

def run (service : DhcpService) (engine : Engine) : DhcpService :=
  { service with engine := some engine, status := .running, error := none }

/-- Starts the service, falling back from the privileged port if refused. -/
def start (fromStr : Text → Option Json) (service : DhcpService) (env : StartEnv) : DhcpService :=
  if service.isActive then service
  else
    match service.config.resolve with
    | .error message => service.fail message.toList
    | .ok options =>
      let configured := listenPort service.config
      match Engine.start fromStr options env env.bind with
      | .ok engine => service.run engine
      | .error error =>
        if error.isPermissionDenied && configured == dhcpDefaultPort then
          match Engine.start fromStr options env env.fallback with
          | .ok engine => service.run engine
          | .error alt => service.fail
              ("Failed to start (port 67 denied, fallback 1067 failed: ".toList ++ alt.display ++ [')'])
        else if error.isAddressInUse then
          service.fail ("UDP port ".toList ++ Nat.toDigits 10 configured.toNat
            ++ " is already in use. Stop any other DHCP server first.".toList)
        else service.fail ("Failed to start: ".toList ++ error.display)

def stop (service : DhcpService) : DhcpService :=
  if service.status == .stopped || service.status == .stopping then { service with engine := none }
  else { service with engine := none, status := .stopped, error := none }

def handle (service : DhcpService) (input : Input) : DhcpService :=
  { service with
    engine := service.engine.map fun engine =>
      { engine with core := engine.core.map fun core => (core.step input).1 } }

def socketLost (service : DhcpService) (error : IoError) : DhcpService :=
  { service.fail ("socket is unusable: ".toList ++ error.text) with
    engine := service.engine.map fun engine => { engine with core := none } }

def maxRpcLineBytes : Nat := 1048576

/-- Room for everything in a runtime answer that is not the lease array. -/
def runtimeEnvelopeHeadroomBytes : Nat := 64 * 1024

def fittingLeases (printFloat : ℚ → Text) : Nat → List LeaseInfo → List LeaseInfo
  | _, [] => []
  | budget, lease :: rest =>
    let size := byteLen ((leaseToJson lease).toStringCompact printFloat) + 1
    if size > budget then [] else lease :: fittingLeases printFloat (budget - size) rest

def listedLeases (printFloat : ℚ → Text) (leases : List LeaseInfo) : List LeaseInfo :=
  fittingLeases printFloat (maxRpcLineBytes - runtimeEnvelopeHeadroomBytes) leases

def boundedLeaseArray (printFloat : ℚ → Text) (leases : List LeaseInfo) : List Json :=
  (listedLeases printFloat leases).map leaseToJson

def countersToJson (counters : PacketCounters) : Json :=
  .object [
    ("ackCount", jsonNat counters.ackCount),
    ("declineCount", jsonNat counters.declineCount),
    ("discoverCount", jsonNat counters.discoverCount),
    ("informCount", jsonNat counters.informCount),
    ("nakCount", jsonNat counters.nakCount),
    ("offerCount", jsonNat counters.offerCount),
    ("packetsReceived", jsonNat counters.packetsReceived),
    ("packetsSentEstimate", jsonNat counters.packetsSent),
    ("releaseCount", jsonNat counters.releaseCount),
    ("requestCount", jsonNat counters.requestCount)]

def poolToJson (pool : PoolInfo) : Json :=
  .object [
    ("activeCount", jsonNat pool.activeCount),
    ("poolSize", jsonNat pool.poolSize),
    ("rangeEnd", .string pool.rangeEnd.toText),
    ("rangeStart", .string pool.rangeStart.toText),
    ("staticEntryCount", jsonNat pool.staticEntryCount),
    ("utilizationPct", .number (.float pool.utilizationPct))]

def snapshot (service : DhcpService) : Json :=
  .object ((service.error.map fun error => ("errorMessage", Json.string error)).toList ++ [
    ("id", .string "dhcp".toList),
    ("name", .string "DHCP Server".toList),
    ("port", jsonNat (listenPort service.config).toNat),
    ("status", .string service.status.asStr.toList)])

def stoppedPoolInfo (service : DhcpService) : Json :=
  let (start, stop, size, statics) := match service.config.resolve with
    | .error _ => (Json.null, Json.null, 0, 0)
    | .ok options => (.string options.rangeStart.toText, .string options.rangeEnd.toText,
        poolSize options.rangeStart options.rangeEnd, options.statics.size)
  .object [
    ("activeCount", jsonNat 0),
    ("poolSize", jsonNat size),
    ("rangeEnd", stop),
    ("rangeStart", start),
    ("staticEntryCount", jsonNat statics),
    ("utilizationPct", .number (.float 0))]

def engineRuntime (service : DhcpService) (nowMs : Nat) : Option RuntimeSnapshot :=
  service.engine.bind fun engine => engine.runtime nowMs

def runtime (printFloat : ℚ → Text) (service : DhcpService) (nowMs : Nat) : Json :=
  let (leases, counters, pool) := match service.engineRuntime nowMs with
    | some snapshot => (snapshot.leases, snapshot.counters, poolToJson snapshot.pool)
    | none => ([], {}, service.stoppedPoolInfo)
  .object [
    ("boundPort", match service.engine with
      | some engine => jsonNat engine.boundPort.toNat
      | none => .null),
    ("leases", .array (boundedLeaseArray printFloat leases)),
    ("packetCounters", countersToJson counters),
    ("poolInfo", pool),
    ("snapshot", service.snapshot)]

/-- The states the daemon brings the service to, under configurations out of its store. -/
inductive Reached {Value : Type} [DecidableEq Value] (fromValue : FromValue Value)
    (fromStr : Text → Option Json) : DhcpService → Nat → Prop
  | new : Reached fromValue fromStr {} 0
  | setConfig {service time store last} : Reached fromValue fromStr service time →
      ConfigStore.Reach fromValue store last → Reached fromValue fromStr (service.setConfig store.dhcp) time
  | start {service time} (env : StartEnv) : Reached fromValue fromStr service time →
      time ≤ env.restoreMs.toNat → env.restoreMs ≤ env.seedMs →
      Reached fromValue fromStr (service.start fromStr env) env.seedMs.toNat
  | stop {service time} : Reached fromValue fromStr service time → Reached fromValue fromStr service.stop time
  | handle {service time} (input : Input) : Reached fromValue fromStr service time →
      time ≤ input.now → Reached fromValue fromStr (service.handle input) input.now
  | socketLost {service time} (error : IoError) : Reached fromValue fromStr service time →
      Reached fromValue fromStr (service.socketLost error) time

def maxErrorMessageBytes : Nat := 16384

structure RunningCore (core : DhcpCore) (time : Nat) : Prop where
  origin : ∃ (options : EngineOptions) (store : LeaseStore) (events : List (Event DhcpCore Input))
    (since : Nat), options.Validated ∧ LoadedStore store ∧ since ≤ time ∧ Runs options store events core since

structure Healthy (service : DhcpService) (time : Nat) : Prop where
  config : ∃ options, service.config.resolve = .ok options
  message : ∀ error, service.error = some error → byteLen error ≤ maxErrorMessageBytes
  core : ∀ engine core, service.engine = some engine → engine.core = some core → RunningCore core time

section Health

variable {service : DhcpService} {time later : Nat}

theorem RunningCore.mono {core : DhcpCore} (running : RunningCore core time) (bound : time ≤ later) :
    RunningCore core later := by
  obtain ⟨opts, store, events, since, valid, loaded, early, run⟩ := running.origin
  exact ⟨opts, store, events, since, valid, loaded, early.trans bound, run⟩

theorem RunningCore.step {core : DhcpCore} {input : Input} (running : RunningCore core time)
    (bound : time ≤ input.now) : RunningCore (core.step input).1 input.now := by
  obtain ⟨opts, store, events, since, valid, loaded, early, restoreMs, seedMs, ordered, run⟩ := running.origin
  exact ⟨opts, store, events ++ [⟨core, input⟩], input.now, valid, loaded, Nat.le_refl _, restoreMs,
    seedMs, ordered, run.next input (early.trans bound)⟩

theorem RunningCore.new (fromStr : Text → Option Json) {opts : EngineOptions}
    (valid : opts.Validated) (env : StartEnv) (ordered : env.restoreMs ≤ env.seedMs) :
    RunningCore (DhcpCore.new opts (loadStore fromStr env.leaseFile) env.restoreMs env.seedMs).1
      env.seedMs.toNat :=
  ⟨opts, _, [], _, valid, loadStore_loaded fromStr env.leaseFile, Nat.le_refl _, env.restoreMs,
    env.seedMs, ordered, .start⟩

theorem Healthy.mono (healthy : Healthy service time) (bound : time ≤ later) : Healthy service later :=
  ⟨healthy.config, healthy.message, fun engine core atEngine atCore =>
    (healthy.core engine core atEngine atCore).mono bound⟩

theorem Healthy.fail (healthy : Healthy service time) {msg : Text}
    (short : byteLen msg ≤ maxErrorMessageBytes) : Healthy (service.fail msg) time :=
  ⟨healthy.config, fun _ same => Option.some.inj same ▸ short, healthy.core⟩

theorem Healthy.run (healthy : Healthy service time) {engine : Engine}
    (running : ∀ core, engine.core = some core → RunningCore core time) : Healthy (service.run engine) time := by
  refine ⟨healthy.config, fun _ same => ?_, fun other core same atCore => ?_⟩
  · cases same
  · cases same
    exact running core atCore

theorem Engine.start_cases (fromStr : Text → Option Json) {opts : EngineOptions} (valid : opts.Validated)
    (env : StartEnv) (bind : Except IoError UInt16) :
    (∃ error : IoError, Engine.start fromStr opts env bind = .error (.bind error)) ∨
      ∃ port : UInt16, Engine.start fromStr opts env bind = .ok {
        boundPort := port
        core := some (DhcpCore.new opts (loadStore fromStr env.leaseFile) env.restoreMs
          env.seedMs).1 } := by
  have passes : opts.validate = .ok () := by
    obtain ⟨some, few⟩ := valid.pool
    have nonzero : ¬ poolSize opts.rangeStart opts.rangeEnd = 0 := by omega
    have fits : ¬ poolSize opts.rangeStart opts.rangeEnd > maxDhcpPoolSize := by omega
    simp [EngineOptions.validate, if_neg nonzero, if_neg fits]
  unfold Engine.start
  rw [passes]
  cases bind with
  | error error => exact .inl ⟨error, rfl⟩
  | ok port => exact .inr ⟨port, rfl⟩

theorem Healthy.start (fromStr : Text → Option Json) (healthy : Healthy service time) (env : StartEnv)
    (bound : time ≤ env.restoreMs.toNat) (ordered : env.restoreMs ≤ env.seedMs) :
    Healthy (service.start fromStr env) env.seedMs.toNat := by
  have current : Healthy service env.seedMs.toNat := healthy.mono (bound.trans ordered)
  obtain ⟨opts, resolved⟩ := healthy.config
  have valid := DhcpConfig.resolve_validated resolved
  have started : ∀ port : UInt16, Healthy (service.run {
      boundPort := port
      core := some (DhcpCore.new opts (loadStore fromStr env.leaseFile) env.restoreMs env.seedMs).1 })
        env.seedMs.toNat := by
    intro port
    refine current.run fun core same => ?_
    cases same
    exact .new fromStr valid env ordered
  unfold DhcpService.start
  split
  · exact current
  · rw [resolved]
    dsimp only
    rcases Engine.start_cases fromStr valid env env.bind with ⟨error, refused⟩ | ⟨port, bound⟩
    · rw [refused]
      dsimp only
      split
      · rcases Engine.start_cases fromStr valid env env.fallback with ⟨alt, refused⟩ | ⟨port, bound⟩
        · rw [refused]
          refine current.fail ?_
          have short := alt.short
          have words : byteLen "Failed to start (port 67 denied, fallback 1067 failed: ".toList = 55 := by
            rw [String.toList_ofList]
            decide
          have bracket : byteLen [')'] = 1 := by decide
          simp only [byteLen_append, StartError.display]
          simp only [maxErrorMessageBytes, maxIoErrorBytes] at *
          omega
        · rw [bound]
          exact started port
      · split
        · refine current.fail ?_
          have port := (listenPort service.config).toNat_lt
          have digits := byteLen_toDigits (n := (listenPort service.config).toNat) (show 0 < 5 by decide)
            (by omega)
          have words : byteLen "UDP port ".toList = 9 ∧
              byteLen " is already in use. Stop any other DHCP server first.".toList = 53 := by
            rw [String.toList_ofList, String.toList_ofList]
            decide
          simp only [byteLen_append, maxErrorMessageBytes]
          omega
        · refine current.fail ?_
          have short := error.short
          have words : byteLen "Failed to start: ".toList = 17 := by decide
          simp only [byteLen_append, StartError.display]
          simp only [maxErrorMessageBytes, maxIoErrorBytes] at *
          omega
    · rw [bound]
      exact started port

theorem Healthy.stop (healthy : Healthy service time) : Healthy service.stop time := by
  unfold DhcpService.stop
  split
  · exact ⟨healthy.config, healthy.message, by simp⟩
  · exact ⟨healthy.config, by simp, by simp⟩

theorem Healthy.handle (healthy : Healthy service time) {input : Input} (bound : time ≤ input.now) :
    Healthy (service.handle input) input.now := by
  refine ⟨healthy.config, healthy.message, fun engine core atEngine atCore => ?_⟩
  simp only [DhcpService.handle, Option.map_eq_some_iff] at atEngine
  obtain ⟨pre, atBefore, rfl⟩ := atEngine
  simp only [Option.map_eq_some_iff] at atCore
  obtain ⟨old, atOld, rfl⟩ := atCore
  exact (healthy.core pre old atBefore atOld).step bound

theorem Healthy.socketLost (healthy : Healthy service time) (error : IoError) :
    Healthy (service.socketLost error) time := by
  refine ⟨healthy.config, fun _ same => ?_, fun engine core atEngine atCore => ?_⟩
  · have short := error.short
    have words : byteLen "socket is unusable: ".toList = 20 := by decide
    rw [← Option.some.inj same]
    simp only [byteLen_append]
    simp only [maxErrorMessageBytes, maxIoErrorBytes] at *
    omega
  · simp only [DhcpService.socketLost, Option.map_eq_some_iff] at atEngine
    obtain ⟨pre, _, rfl⟩ := atEngine
    cases atCore

end Health

/-- Every state that the service reaches is healthy. -/
theorem Reached.healthy {Value : Type} [DecidableEq Value] {fromValue : FromValue Value}
    {fromStr : Text → Option Json} {service : DhcpService} {time : Nat}
    (reached : Reached fromValue fromStr service time) : Healthy service time := by
  induction reached with
  | new => exact ⟨ConfigStore.resolve_default, by simp, by simp⟩
  | setConfig _ ok ih => exact ⟨ok.resolvable.dhcp, ih.message, ih.core⟩
  | start env _ bound ordered ih => exact ih.start fromStr env bound ordered
  | stop _ ih => exact ih.stop
  | handle input _ bound ih => exact ih.handle bound
  | socketLost error _ ih => exact ih.socketLost error

end DhcpService

end NexTerminal.Daemon
