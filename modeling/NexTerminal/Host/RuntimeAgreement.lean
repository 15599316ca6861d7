import NexTerminal.Daemon.DhcpService
import NexTerminal.Host.RuntimeProtocol

namespace NexTerminal.Host

open Std Library Daemon
open Dhcp (Text Ipv4Addr LeaseInfo PacketCounters PoolInfo LeaseType RuntimeSnapshot DhcpCore
  leaseToJson jsonNat hostnameToJson)

theorem fieldsOf_fromJson (fields : List (String × Json)) :
    fieldsOf (fromJson (.object fields)) = some (fieldsFromJson fields) := by
  rw [fromJson, fieldsOf]

theorem hasExactShape_fromJson (fields : List (String × Json)) (allowed required : List String) :
    hasExactShape (fieldsFromJson fields) allowed required =
      (fields.all (fun field => allowed.contains field.1) &&
        required.all fun key => (fields.lookup key).isSome) := by
  have named : ∀ key : String, (allowed.map js).contains (js key) = allowed.contains key := by
    intro key
    rw [Bool.eq_iff_iff, List.contains_iff_mem, List.contains_iff_mem, List.mem_map]
    exact ⟨fun ⟨other, mem, same⟩ => js_injective same ▸ mem, fun mem => ⟨key, mem, rfl⟩⟩
  have keys : (fieldsFromJson fields).all (fun field => (allowed.map js).contains field.1) =
      fields.all fun field => allowed.contains field.1 := by
    induction fields with
    | nil => rfl
    | cons field rest ih =>
      rw [fieldsFromJson, fieldFromJson, List.all_cons, List.all_cons, named, ih]
  unfold hasExactShape
  congr 2
  funext key
  rw [ownField_fromJson, Option.isSome_map]

theorem safeInteger_jsonNat (n : Nat) {maximum : Nat} (safe : maximum ≤ maxSafeInteger) :
    safeInteger (fromJson (jsonNat n)) 0 maximum = if n ≤ maximum then some (n : ℚ) else none := by
  have limit : maximum < 2 ^ 53 := by
    simp only [maxSafeInteger] at safe
    omega
  have whole : ((f64OfNat n : ℕ) : ℚ).isInt = true := by simp [Rat.isInt]
  have bounded : f64OfNat n ≤ maximum ↔ n ≤ maximum := f64OfNat_le_iff limit
  rw [safeInteger, jsonNat, fromJson, numberFromJson, checkedNumber]
  simp only [JsNumber.isSafeInteger, JsNumber.within, whole, Nat.cast_le, bounded]
  by_cases small : n ≤ maximum
  · have exact_ : f64OfNat n = n := f64OfNat_exact (by omega)
    rw [exact_, if_pos small, if_pos (by simpa using ⟨by omega, small⟩)]
  · rw [if_neg small, if_neg (by simp [small])]

theorem boundedString_fromJson (text : Text) (maximumBytes : Nat) (allowEmpty : Bool) :
    boundedString (fromJson (.string text)) maximumBytes allowEmpty =
      if !allowEmpty && text.isEmpty then none
      else if byteLen text ≤ maximumBytes then some (encodeUtf16 text) else none := by
  have empty : (encodeUtf16 text).isEmpty = text.isEmpty := by
    rw [Bool.eq_iff_iff, List.isEmpty_iff, List.isEmpty_iff]
    exact ⟨fun none => encodeUtf16_injective none, fun none => none ▸ rfl⟩
  rw [fromJson, boundedString, utf8Bytes, decodeUtf16_encodeUtf16, empty]

theorem boundedString_accepts {text : Text} {maximumBytes : Nat} (ne : text ≠ [])
    (short : byteLen text ≤ maximumBytes) (allowEmpty : Bool) :
    boundedString (fromJson (.string text)) maximumBytes allowEmpty = some (encodeUtf16 text) := by
  rw [boundedString_fromJson, List.isEmpty_eq_false_iff.mpr ne, Bool.and_false,
    if_neg Bool.false_ne_true, if_pos short]

theorem enumeration_fromJson {α : Type} (names : List (String × α)) (name : String) :
    enumeration names (fromJson (.string name.toList)) = names.lookup name := by
  rw [fromJson, enumeration]
  induction names with
  | nil => rfl
  | cons entry rest ih =>
    rw [List.find?_cons, List.lookup_cons]
    by_cases same : name = entry.1
    · simp [same, js]
    · have ne : (js entry.1 == encodeUtf16 name.toList) = false :=
        beq_eq_false_iff_ne.mpr fun units => same (js_injective units).symm
      rw [ne, beq_eq_false_iff_ne.mpr same]
      exact ih

structure FitLease (lease : LeaseInfo) : Prop where
  wire : Dhcp.WireKey lease.mac
  clean : ∀ name, lease.hostname = some name → Dhcp.Sanitized name
  leaseSec : lease.leaseSec < 2 ^ 32
  remainingSec : lease.remainingSec ≤ lease.expiresAt

def SafeTimes (lease : LeaseInfo) : Prop := lease.boundAt ≤ maxSafeInteger ∧ lease.expiresAt ≤ maxSafeInteger

theorem exactFields_fromJson (fields : List (String × Json)) (allowed required : List String)
    (shape : (fields.all (fun field => allowed.contains field.1) &&
      required.all fun key => (fields.lookup key).isSome) = true) :
    exactFields (fromJson (.object fields)) allowed required = some (fieldsFromJson fields) := by
  rw [exactFields, fieldsOf_fromJson, Option.filter_some, hasExactShape_fromJson, shape, if_pos rfl]

theorem mac_fits {mac : Dhcp.MacKey} (wire : Dhcp.WireKey mac) :
    mac.text ≠ [] ∧ byteLen mac.text ≤ maxDhcpFieldBytes := by
  have ne := wire.text_nonempty
  obtain ⟨pairs, text, shape, _, short⟩ := wire
  have joined := byteLen_intercalate '-' pairs
  have dash : '-'.utf8Size = 1 := by decide
  have each : ∀ size ∈ pairs.map byteLen, size ≤ 2 := by
    intro size mem
    obtain ⟨pair, within, rfl⟩ := List.mem_map.mp mem
    obtain ⟨two, upper⟩ := shape pair within
    rw [List.all_eq_true] at upper
    rw [byteLen_ascii fun c inside => (Dhcp.upper_plain (upper c inside)).2, two]
  have total := List.sum_le_card_nsmul _ 2 each
  rw [List.length_map, smul_eq_mul] at total
  refine ⟨List.isEmpty_eq_false_iff.mp ne, ?_⟩
  rw [dash] at joined
  simp only [Dhcp.maxHardwareLen] at short
  rw [text, maxDhcpFieldBytes]
  omega

theorem isSome_check_bind {α β : Type} {check : Prop} [Decidable check] {a : α} {next : α → Option β} :
    ((if check then some a else none).bind next).isSome = true ↔ check ∧ (next a).isSome = true := by
  by_cases holds : check
  · simp [holds]
  · simp [holds]

theorem parseDhcpLease_isSome {lease : LeaseInfo} (fit : FitLease lease) :
    (parseDhcpLease (fromJson (leaseToJson lease))).isSome = true ↔ SafeTimes lease := by
  obtain ⟨named, macBytes⟩ := mac_fits fit.wire
  have ipBytes : byteLen lease.ip.toText ≤ maxNetworkAddressBytes := lease.ip.byteLen_toText.trans (by decide)
  have kind : ∃ kind, dhcpLeaseType (fromJson (.string lease.leaseType.asStr.toList)) = some kind := by
    cases lease.leaseType with
    | dynamic => exact ⟨.dynamic, by decide⟩
    | static => exact ⟨.static, by decide⟩
    | renewed => exact ⟨.renewed, by decide⟩
    | inform => exact ⟨.inform, by decide⟩
  have host : ∃ hostname, nullableString (fromJson (hostnameToJson lease.hostname)) maxDhcpFieldBytes =
      some hostname := by
    cases atHost : lease.hostname with
    | none => exact ⟨none, by rw [hostnameToJson, fromJson, nullableString]⟩
    | some name =>
      have short := (fit.clean name atHost).spec.2
      refine ⟨some (encodeUtf16 name), ?_⟩
      have read : boundedString (fromJson (.string name)) maxDhcpFieldBytes true =
          some (encodeUtf16 name) := by
        rw [boundedString_fromJson, if_neg (by simp)]
        exact if_pos short
      rw [hostnameToJson, nullableString, read]
      · rfl
      · intro null
        cases null
  obtain ⟨kind, atKind⟩ := kind
  obtain ⟨host, atHost⟩ := host
  unfold parseDhcpLease leaseToJson
  rw [exactFields_fromJson _ _ _ rfl]
  simp only [Option.bind_eq_bind, Option.bind_some, field, optionalField, ownField_fromJson, List.lookup_cons,
    List.lookup_nil,
    String.reduceBEq, Option.map_some, Option.map_none, Option.getD_some, boundedString_accepts named macBytes,
    boundedString_accepts lease.ip.toText_ne_nil ipBytes, safeInteger_jsonNat _ (Nat.le_refl maxSafeInteger),
    atHost, atKind, isSome_check_bind, Option.pure_def, Option.isSome_some, and_true]
  have secs := fit.leaseSec
  have remaining := fit.remainingSec
  have large : 2 ^ 32 ≤ maxSafeInteger := by decide
  unfold SafeTimes
  omega

theorem parsePacketCounters_isSome {counters : PacketCounters} (sound : counters.Sound) :
    (parsePacketCounters (fromJson (DhcpService.countersToJson counters))).isSome = true ↔
      counters.packetsReceived ≤ maxSafeInteger := by
  unfold parsePacketCounters DhcpService.countersToJson
  rw [exactFields_fromJson _ _ _ rfl]
  simp only [Option.bind_eq_bind, Option.bind_some, field, ownField_fromJson, List.lookup_cons,
    String.reduceBEq, Option.map_some, Option.getD_some, safeInteger_jsonNat _ (Nat.le_refl maxSafeInteger),
    isSome_check_bind, Option.pure_def, Option.isSome_some, and_true]
  have requests := sound.requests
  have replies := sound.replies
  simp only [PacketCounters.requests, PacketCounters.replies, List.mem_cons,
    forall_eq_or_imp] at requests replies
  omega

structure FitPool (pool : PoolInfo) : Prop where
  poolSize : pool.poolSize ≤ maxDhcpPoolSize
  activeCount : pool.activeCount ≤ maxDhcpRuntimeLeases
  utilization : 0 ≤ pool.utilizationPct ∧ pool.utilizationPct ≤ 100
  statics : pool.staticEntryCount ≤ maxStaticReservations

theorem parsePoolInfo_accepts {pool : PoolInfo} (fit : FitPool pool) :
    ∃ info, parsePoolInfo (fromJson (DhcpService.poolToJson pool)) = some info ∧
      info.activeCount = pool.activeCount := by
  have bytes : ∀ ip : Ipv4Addr, byteLen ip.toText ≤ maxNetworkAddressBytes :=
    fun ip => ip.byteLen_toText.trans (by decide)
  have percent : finiteNumber (fromJson (.number (.float pool.utilizationPct))) 0 100 =
      some pool.utilizationPct := by
    rw [finiteNumber, fromJson, numberFromJson, checkedNumber, if_pos]
    simpa [JsNumber.within] using fit.utilization
  unfold parsePoolInfo DhcpService.poolToJson
  rw [exactFields_fromJson _ _ _ rfl]
  simp only [Option.bind_eq_bind, Option.bind_some, field, ownField_fromJson, List.lookup_cons,
    String.reduceBEq, Option.map_some, Option.getD_some,
    boundedString_accepts pool.rangeStart.toText_ne_nil (bytes pool.rangeStart),
    boundedString_accepts pool.rangeEnd.toText_ne_nil (bytes pool.rangeEnd),
    safeInteger_jsonNat _ (show maxDhcpPoolSize ≤ maxSafeInteger by decide),
    safeInteger_jsonNat _ (show maxDhcpRuntimeLeases ≤ maxSafeInteger by decide),
    safeInteger_jsonNat _ (show maxStaticReservations ≤ maxSafeInteger by decide),
    if_pos fit.poolSize, if_pos fit.activeCount, if_pos fit.statics, percent]
  exact ⟨_, rfl, rfl⟩

theorem port_accepts (value : UInt16) : port (fromJson (jsonNat value.toNat)) = some (value.toNat : ℚ) := by
  have small : value.toNat ≤ maxPort := by
    have bound := value.toNat_lt
    rw [maxPort]
    omega
  rw [port, safeInteger_jsonNat _ (by decide), if_pos small]

theorem parseSnapshot_accepts {service : DhcpService} {time : Nat} (healthy : service.Healthy time) :
    ∃ snapshot, parseSnapshot (fromJson service.snapshot) = some snapshot ∧ snapshot.id = .dhcp := by
  have status : ∃ status, serverStatus (fromJson (.string service.status.asStr.toList)) = some status := by
    rw [serverStatus, enumeration_fromJson]
    cases service.status with
    | stopped => exact ⟨.stopped, by decide⟩
    | starting => exact ⟨.starting, by decide⟩
    | running => exact ⟨.running, by decide⟩
    | stopping => exact ⟨.stopping, by decide⟩
    | error => exact ⟨.error, by decide⟩
  obtain ⟨status, atStatus⟩ := status
  unfold parseSnapshot DhcpService.snapshot
  cases msg : service.error with
  | none =>
    rw [Option.map_none, Option.toList_none, List.nil_append, exactFields_fromJson _ _ _ rfl]
    simp only [Option.bind_eq_bind, Option.bind_some, field, ownField_fromJson, List.lookup_cons,
      String.reduceBEq, Option.map_some, Option.getD_some, port_accepts, atStatus]
    exact ⟨_, rfl, rfl⟩
  | some text =>
    have short : byteLen text ≤ maxRpcTextBytes := (healthy.message text msg).trans (by decide)
    have read : boundedString (fromJson (.string text)) maxRpcTextBytes true = some (encodeUtf16 text) := by
      rw [boundedString_fromJson, if_neg (by simp), if_pos short]
    rw [Option.map_some, Option.toList_some, List.singleton_append, exactFields_fromJson _ _ _ rfl]
    simp only [Option.bind_eq_bind, Option.bind_some, field, optionalField, ownField_fromJson, List.lookup_cons,
      String.reduceBEq, Option.map_some, Option.getD_some, port_accepts, atStatus, read]
    exact ⟨_, rfl, rfl⟩

theorem fittingLeases_sublist (printFloat : ℚ → Text) (budget : Nat) (leases : List LeaseInfo) :
    (DhcpService.fittingLeases printFloat budget leases).Sublist leases := by
  induction leases generalizing budget with
  | nil => exact .slnil
  | cons lease rest ih =>
    rw [DhcpService.fittingLeases]
    split
    · exact List.nil_sublist _
    · exact (ih _).cons_cons lease

theorem mapM_isSome {α β : Type} (parse : α → Option β) (items : List α) :
    (items.mapM parse).isSome = true ↔ ∀ item ∈ items, (parse item).isSome = true := by
  induction items with
  | nil => simp
  | cons item rest ih =>
    rw [List.mapM_cons, List.forall_mem_cons, ← ih]
    cases parse item with
    | none => simp
    | some b => cases rest.mapM parse <;> simp

theorem parseLeases_isSome {leases : List LeaseInfo} (each : ∀ lease ∈ leases, FitLease lease)
    (few : leases.length ≤ maxDhcpRuntimeLeases) :
    (parsedArray (fromJson (.array (leases.map leaseToJson))) maxDhcpRuntimeLeases
      parseDhcpLease).isSome = true ↔ ∀ lease ∈ leases, SafeTimes lease := by
  rw [parsedArray, fromJson, arrayValues, itemsFromJson_eq, List.length_map, List.length_map,
    if_neg (Nat.not_lt.mpr few), Option.bind_eq_bind, Option.bind_some, mapM_isSome, List.map_map,
    List.forall_mem_map]
  exact forall₂_congr fun lease mem => parseDhcpLease_isSome (each lease mem)

theorem length_of_mapM {α β : Type} {parse : α → Option β} {items : List α} {results : List β}
    (parsed : items.mapM parse = some results) : results.length = items.length := by
  induction items generalizing results with
  | nil =>
    cases parsed
    rfl
  | cons item rest ih =>
    simp only [List.mapM_cons, Option.bind_eq_bind, Option.bind_eq_some_iff, Option.pure_def,
      Option.some.injEq] at parsed
    obtain ⟨b, _, later, atLater, rfl⟩ := parsed
    rw [List.length_cons, List.length_cons, ih atLater]

structure FitParts (listed : List LeaseInfo) (counters : PacketCounters) (pool : PoolInfo)
    (boundPort snapshot : Json) : Prop where
  leases : ∀ lease ∈ listed, FitLease lease
  sound : counters.Sound
  fitPool : FitPool pool
  few : listed.length ≤ pool.activeCount
  bound : ∃ bound, nullablePort (fromJson boundPort) = some bound
  named : ∃ parsed, parseSnapshot (fromJson snapshot) = some parsed ∧ parsed.id = .dhcp

theorem parseDhcpRuntime_parts {mem : List LeaseInfo} {counters : PacketCounters} {pool : PoolInfo}
    {boundPort snapshot : Json} (fit : FitParts mem counters pool boundPort snapshot) :
    (parseDhcpRuntime (fieldsFromJson [("boundPort", boundPort),
      ("leases", .array (mem.map leaseToJson)), ("packetCounters", DhcpService.countersToJson counters),
      ("poolInfo", DhcpService.poolToJson pool), ("snapshot", snapshot)])).isSome = true ↔
      counters.packetsReceived ≤ maxSafeInteger ∧ ∀ lease ∈ mem, SafeTimes lease := by
  obtain ⟨bound, atBound⟩ := fit.bound
  obtain ⟨parsed, atSnapshot, named⟩ := fit.named
  obtain ⟨info, atPool, active⟩ := parsePoolInfo_accepts fit.fitPool
  have leases := parseLeases_isSome fit.leases (fit.few.trans fit.fitPool.activeCount)
  have counts := parsePacketCounters_isSome fit.sound
  rw [← leases, ← counts]
  have shape : hasExactShape (fieldsFromJson [("boundPort", boundPort),
      ("leases", .array (mem.map leaseToJson)), ("packetCounters", DhcpService.countersToJson counters),
      ("poolInfo", DhcpService.poolToJson pool), ("snapshot", snapshot)]) runtimeKeys runtimeKeys = true := by
    rw [hasExactShape_fromJson]
    rfl
  unfold parseDhcpRuntime
  rw [shape, Bool.not_true, if_neg Bool.false_ne_true]
  simp only [field, ownField_fromJson, List.lookup_cons,
    String.reduceBEq, Option.map_some, Option.getD_some, atSnapshot, atPool, atBound]
  cases atLeases : parsedArray (fromJson (.array (mem.map leaseToJson))) maxDhcpRuntimeLeases
      parseDhcpLease with
  | none => simp
  | some results =>
    cases parsePacketCounters (fromJson (DhcpService.countersToJson counters)) with
    | none => simp
    | some counts =>
      have length : results.length = mem.length := by
        rw [parsedArray, fromJson, arrayValues, itemsFromJson_eq, List.length_map, List.length_map,
          if_neg (Nat.not_lt.mpr (fit.few.trans fit.fitPool.activeCount)), Option.bind_eq_bind,
          Option.bind_some] at atLeases
        rw [length_of_mapM atLeases, List.length_map, List.length_map]
      have coherent : ¬ ((results.length : ℚ) > info.activeCount) := by
        rw [active, length, gt_iff_lt, Nat.cast_lt]
        exact Nat.not_lt.mpr fit.few
      simp [named, coherent]

variable {events : List (Event DhcpCore Dhcp.Input)} {options : Dhcp.EngineOptions} {store : Dhcp.LeaseStore}
   {core : DhcpCore}

section

variable {time now : Nat} (run : Dhcp.Runs options store events core time)
include run

theorem fitLease_of_active (valid : options.Validated) (loaded : Dhcp.LoadedStore store) :
    ∀ lease ∈ core.table.activeLeases now, FitLease lease := by
  intro lease mem
  obtain ⟨mac, entry, hit, _, _, rfl⟩ := Dhcp.LeaseTable.mem_activeLeases.mp mem
  have known := (run.recorded valid loaded).entries mac entry hit
  refine ⟨known.wire, known.clean, known.leaseSecs, ?_⟩
  simp only [Dhcp.LeaseTable.infoFor]
  omega

theorem safeTimes_of_active (valid : options.Validated) (loaded : Dhcp.LoadedStore store) (later : time ≤ now)
    (early : now + Dhcp.maxDhcpLeaseSeconds * 1000 ≤ maxSafeInteger) :
    ∀ lease ∈ core.table.activeLeases now, SafeTimes lease := by
  intro lease mem
  obtain ⟨mac, entry, hit, _, _, rfl⟩ := Dhcp.LeaseTable.mem_activeLeases.mp mem
  have timely := ((run.timely valid loaded).mono later) mac entry hit
  have limit : Dhcp.horizon now ≤ maxSafeInteger := by
    have stored : Dhcp.maxSafeIntegerMs ≤ maxSafeInteger := by decide
    simp only [Dhcp.horizon, Nat.max_le]
    exact ⟨stored, early⟩
  refine ⟨?_, timely.expiresAt.trans limit⟩
  simp only [Dhcp.LeaseTable.infoFor]
  cases since : entry.boundAtMs with
  | none => exact (Nat.le_add_right now _).trans early
  | some moment => exact (timely.boundAt moment since).trans limit

theorem fitPool_of_runs (valid : options.Validated) (later : time ≤ now) :
    FitPool (core.runtimeSnapshotAt now).pool := by
  have sane := (run.sane valid).mono later
  have cfg : core.table.config = options.settings.table := congrArg Dhcp.Settings.table sane.settings
  have start : core.table.rangeStart = options.rangeStart := congrArg Dhcp.LeaseTable.rangeStart cfg
  have stop : core.table.rangeEnd = options.rangeEnd := congrArg Dhcp.LeaseTable.rangeEnd cfg
  have statics : core.table.statics = options.statics := congrArg Dhcp.LeaseTable.statics cfg
  have small : Dhcp.poolSize core.table.rangeStart core.table.rangeEnd ≤ Dhcp.maxDhcpPoolSize := by
    rw [start, stop]
    exact valid.pool.2
  have few : core.table.statics.size ≤ Dhcp.maxStaticReservations := statics ▸ valid.few
  exact ⟨small, sane.invariant.active_few small few, Dhcp.utilization_bounds _ _, few⟩

end

/-- What the answer of a running engine has to stay within. -/
def SafeNumbers (printFloat : ℚ → Text) (snapshot : RuntimeSnapshot) : Prop :=
  snapshot.counters.packetsReceived ≤ maxSafeInteger ∧
    ∀ lease ∈ DhcpService.listedLeases printFloat snapshot.leases, SafeTimes lease

def hostAccepts (answer : Json) : Bool := ((fieldsOf (fromJson answer)).bind parseDhcpRuntime).isSome

section Answers

variable {Value : Type} [DecidableEq Value] {fromValue : FromValue Value} {fromStr : Text → Option Json}
  {service : DhcpService} {time now : Nat} (printFloat : ℚ → Text)

theorem bound_accepts (engine : Option Engine) :
    ∃ bound, nullablePort (fromJson (match engine with
      | some engine => jsonNat engine.boundPort.toNat
      | none => .null)) = some bound := by
  cases engine with
  | none =>
    refine ⟨none, ?_⟩
    rw [fromJson, nullablePort]
  | some engine =>
    refine ⟨some engine.boundPort.toNat, ?_⟩
    rw [nullablePort, port_accepts]
    · rfl
    · intro null
      cases null

theorem hostAccepts_running (healthy : service.Healthy time) (later : time ≤ now)
    {snapshot : RuntimeSnapshot} (running : service.engineRuntime now = some snapshot) :
    hostAccepts (service.runtime printFloat now) = true ↔ SafeNumbers printFloat snapshot := by
  obtain ⟨engine, atEngine, atRuntime⟩ := Option.bind_eq_some_iff.mp running
  obtain ⟨core, atCore, rfl⟩ := Option.map_eq_some_iff.mp atRuntime
  obtain ⟨options, store, events, since, valid, loaded, early, run⟩ :=
    (healthy.core engine core atEngine atCore).origin
  have fit := fitPool_of_runs run valid (early.trans later)
  have listed := fittingLeases_sublist printFloat
    (DhcpService.maxRpcLineBytes - DhcpService.runtimeEnvelopeHeadroomBytes) (core.table.activeLeases now)
  have parts := parseDhcpRuntime_parts {
    leases := fun lease mem => fitLease_of_active run valid loaded lease (listed.subset mem)
    sound := run.counters
    fitPool := fit
    few := listed.length_le
    bound := bound_accepts service.engine
    named := parseSnapshot_accepts healthy }
  rw [hostAccepts, DhcpService.runtime, running, fieldsOf_fromJson]
  exact parts

theorem hostAccepts_stopped (healthy : service.Healthy time) (silent : service.engineRuntime now = none) :
    hostAccepts (service.runtime printFloat now) = true := by
  obtain ⟨options, resolved⟩ := healthy.config
  have valid := Dhcp.DhcpConfig.resolve_validated resolved
  have pool : service.stoppedPoolInfo = DhcpService.poolToJson {
      rangeStart := options.rangeStart, rangeEnd := options.rangeEnd
      poolSize := Dhcp.poolSize options.rangeStart options.rangeEnd, activeCount := 0
      utilizationPct := 0, staticEntryCount := options.statics.size } := by
    rw [DhcpService.stoppedPoolInfo, resolved]
    rfl
  have fit : FitPool {
      rangeStart := options.rangeStart, rangeEnd := options.rangeEnd
      poolSize := Dhcp.poolSize options.rangeStart options.rangeEnd, activeCount := 0
      utilizationPct := 0, staticEntryCount := options.statics.size } :=
    ⟨valid.pool.2, Nat.zero_le _, by norm_num, valid.few⟩
  have nothing : (PacketCounters.Sound {}) := by
    constructor <;> simp [PacketCounters.requests, PacketCounters.replies]
  have parts := parseDhcpRuntime_parts {
    leases := fun lease mem => absurd mem (List.not_mem_nil)
    sound := nothing
    fitPool := fit
    few := Nat.zero_le _
    bound := bound_accepts service.engine
    named := parseSnapshot_accepts healthy }
  rw [hostAccepts, DhcpService.runtime, silent, fieldsOf_fromJson, pool]
  exact parts.mpr ⟨Nat.zero_le _, by simp⟩

/-- The answer of a reachable service passes, unless its counters or times are beyond what a double tells apart. -/
theorem runtime_accepted (reached : DhcpService.Reached fromValue fromStr service time) (later : time ≤ now) :
    (service.engineRuntime now = none → hostAccepts (service.runtime printFloat now) = true) ∧
    ∀ snapshot, service.engineRuntime now = some snapshot →
      (hostAccepts (service.runtime printFloat now) = true ↔ SafeNumbers printFloat snapshot) ∧
      (snapshot.counters.packetsReceived ≤ maxSafeInteger →
        now + Dhcp.maxDhcpLeaseSeconds * 1000 ≤ maxSafeInteger →
        hostAccepts (service.runtime printFloat now) = true) := by
  have healthy := reached.healthy
  refine ⟨hostAccepts_stopped printFloat healthy, fun snapshot running => ?_⟩
  have exactly := hostAccepts_running printFloat healthy later running
  refine ⟨exactly, fun few early => exactly.mpr ⟨few, fun lease member => ?_⟩⟩
  obtain ⟨engine, atEngine, atRuntime⟩ := Option.bind_eq_some_iff.mp running
  obtain ⟨core, atCore, rfl⟩ := Option.map_eq_some_iff.mp atRuntime
  obtain ⟨options, store, events, since, valid, loaded, before, run⟩ :=
    (healthy.core engine core atEngine atCore).origin
  have listed := fittingLeases_sublist printFloat
    (DhcpService.maxRpcLineBytes - DhcpService.runtimeEnvelopeHeadroomBytes) (core.table.activeLeases now)
  exact safeTimes_of_active run valid loaded (before.trans later) early lease (listed.subset member)

end Answers

def startAt (nowMs : UInt64) : StartEnv where
  bind := .ok dhcpDefaultPort
  fallback := .ok dhcpDefaultPort
  leaseFile := none
  restoreMs := nowMs
  seedMs := nowMs

def discoverAt (nowMs : UInt64) : Dhcp.Input := Dhcp.packetAt nowMs .discover Dhcp.otherClient []

def offeringService (nowMs : UInt64) : DhcpService :=
  (({} : DhcpService).start (fun _ => none) (startAt nowMs)).handle (discoverAt nowMs)

theorem offeringService_reached (nowMs : UInt64) :
    DhcpService.Reached ConfigStore.oneField (fun _ => none) (offeringService nowMs) nowMs.toNat :=
  .handle (discoverAt nowMs) (.start (startAt nowMs) .new (Nat.zero_le _) (Nat.le_refl _)) (Nat.le_refl _)

theorem runtime_accepted_offering :
    ∃ snapshot, (offeringService 1000).engineRuntime 2000 = some snapshot ∧ snapshot.leases.length = 1 ∧
      hostAccepts ((offeringService 1000).runtime (fun _ => []) 2000) = true := by
  have one : ((offeringService 1000).engineRuntime 2000).any (fun snapshot =>
      decide (snapshot.leases.length = 1) &&
        decide (snapshot.counters.packetsReceived ≤ maxSafeInteger)) = true := by
    decide +kernel
  obtain ⟨snapshot, running, facts⟩ := (Option.any_eq_true _ _).mp one
  rw [Bool.and_eq_true, decide_eq_true_eq, decide_eq_true_eq] at facts
  have answers := runtime_accepted (fun _ => []) (offeringService_reached 1000) (show 1000 ≤ 2000 by decide)
  exact ⟨snapshot, running, facts.1, (answers.2 snapshot running).2 facts.2 (by decide)⟩

/-- At the first moment that is no safe integer, the time of the offer is refused. -/
theorem runtime_rejected :
    ∃ service time, DhcpService.Reached ConfigStore.oneField (fun _ => none) service time ∧
      hostAccepts (service.runtime (fun _ => []) time) = false := by
  have reached := offeringService_reached 9007199254740992
  have late : ((offeringService 9007199254740992).engineRuntime
      (9007199254740992 : UInt64).toNat).any (fun snapshot =>
        (DhcpService.listedLeases (fun _ => []) snapshot.leases).any fun lease =>
          decide (maxSafeInteger < lease.boundAt)) = true := by
    decide +kernel
  obtain ⟨snapshot, running, listed⟩ := (Option.any_eq_true _ _).mp late
  obtain ⟨lease, member, large⟩ := List.any_eq_true.mp listed
  refine ⟨_, _, reached, ?_⟩
  rw [← Bool.not_eq_true, hostAccepts_running (fun _ => []) reached.healthy (Nat.le_refl _) running]
  exact fun safe => absurd (safe.2 lease member).1 (Nat.not_le.mpr (of_decide_eq_true large))

end NexTerminal.Host
