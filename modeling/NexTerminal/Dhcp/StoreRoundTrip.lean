import NexTerminal.Dhcp.Durability

namespace NexTerminal.Dhcp

open Std Library

def PersistedLeases (leases : List LeaseInfo) : Prop :=
  ∃ (config : DhcpConfig) (options : EngineOptions) (fromStr : Text → Option Json) (file : Option Text)
    (events : List (Event DhcpCore Input)) (core : DhcpCore) (time now : Nat),
    config.resolve = .ok options ∧ Runs options (loadStore fromStr file) events core time ∧ time ≤ now ∧
      leases = core.table.persistableLeases now

/-- A list of quarantine deadlines that some reached table writes. -/
def SnapshotHolds (holds : List (Ipv4Addr × Nat)) : Prop :=
  ∃ (config : DhcpConfig) (options : EngineOptions) (fromStr : Text → Option Json) (file : Option Text)
    (events : List (Event DhcpCore Input)) (core : DhcpCore) (time now : Nat),
    config.resolve = .ok options ∧ Runs options (loadStore fromStr file) events core time ∧ time ≤ now ∧
      holds = core.table.quarantineSnapshot now

section Reached

variable {options : EngineOptions} {store : LeaseStore} {events : List (Event DhcpCore Input)} {core : DhcpCore}
  {time : Nat}

theorem Runs.poolSize_le (run : Runs options store events core time) (valid : options.Validated) :
    poolSize core.table.rangeStart core.table.rangeEnd ≤ maxDhcpPoolSize ∧
      core.table.statics.size ≤ maxStaticReservations := by
  have cfg : core.table.config = options.emptyTable := congrArg Settings.table (run.sane valid).settings
  have start : core.table.rangeStart = options.rangeStart := congrArg LeaseTable.rangeStart cfg
  have stop : core.table.rangeEnd = options.rangeEnd := congrArg LeaseTable.rangeEnd cfg
  have statics : core.table.statics = options.statics := congrArg LeaseTable.statics cfg
  rw [start, stop, statics]
  exact ⟨valid.pool.2, valid.few⟩

theorem PersistedLeases.short {leases : List LeaseInfo} (persisted : PersistedLeases leases) :
    (∀ lease ∈ leases, ShortLease lease) ∧ leases.length ≤ maxPersistedLeases := by
  obtain ⟨cfg, options, fromStr, file, events, core, time, now, resolved, run, bound, rfl⟩ := persisted
  have valid := DhcpConfig.resolve_validated resolved
  obtain ⟨small, few⟩ := run.poolSize_le valid
  exact ⟨(run.recorded valid (loadStore_loaded fromStr file)).shortLeases,
    ((run.sane valid).mono bound).invariant.persistable_few small few⟩

theorem SnapshotHolds.few {holds : List (Ipv4Addr × Nat)} (snapshot : SnapshotHolds holds) :
    (∀ hold ∈ holds, hold.2 < timeLimit) ∧ holds.length ≤ 2 * maxPersistedLeases := by
  obtain ⟨cfg, options, fromStr, file, events, core, time, now, resolved, run, _, rfl⟩ := snapshot
  have valid := DhcpConfig.resolve_validated resolved
  have loaded := loadStore_loaded fromStr file
  have recorded := run.recorded valid loaded
  obtain ⟨small, few⟩ := run.poolSize_le valid
  refine ⟨fun hold mem => ?_, LeaseTable.quarantineSnapshot_few recorded loaded small few now⟩
  exact recorded.deadlines hold.1 hold.2
    (TreeMap.mem_toList_iff_getElem?_eq_some.mp (List.mem_filter.mp mem).1)

end Reached

/-- The lease as the file carries it: what is left of its term is not read but computed. -/
def LeaseInfo.stored (lease : LeaseInfo) : LeaseInfo :=
  { lease with remainingSec := (lease.expiresAt - lease.boundAt) / 1000 }

theorem reread_eq_stored {lease : LeaseInfo} (short : ShortLease lease) : reread lease = lease.stored := by
  have exact_ : f64OfNat lease.leaseSec = lease.leaseSec := f64OfNat_exact (Nat.lt_trans short.leaseSec (by decide))
  have whole : min lease.leaseSec (2 ^ 32 - 1) = lease.leaseSec :=
    Nat.min_eq_left (Nat.le_sub_one_of_lt short.leaseSec)
  rw [reread, exact_, whole, LeaseInfo.stored]

/-- What reached tables write is read back, up to the reader's limits, which the text keeps to. -/
theorem store_roundTrip {leases : List LeaseInfo} {holds : List (Ipv4Addr × Nat)}
    (persisted : PersistedLeases leases) (snapshot : SnapshotHolds holds)
    (times : ∀ lease ∈ leases, lease.boundAt ≤ maxSafeIntegerMs ∧ lease.expiresAt ≤ maxSafeIntegerMs)
    (deadlines : ∀ hold ∈ holds, hold.2 ≤ maxSafeIntegerMs) {fromStr : Text → Option Json}
    {printFloat : ℚ → Text}
    (savedAt : UInt64)
    (inverse : fromStr (saveLeases printFloat savedAt.toNat leases holds) =
      some (storePayload savedAt.toNat leases holds)) :
    byteLen (saveLeases printFloat savedAt.toNat leases holds) ≤ maxLeaseFileBytes ∧
      loadStore fromStr (some (saveLeases printFloat savedAt.toNat leases holds)) =
        { leases := leases.map LeaseInfo.stored, quarantine := holds.take maxPersistedLeases } := by
  have early : savedAt.toNat < timeLimit := Nat.lt_trans savedAt.toNat_lt (by decide)
  obtain ⟨short, few⟩ := persisted.short
  obtain ⟨limited, held⟩ := snapshot.few
  refine ⟨byteLen_saveLeases printFloat early short limited few held, ?_⟩
  have all : leases.filter carried = leases :=
    List.filter_eq_self.mpr fun lease member => decide_eq_true (times lease member)
  have allHolds : holds.filter carriedHold = holds :=
    List.filter_eq_self.mpr fun hold member => decide_eq_true (deadlines hold member)
  rw [loadStore_saveLeases early short limited few held inverse, all, allHolds]
  exact congrArg (LeaseStore.mk · _) (List.map_congr_left fun lease member => reread_eq_stored (short lease member))

/-- The leases of two clients. -/
theorem store_roundTrip_twoLeases :
    (storedTwoLeases.table.persistableLeases 3000).length = 2 ∧
      byteLen (storedTwoLeases.table.leaseFile (fun _ => []) 3000 3000) ≤ maxLeaseFileBytes ∧
      loadStore (onlyFile storedTwoLeases 3000)
        (some (storedTwoLeases.table.leaseFile (fun _ => []) 3000 3000)) =
        { leases := (storedTwoLeases.table.persistableLeases 3000).map LeaseInfo.stored
          quarantine := (storedTwoLeases.table.quarantineSnapshot 3000).take maxPersistedLeases } := by
  have run : Runs storedOptions (loadStore (onlyFile storedTwoLeases 3000) none) _ storedTwoLeases _ :=
    Runs.play storedOptions {} 1000 twoLeases (by decide)
  have bound : server.finish (1000 : UInt64).toNat twoLeases ≤ 3000 := by decide
  obtain ⟨two, times, deadlines⟩ : (storedTwoLeases.table.persistableLeases 3000).length = 2 ∧
      (∀ lease ∈ storedTwoLeases.table.persistableLeases 3000,
        lease.boundAt ≤ maxSafeIntegerMs ∧ lease.expiresAt ≤ maxSafeIntegerMs) ∧
      ∀ hold ∈ storedTwoLeases.table.quarantineSnapshot 3000, hold.2 ≤ maxSafeIntegerMs := by
    decide +kernel
  exact ⟨two, store_roundTrip ⟨_, _, _, _, _, _, _, _, storedConfig_resolve, run, bound, rfl⟩
    ⟨_, _, _, _, _, _, _, _, storedConfig_resolve, run, bound, rfl⟩ times deadlines 3000
    (onlyFile_readsBack storedTwoLeases 3000)⟩

def crowdedHolds : List (Ipv4Addr × Nat) := (List.range maxPersistedLeases).map fun n => (.ofNat n, 2000000)

theorem mem_crowdedHolds {addr : Ipv4Addr} {due : Nat} :
    (addr, due) ∈ crowdedHolds ↔ addr.toNat < maxPersistedLeases ∧ due = 2000000 := by
  simp only [crowdedHolds, List.mem_map, List.mem_range, Prod.mk.injEq]
  constructor
  · rintro ⟨n, small, rfl, rfl⟩
    have wide : n < 2 ^ 32 := Nat.lt_trans small (by decide)
    rw [UInt32.toNat_ofNat_of_lt' wide]
    exact ⟨small, rfl⟩
  · rintro ⟨small, rfl⟩
    exact ⟨addr.toNat, small, UInt32.ofNat_toNat, rfl⟩

theorem foreign_high : ¬ (Ipv4Addr.new 192 168 2 20).toNat < maxPersistedLeases := by
  have addr : (Ipv4Addr.new 192 168 2 20).toNat = 3232236052 := by decide
  have limit : maxPersistedLeases = 66560 := rfl
  omega

theorem crowdedHolds_distinct : (crowdedHolds.map Prod.fst).Nodup := by
  rw [crowdedHolds, List.map_map]
  refine List.Nodup.map_on (fun one mem other member' same => ?_) List.nodup_range
  have wide : ∀ n ∈ List.range maxPersistedLeases, n < 2 ^ 32 := fun n inside =>
    Nat.lt_trans (List.mem_range.mp inside) (by decide)
  have values := congrArg UInt32.toNat same
  rwa [Function.comp_apply, Function.comp_apply, UInt32.toNat_ofNat_of_lt' (wide one mem),
    UInt32.toNat_ofNat_of_lt' (wide other member')] at values

theorem loadStore_holds {holds : List (Ipv4Addr × Nat)} (safe : ∀ hold ∈ holds, hold.2 ≤ maxSafeIntegerMs)
    (few : holds.length ≤ maxPersistedLeases) (printFloat : ℚ → Text) :
    loadStore (fun _ => some (storePayload 0 [] holds)) (some (saveLeases printFloat 0 [] holds)) =
      { leases := [], quarantine := holds } := by
  have all : holds.filter carriedHold = holds :=
    List.filter_eq_self.mpr fun hold mem => decide_eq_true (safe hold mem)
  have early : ∀ hold ∈ holds, hold.2 < timeLimit := fun hold mem =>
    Nat.lt_of_le_of_lt (safe hold mem) (by decide)
  rw [loadStore_saveLeases (by decide) (by simp) early (by simp) (by omega) rfl, all, List.take_of_length_le few]
  rfl

def crowdedStore : LeaseStore :=
  loadStore (fun _ => some (storePayload 0 [] crowdedHolds)) (some (saveLeases (fun _ => []) 0 [] crowdedHolds))

theorem crowdedStore_eq : crowdedStore = { leases := [], quarantine := crowdedHolds } := by
  refine loadStore_holds (fun hold mem => ?_) ?_ _
  · rw [(mem_crowdedHolds.mp mem).2]
    decide
  · rw [crowdedHolds, List.length_map, List.length_range]

theorem DhcpCore.new_table {options : EngineOptions} {path : Text} (persisted : options.leaseStorePath = some path)
    (store : LeaseStore) (restoreMs seedMs : UInt64) :
    (DhcpCore.new options store restoreMs seedMs).1.table =
      (((options.emptyTable.restoreQuarantine store.quarantine restoreMs.toNat).restore
        (reconcile store.leases (options.context restoreMs.toNat)).restored).seedStaticReservations
          seedMs.toNat).1 := by
  rw [← restorePersisted_table persisted]
  rfl

theorem DhcpCore.new_quarantine {options : EngineOptions} {path : Text}
    (persisted : options.leaseStorePath = some path) (store : LeaseStore) (restoreMs seedMs : UInt64) :
    (DhcpCore.new options store restoreMs seedMs).1.table.quarantine =
      (options.emptyTable.restoreQuarantine store.quarantine restoreMs.toNat).quarantine := by
  rw [DhcpCore.new_table persisted]
  rfl

structure Declines (message : Message) : Prop where
  op : message.op = opBootrequest
  kind : message.options.messageType = some .decline
  relayed : message.giaddr.isUnspecified = true
  serverId : message.options.ipv4 optionServerId = some (.new 192 168 2 1)
  named : message.options.ipv4 optionRequestedIp = some (.new 192 168 2 20)
  mac : message.hardwareKey = MacKey.fromHardware reservedClient

theorem declined_decoded : ∃ message, Declines message ∧ ∃ env buf peer, declined = .message env buf peer ∧
    env.now = 1000 ∧ Message.decode buf = .ok message := by
  have valid : (match Message.decode (clientPacket .decline reservedClient
      (addressOption optionServerId (.new 192 168 2 1) ++ addressOption optionRequestedIp (.new 192 168 2 20))) with
      | .ok m => decide (m.op = opBootrequest ∧ m.options.messageType = some .decline ∧
          m.giaddr.isUnspecified = true ∧ m.options.ipv4 optionServerId = some (.new 192 168 2 1) ∧
          m.options.ipv4 optionRequestedIp = some (.new 192 168 2 20) ∧
          m.hardwareKey = MacKey.fromHardware reservedClient)
      | .error _ => false) = true := by decide +kernel
  split at valid
  · next message read =>
    obtain ⟨op, kind, relayed, serverId, named, mac⟩ := of_decide_eq_true valid
    exact ⟨message, ⟨op, kind, relayed, serverId, named, mac⟩, _, _, _, rfl, rfl, read⟩
  · cases valid

theorem step_declined {core : DhcpCore} (serverId : core.serverId = .new 192 168 2 1) {entry : LeaseEntry}
    (hit : core.table.entries[MacKey.fromHardware reservedClient]? = some entry)
    (home : entry.address = .new 192 168 2 20) :
    (core.step declined).1.table.quarantine =
      core.table.quarantine.insert (.new 192 168 2 20) (1000 + core.table.quarantineSecs * 1000) := by
  obtain ⟨msg, read, env, buf, peer, shape, time, decoded⟩ := declined_decoded
  rw [shape]
  show (core.handleMessage env buf peer).1.table.quarantine = _
  unfold DhcpCore.handleMessage
  rw [decoded]
  dsimp only
  unfold DhcpCore.handleDecoded
  rw [if_neg (not_not.mpr read.op), read.kind]
  dsimp only
  generalize noticed : DhcpCore.logNotice _ env .debug _ = noted
  have quiet := noticed ▸ DhcpCore.logNotice_quiet (core.count fun counters =>
    { counters with packetsReceived := counters.packetsReceived + 1 }) env .debug _
  have table : noted.1.table = core.table := quiet.table
  have settings : noted.1.settings = core.settings := quiet.settings
  rw [read.relayed, if_neg (by simp)]
  dsimp only [DhcpCore.dispatch]
  unfold DhcpCore.handleDecline
  have same : noted.1.serverId = core.serverId := congrArg Settings.serverId settings
  rw [read.named, read.mac]
  dsimp only [DhcpCore.count]
  rw [same, serverId, read.serverId, if_neg (by simp), table]
  unfold LeaseTable.decline
  rw [hit]
  dsimp only
  rw [if_neg (not_not.mpr home), home, time]
  rw [DhcpCore.markDirty_table, DhcpCore.withTable_table]

theorem seeded_entry {table : LeaseTable} {mac : MacKey} {addr : Ipv4Addr} {now : Nat}
    (reserved : table.statics[mac]? = some addr) (pool : table.inPool addr = true)
    (usable : table.isQuarantined addr now = false) (nothing : table.entries[mac]? = none) :
    (table.seedStaticReservations now).1.entries[mac]? = some (table.placeholder addr now) := by
  rw [LeaseTable.seedStaticReservations_entries, reserved]
  unfold LeaseTable.seedEntry
  dsimp only
  rw [pool, nothing, usable]
  rfl

theorem final_one (core : DhcpCore) (input : Input) : server.final core [input] = (core.step input).1 := rfl

section Crowded

variable {options : EngineOptions} {path : Text} {store : LeaseStore}

theorem crowded_quarantine (persisted : options.leaseStorePath = some path) (holds : store.quarantine = crowdedHolds)
    {addr : Ipv4Addr} {due : Nat} (later : (1000 : UInt64).toNat < due) :
    (DhcpCore.new options store 1000 1000).1.table.quarantine[addr]? = some due ↔
      addr.toNat < maxPersistedLeases ∧ due = 2000000 := by
  rw [DhcpCore.new_quarantine persisted, holds]
  exact (restoredQuarantine_getElem? crowdedHolds_distinct later).trans mem_crowdedHolds

theorem crowded_entry (persisted : options.leaseStorePath = some path)
    (reserved : options.statics[MacKey.fromHardware reservedClient]? = some (.new 192 168 2 20))
    (inside : isIpInPool (.new 192 168 2 20) options.rangeStart options.rangeEnd = true)
    (leases : store.leases = []) (holds : store.quarantine = crowdedHolds) :
    ∃ entry, (DhcpCore.new options store 1000 1000).1.table.entries[MacKey.fromHardware reservedClient]? =
      some entry ∧ entry.address = .new 192 168 2 20 := by
  have usable : (options.emptyTable.restoreQuarantine store.quarantine (1000 : UInt64).toNat).isQuarantined
      (.new 192 168 2 20) (1000 : UInt64).toNat = false := by
    rw [← Bool.not_eq_true, LeaseTable.isQuarantined_iff, holds]
    rintro ⟨due, held, later⟩
    exact foreign_high (mem_crowdedHolds.mp ((restoredQuarantine_getElem? crowdedHolds_distinct later).mp held)).1
  rw [DhcpCore.new_table persisted, leases]
  have statics : ((options.emptyTable.restoreQuarantine store.quarantine (1000 : UInt64).toNat).restore
      (reconcile [] (options.context (1000 : UInt64).toNat)).restored).statics = options.statics := rfl
  have nothing : ((options.emptyTable.restoreQuarantine store.quarantine (1000 : UInt64).toNat).restore
      (reconcile [] (options.context (1000 : UInt64).toNat)).restored).entries[MacKey.fromHardware reservedClient]? =
      none := by
    show (∅ : TreeMap MacKey LeaseEntry compare)[_]? = none
    simp
  have pool : ((options.emptyTable.restoreQuarantine store.quarantine (1000 : UInt64).toNat).restore
      (reconcile [] (options.context (1000 : UInt64).toNat)).restored).inPool (.new 192 168 2 20) = true := inside
  have open_ : ((options.emptyTable.restoreQuarantine store.quarantine (1000 : UInt64).toNat).restore
      (reconcile [] (options.context (1000 : UInt64).toNat)).restored).isQuarantined (.new 192 168 2 20)
        (1000 : UInt64).toNat = false := usable
  exact ⟨_, seeded_entry (statics ▸ reserved) pool open_ nothing, rfl⟩

theorem crowded_run (persisted : options.leaseStorePath = some path) (serverId : options.serverId = .new 192 168 2 1)
    (reserved : options.statics[MacKey.fromHardware reservedClient]? = some (.new 192 168 2 20))
    (inside : isIpInPool (.new 192 168 2 20) options.rangeStart options.rangeEnd = true)
    (leases : store.leases = []) (holds : store.quarantine = crowdedHolds) :
    ∃ events core, Runs options store events core (server.finish (1000 : UInt64).toNat [declined]) ∧
      ∀ hold, hold ∈ core.table.quarantineSnapshot 1000 ↔
        hold ∈ ((.new 192 168 2 20 : Ipv4Addr), 601000) :: crowdedHolds := by
  obtain ⟨entry, hit, home⟩ := crowded_entry persisted reserved inside leases holds
  refine ⟨_, _, Runs.play options store 1000 [declined] (by decide), fun hold => ?_⟩
  rw [final_one]
  have quarantineSecs : (DhcpCore.new options store 1000 1000).1.table.quarantineSecs = 600 := by
    rw [DhcpCore.new_table persisted]
    rfl
  obtain ⟨addr, -⟩ := hold
  rw [LeaseTable.quarantineSnapshot, step_declined serverId hit home, quarantineSecs, List.mem_filter,
    TreeMap.mem_toList_iff_getElem?_eq_some, TreeMap.getElem?_insert_eq, decide_eq_true_eq, List.mem_cons,
    mem_crowdedHolds, Prod.mk.injEq]
  by_cases same : (.new 192 168 2 20 : Ipv4Addr) = addr
  · subst same
    rw [if_pos rfl]
    simp only [Option.some.injEq, true_and, foreign_high, false_and, or_false]
    omega
  · rw [if_neg same]
    constructor
    · rintro ⟨held, later⟩
      exact .inr ((crowded_quarantine persisted holds later).mp held)
    · rintro (⟨rfl, _⟩ | ⟨low, rfl⟩)
      · exact absurd rfl same
      · exact ⟨(crowded_quarantine persisted holds (by decide)).mpr ⟨low, rfl⟩, by omega⟩

end Crowded

theorem persistedLeases_nil : PersistedLeases [] := by
  have run : Runs storedOptions (loadStore (fun _ => none) none) [] (DhcpCore.new storedOptions {} 1000 1000).1
      (1000 : UInt64).toNat := Runs.play storedOptions {} 1000 [] (by decide)
  have none : (DhcpCore.new storedOptions {} 1000 1000).1.table.persistableLeases 1000 = [] := by decide
  exact ⟨_, _, _, _, _, _, _, 1000, storedConfig_resolve, run, by decide, none.symm⟩

/-- One more deadline than the reader takes is held, and is not read back. -/
theorem store_truncated :
    ¬ ∀ (leases : List LeaseInfo) (holds : List (Ipv4Addr × Nat)) (fromStr : Text → Option Json)
      (printFloat : ℚ → Text) (savedAt : UInt64), PersistedLeases leases → SnapshotHolds holds →
      (∀ lease ∈ leases, lease.boundAt ≤ maxSafeIntegerMs ∧ lease.expiresAt ≤ maxSafeIntegerMs) →
      (∀ hold ∈ holds, hold.2 ≤ maxSafeIntegerMs) →
      fromStr (saveLeases printFloat savedAt.toNat leases holds) = some (storePayload savedAt.toNat leases holds) →
      (loadStore fromStr (some (saveLeases printFloat savedAt.toNat leases holds))).quarantine = holds := by
  intro whole
  have inside : isIpInPool (.new 192 168 2 20) storedOptions.rangeStart storedOptions.rangeEnd = true := by
    decide
  have reserved : storedOptions.statics[MacKey.fromHardware reservedClient]? = some (.new 192 168 2 20) := by
    decide
  have serverId : storedOptions.serverId = .new 192 168 2 1 := by decide
  have path : storedOptions.leaseStorePath = some "leases.json".toList := by decide
  have resolved := storedConfig_resolve
  generalize storedOptions = options at inside reserved serverId path resolved
  have leases : crowdedStore.leases = [] := by rw [crowdedStore_eq]
  have quarantine : crowdedStore.quarantine = crowdedHolds := by rw [crowdedStore_eq]
  obtain ⟨events, core, run, members⟩ :=
    @crowded_run options _ crowdedStore path serverId reserved inside leases quarantine
  have snapshot : SnapshotHolds (core.table.quarantineSnapshot 1000) :=
    ⟨_, _, _, _, _, _, _, _, resolved, run, by decide, rfl⟩
  have safe : ∀ hold ∈ core.table.quarantineSnapshot 1000, hold.2 ≤ maxSafeIntegerMs := by
    intro hold member
    rcases List.mem_cons.mp ((members hold).mp member) with rfl | member
    · decide
    · rw [(mem_crowdedHolds.mp member).2]
      decide
  have many : maxPersistedLeases + 1 ≤ (core.table.quarantineSnapshot 1000).length := by
    have distinct : (((.new 192 168 2 20 : Ipv4Addr), 601000) :: crowdedHolds).Nodup := by
      refine List.nodup_cons.mpr ⟨fun member => ?_, List.Nodup.of_map _ crowdedHolds_distinct⟩
      exact foreign_high (mem_crowdedHolds.mp member).1
    have count := (distinct.subperm fun hold member => (members hold).mpr member).length_le
    rwa [List.length_cons, crowdedHolds, List.length_map, List.length_range] at count
  generalize core.table.quarantineSnapshot 1000 = holds at snapshot safe many
  have read := whole [] holds (fun _ => some (storePayload (0 : UInt64).toNat [] holds))
    (fun _ => []) 0 persistedLeases_nil snapshot
    (by simp) safe rfl
  have few := (@store_roundTrip [] holds persistedLeases_nil snapshot (by simp) safe
    (fun _ => some (storePayload (0 : UInt64).toNat [] holds)) (fun _ => []) 0 rfl).2
  rw [few] at read
  have length := congrArg List.length read
  rw [List.length_take] at length
  omega

end NexTerminal.Dhcp
