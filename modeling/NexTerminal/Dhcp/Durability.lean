import NexTerminal.Dhcp.StoreSize

namespace NexTerminal.Dhcp

open Std Library

def carried (lease : LeaseInfo) : Bool :=
  decide (lease.boundAt ≤ maxSafeIntegerMs ∧ lease.expiresAt ≤ maxSafeIntegerMs)

def carriedHold (hold : Ipv4Addr × Nat) : Bool := decide (hold.2 ≤ maxSafeIntegerMs)

variable {leases : List LeaseInfo}

theorem reread_leases (short : ∀ lease ∈ leases, ShortLease lease) :
    (leases.map leaseToJson).filterMap leaseFromJson = (leases.filter carried).map reread := by
  induction leases with
  | nil => rfl
  | cons lease rest ih =>
    have later := ih fun other mem => short other (List.mem_cons_of_mem _ mem)
    have first := short lease List.mem_cons_self
    have read := leaseFromJson_leaseToJson first.wire first.clean
    by_cases kept : lease.boundAt ≤ maxSafeIntegerMs ∧ lease.expiresAt ≤ maxSafeIntegerMs
    · rw [if_pos kept] at read
      rw [List.map_cons, List.filterMap_cons_some read, later,
        List.filter_cons_of_pos (by simpa only [carried, decide_eq_true_eq] using kept), List.map_cons]
    · rw [if_neg kept] at read
      rw [List.map_cons, List.filterMap_cons_none read, later,
        List.filter_cons_of_neg (by simpa only [carried, decide_eq_true_eq] using kept)]

theorem reread_holds (holds : List (Ipv4Addr × Nat)) :
    (holds.map quarantineToJson).filterMap quarantineFromJson = holds.filter carriedHold := by
  induction holds with
  | nil => rfl
  | cons hold rest ih =>
    have read := quarantineFromJson_quarantineToJson hold
    by_cases kept : hold.2 ≤ maxSafeIntegerMs
    · rw [if_pos kept] at read
      rw [List.map_cons, List.filterMap_cons_some read, ih,
        List.filter_cons_of_pos (by simpa only [carriedHold, decide_eq_true_eq] using kept)]
    · rw [if_neg kept] at read
      rw [List.map_cons, List.filterMap_cons_none read, ih,
        List.filter_cons_of_neg (by simpa only [carriedHold, decide_eq_true_eq] using kept)]

theorem loadStore_saveLeases {fromStr : Text → Option Json} {printFloat : ℚ → Text} {savedAt : Nat}
    {holds : List (Ipv4Addr × Nat)} (saved : savedAt < timeLimit) (short : ∀ lease ∈ leases, ShortLease lease)
    (deadlines : ∀ hold ∈ holds, hold.2 < timeLimit) (few : leases.length ≤ maxPersistedLeases)
    (held : holds.length ≤ 2 * maxPersistedLeases) (inverse : fromStr (saveLeases printFloat savedAt leases holds) =
      some (storePayload savedAt leases holds)) :
    loadStore fromStr (some (saveLeases printFloat savedAt leases holds)) =
      { leases := (leases.filter carried).map reread
        quarantine := (holds.filter carriedHold).take maxPersistedLeases } := by
  have fits := byteLen_saveLeases printFloat saved short deadlines few held
  have version : ((storePayload savedAt leases holds).get "version").bind Json.asU64 = some leaseStoreVersion := rfl
  have records : ((storePayload savedAt leases holds).get "leases").bind Json.asArray =
      some (leases.map leaseToJson) := rfl
  have quarantine : ((storePayload savedAt leases holds).get "quarantine").bind Json.asArray =
      some (holds.map quarantineToJson) := rfl
  have count : ((leases.filter carried).map reread).length ≤ maxPersistedLeases := by
    rw [List.length_map]
    exact Nat.le_trans (List.length_filter_le _ _) few
  simp only [loadStore, if_neg (Nat.not_lt.mpr fits), inverse, version, ne_eq, not_true_eq_false,
    if_false, records, quarantine, reread_leases short, reread_holds, List.take_of_length_le count]

/-- What `reconcile` makes of a lease whose address no earlier one has claimed. -/
def verdict (context : ReconcileContext) (lease : LeaseInfo) : Option LeaseInfo :=
  if lease.expiresAt ≤ context.nowMs then none
  else
    match context.statics[lease.mac]? with
    | some reserved => if reserved = lease.ip then some { lease with leaseType := .static } else none
    | none =>
      if context.statics.toList.any (fun reservation => reservation.2 == lease.ip) then none
      else if !isIpInPool lease.ip context.rangeStart context.rangeEnd then none
      else some { lease with leaseType := .dynamic }

variable {lease : LeaseInfo}

theorem verdict_kept {context : ReconcileContext} {kept : LeaseInfo} (hit : verdict context lease = some kept) :
    ∃ kind, kept = { lease with leaseType := kind } := by
  unfold verdict at hit
  split at hit
  · cases hit
  · split at hit
    · split at hit
      · exact ⟨_, (Option.some.inj hit).symm⟩
      · cases hit
    · split at hit
      · cases hit
      · split at hit
        · cases hit
        · exact ⟨_, (Option.some.inj hit).symm⟩

theorem verdict_isSome {context : ReconcileContext} : (verdict context lease).isSome = true ↔
      context.nowMs < lease.expiresAt ∧ LeaseTable.Admits context lease := by
  unfold verdict LeaseTable.Admits
  by_cases expired : lease.expiresAt ≤ context.nowMs
  · simp [Nat.not_lt.mpr expired]
  · rw [if_neg expired]
    have fresh : context.nowMs < lease.expiresAt := by omega
    cases own : context.statics[lease.mac]? with
    | some reserved =>
      by_cases same : reserved = lease.ip
      · simp [fresh]
      · simp [same]
    | none =>
      by_cases foreign : context.statics.toList.any (fun reservation => reservation.2 == lease.ip) = true
      · obtain ⟨other, addr, hit, same⟩ := TreeMap.any_toList.mp foreign
        rw [beq_iff_eq] at same
        simp only [if_pos foreign]
        simp only [Option.isSome_none, reduceCtorEq, false_or, true_and, false_iff, not_and]
        exact fun _ _ nobody => nobody other (same ▸ hit)
      · have nobody := TreeMap.any_toList_eq_false.mp (Bool.not_eq_true _ ▸ foreign)
        have unreserved : ∀ other : MacKey, context.statics[other]? ≠ some lease.ip := by
          intro other hit
          simpa using nobody other lease.ip hit
        by_cases inside : isIpInPool lease.ip context.rangeStart context.rangeEnd = true
        · simp [fresh, unreserved]
        · simp [inside]

theorem reconcileStep_verdict (context : ReconcileContext) {state : ReconcileResult × List Ipv4Addr}
    (unclaimed : lease.ip ∉ state.2) : (reconcileStep context state lease).1.restored =
      state.1.restored ++ (verdict context lease).toList ∧
    ∀ ip ∈ (reconcileStep context state lease).2, ip = lease.ip ∨ ip ∈ state.2 := by
  obtain ⟨res, claimed⟩ := state
  have same : ∀ ip ∈ claimed, ip = lease.ip ∨ ip ∈ claimed := fun _ mem => .inr mem
  by_cases expired : lease.expiresAt ≤ context.nowMs
  · simp only [reconcileStep, verdict, if_pos expired]
    exact ⟨by simp, same⟩
  · cases own : context.statics[lease.mac]? with
    | some reserved =>
      by_cases home : reserved = lease.ip
      · simp only [reconcileStep, verdict, if_neg expired, own, if_pos home, if_pos unclaimed]
        exact ⟨rfl, fun ip mem => List.mem_cons.mp mem⟩
      · simp only [reconcileStep, verdict, if_neg expired, own, if_neg home]
        exact ⟨by simp, same⟩
    | none =>
      simp only [reconcileStep, verdict, if_neg expired, own]
      split
      · exact ⟨by simp, same⟩
      · split
        · exact ⟨by simp, same⟩
        · exact ⟨rfl, fun ip mem => List.mem_cons.mp mem⟩

theorem reconcile_distinct (context : ReconcileContext) (nodup : (leases.map LeaseInfo.ip).Nodup) :
    (reconcile leases context).restored = leases.filterMap (verdict context) := by
  have run : ∀ (rest : List LeaseInfo) (state : ReconcileResult × List Ipv4Addr),
      (rest.map LeaseInfo.ip).Nodup → (∀ lease ∈ rest, lease.ip ∉ state.2) →
      (rest.foldl (reconcileStep context) state).1.restored =
        state.1.restored ++ rest.filterMap (verdict context) := by
    intro rest
    induction rest with
    | nil => simp
    | cons lease rest ih =>
      intro state nodup unclaimed
      rw [List.map_cons, List.nodup_cons] at nodup
      obtain ⟨restored, claimed⟩ := reconcileStep_verdict context
        (unclaimed lease List.mem_cons_self)
      have later : ∀ other ∈ rest, other.ip ∉ (reconcileStep context state lease).2 := by
        intro other mem taken
        rcases claimed _ taken with same | before
        · exact nodup.1 (same ▸ List.mem_map_of_mem mem)
        · exact unclaimed other (List.mem_cons_of_mem _ mem) before
      rw [List.foldl_cons, ih _ nodup.2 later, restored, List.append_assoc]
      cases judged : verdict context lease with
      | none => rw [List.filterMap_cons_none judged]; rfl
      | some kept => rw [List.filterMap_cons_some judged]; rfl
  exact run leases ({}, []) nodup (by simp)

def EngineOptions.context (options : EngineOptions) (nowMs : Nat) : ReconcileContext where
  statics := options.statics
  rangeStart := options.rangeStart
  rangeEnd := options.rangeEnd
  nowMs := nowMs

def EngineOptions.emptyTable (options : EngineOptions) : LeaseTable :=
  .new options.rangeStart options.rangeEnd options.leaseSecs options.statics

theorem restorePersisted_table {options : EngineOptions} {path : Text}
    (persisted : options.leaseStorePath = some path) (store : LeaseStore) (now : Nat) :
    (DhcpCore.restorePersisted options.emptyTable options store now).1 =
      (options.emptyTable.restoreQuarantine store.quarantine now).restore
        (reconcile store.leases (options.context now)).restored := by
  simp only [DhcpCore.restorePersisted, persisted]
  split
  · rename_i nothing
    rw [List.isEmpty_iff.mp nothing]
    rfl
  · rfl

theorem restored_entries (options : EngineOptions) {store : LeaseStore} (now : Nat)
    (clients : (store.leases.map LeaseInfo.mac).Nodup) (addresses : (store.leases.map LeaseInfo.ip).Nodup)
    (mac : MacKey) :
    ((options.emptyTable.restoreQuarantine store.quarantine now).restore
        (reconcile store.leases (options.context now)).restored).entries[mac]? =
      ((store.leases.find? fun lease => lease.mac == mac).bind (verdict (options.context now))).map
        LeaseTable.restoredEntry := by
  rw [reconcile_distinct _ addresses]
  generalize options.context now = context
  have fresh : (options.emptyTable.restoreQuarantine store.quarantine now).entries = ∅ := rfl
  simp only [LeaseTable.restore, fresh]
  have run : ∀ (rest : List LeaseInfo) (entries : TreeMap MacKey LeaseEntry compare),
      (rest.map LeaseInfo.mac).Nodup →
      ((rest.filterMap (verdict context)).foldl
        (fun entries lease => entries.insert lease.mac (LeaseTable.restoredEntry lease)) entries)[mac]? =
      (((rest.find? fun lease => lease.mac == mac).bind (verdict context)).map
        LeaseTable.restoredEntry).or entries[mac]? := by
    intro rest
    induction rest with
    | nil => intro entries _; rfl
    | cons lease rest ih =>
      intro entries nodup
      rw [List.map_cons, List.nodup_cons] at nodup
      by_cases own : lease.mac = mac
      · have absent : rest.find? (fun other => other.mac == mac) = none := by
          rw [List.find?_eq_none]
          intro other mem same
          rw [beq_iff_eq, ← own] at same
          exact nodup.1 (same ▸ List.mem_map_of_mem mem)
        rw [List.find?_cons_of_pos (by simpa using own), Option.bind_some]
        cases judged : verdict context lease with
        | none =>
          rw [List.filterMap_cons_none judged, ih _ nodup.2, absent]
          rfl
        | some kept =>
          obtain ⟨kind, rfl⟩ := verdict_kept judged
          rw [List.filterMap_cons_some judged, List.foldl_cons, ih _ nodup.2, absent,
            TreeMap.getElem?_insert_eq, if_pos own]
          rfl
      · rw [List.find?_cons_of_neg (by simpa using own)]
        cases judged : verdict context lease with
        | none => rw [List.filterMap_cons_none judged, ih _ nodup.2]
        | some kept =>
          obtain ⟨kind, rfl⟩ := verdict_kept judged
          rw [List.filterMap_cons_some judged, List.foldl_cons, ih _ nodup.2,
            TreeMap.getElem?_insert_eq, if_neg own]
  rw [run store.leases ∅ clients]
  simp

theorem restoredQuarantine_getElem? {options : EngineOptions} {holds : List (Ipv4Addr × Nat)} {now : Nat}
    (nodup : (holds.map Prod.fst).Nodup) {addr : Ipv4Addr} {due : Nat} (later : now < due) :
    (options.emptyTable.restoreQuarantine holds now).quarantine[addr]? = some due ↔
      (addr, due) ∈ holds := by
  refine ⟨fun hit => (restoreQuarantine_held hit).resolve_right ?_, fun mem => ?_⟩
  · simp [EngineOptions.emptyTable, LeaseTable.new]
  · have walk : (fun (quarantine : TreeMap Ipv4Addr Nat compare) (hold : Ipv4Addr × Nat) =>
        if hold.2 > now then quarantine.insert hold.1 hold.2 else quarantine) =
        overwriteWith fun _ due _ => if due > now then some due else none := by
      funext quarantine hold
      unfold overwriteWith
      by_cases live : hold.2 > now
      · simp [if_pos live]
      · simp [if_neg live]
    simp only [LeaseTable.restoreQuarantine, walk]
    rw [foldl_overwriteWith_getElem? _ holds _ nodup mem, if_pos later]
    rfl

theorem find?_mac (nodup : (leases.map LeaseInfo.mac).Nodup) (mem : lease ∈ leases) :
    (leases.find? fun other => other.mac == lease.mac) = some lease := by
  cases hit : leases.find? fun other => other.mac == lease.mac with
  | none => simpa using List.find?_eq_none.mp hit lease mem
  | some other =>
    have same := List.find?_some hit
    rw [beq_iff_eq] at same
    rw [List.inj_on_of_nodup_map nodup (List.mem_of_find?_eq_some hit) mem same]

namespace LeaseTable

def leasePayload (table : LeaseTable) (savedAt now : Nat) : Json :=
  storePayload savedAt (table.persistableLeases now) (table.quarantineSnapshot now)

def leaseFile (printFloat : ℚ → Text) (table : LeaseTable) (savedAt now : Nat) : Text :=
  saveLeases printFloat savedAt (table.persistableLeases now) (table.quarantineSnapshot now)

theorem persistable_macs (table : LeaseTable) (now : Nat) :
    ((table.persistableLeases now).map LeaseInfo.mac).Nodup := by
  simp only [persistableLeases, List.map_map]
  exact (TreeMap.nodup_keys_toList table.entries).sublist (List.filter_sublist.map _)

theorem quarantineSnapshot_addresses (table : LeaseTable) (now : Nat) :
    ((table.quarantineSnapshot now).map Prod.fst).Nodup :=
  (TreeMap.nodup_keys_toList table.quarantine).sublist (List.filter_sublist.map _)

/-- The recordable holds on lower addresses, which the reader takes first. -/
def lowerHolds (table : LeaseTable) (now : Nat) (address : Ipv4Addr) : List (Ipv4Addr × Nat) :=
  ((table.quarantineSnapshot now).filter carriedHold).filter fun hold => decide (hold.1 < address)

end LeaseTable

structure SameLease (entry kept : LeaseEntry) : Prop where
  state : kept.state = .bound
  address : kept.address = entry.address
  boundAtMs : kept.boundAtMs = entry.boundAtMs
  expiresAtMs : kept.expiresAtMs = entry.expiresAtMs
  hostname : kept.hostname = entry.hostname

def SafeTimes (entry : LeaseEntry) : Prop :=
  entry.expiresAtMs ≤ maxSafeIntegerMs ∧ ∀ moment, entry.boundAtMs = some moment → moment ≤ maxSafeIntegerMs

section Restart

variable {options : EngineOptions} {table : LeaseTable} {now : Nat}

def LeaseTable.rereadInfo (table : LeaseTable) (mac : MacKey) (entry : LeaseEntry) (now : Nat) : LeaseInfo :=
  reread (table.infoFor mac entry now)

variable {entry : LeaseEntry} {mac : MacKey}

theorem carried_infoFor (since : entry.boundAtMs.isSome = true) :
    carried (table.infoFor mac entry now) = true ↔ SafeTimes entry := by
  obtain ⟨moment, since⟩ := Option.isSome_iff_exists.mp since
  simp only [carried, LeaseTable.infoFor, since, decide_eq_true_eq, SafeTimes,
    Option.some.injEq, forall_eq']
  exact And.comm

theorem find?_carried (hit : table.entries[mac]? = some entry) (bound : entry.state = .bound)
    (live : entry.isLive now = true) :
    (((table.persistableLeases now).filter carried).map reread).find? (fun lease => lease.mac == mac) =
      if carried (table.infoFor mac entry now) then some (table.rereadInfo mac entry now) else none := by
  have macs : (((table.persistableLeases now).filter carried).map reread).map LeaseInfo.mac =
      ((table.persistableLeases now).filter carried).map LeaseInfo.mac := by
    rw [List.map_map]
    rfl
  have nodup := (table.persistable_macs now).sublist
    ((List.filter_sublist (p := carried) (l := table.persistableLeases now)).map LeaseInfo.mac)
  have record : table.infoFor mac entry now ∈ table.persistableLeases now :=
    LeaseTable.persistable_of_entry.mpr ⟨entry, hit, bound, live, rfl⟩
  by_cases kept : carried (table.infoFor mac entry now) = true
  · rw [if_pos kept]
    exact find?_mac (macs ▸ nodup) (List.mem_map_of_mem (List.mem_filter.mpr ⟨record, kept⟩))
  · rw [if_neg kept, List.find?_eq_none]
    intro lease mem own
    obtain ⟨original, inside, rfl⟩ := List.mem_map.mp mem
    obtain ⟨inside, safe⟩ := List.mem_filter.mp inside
    rw [beq_iff_eq] at own
    rw [List.inj_on_of_nodup_map (table.persistable_macs now) inside record own] at safe
    exact kept safe

theorem restart_distinct (inv : table.Invariant now) :
    let leases := ((table.persistableLeases now).filter carried).map reread
    (leases.map LeaseInfo.mac).Nodup ∧ (leases.map LeaseInfo.ip).Nodup := by
  simp only [List.map_map]
  exact ⟨(table.persistable_macs now).sublist (List.filter_sublist.map LeaseInfo.mac),
    inv.persistable_distinct.sublist (List.filter_sublist.map LeaseInfo.ip)⟩

theorem admits_rereadInfo (inv : table.Invariant now) (cfg : table.config = options.emptyTable.config)
    (hit : table.entries[mac]? = some entry) (live : entry.isLive now = true) (restoreMs : Nat) :
    LeaseTable.Admits (options.context restoreMs) (table.rereadInfo mac entry now) ↔
      ∀ reserved : Ipv4Addr, options.statics[mac]? = some reserved → reserved = entry.address := by
  obtain ⟨statics, pool⟩ := LeaseTable.config_inPool cfg
  have statics : table.statics = options.statics := statics
  have claim := LeaseTable.claims_eq_some.mpr ⟨entry, hit, live, rfl⟩
  have placed := inv.placed mac entry hit
  rw [statics] at placed
  constructor
  · rintro (own | ⟨nothing, _⟩) reserved atMac
    · exact Option.mem_unique atMac own
    · exact nomatch nothing.symm.trans atMac
  · intro home
    cases own : options.statics[mac]? with
    | some reserved => exact .inl (own.trans (congrArg some (home reserved own)))
    | none =>
      refine .inr ⟨own, ?_, ?_⟩
      · rcases placed with inside | other
        · exact (congrFun pool entry.address).symm.trans inside
        · exact nomatch own.symm.trans other
      · intro other reserved
        have reserved : table.statics[other]? = some entry.address := statics ▸ reserved
        rw [← inv.sound.respects claim reserved, statics, own] at reserved
        cases reserved

theorem restart_entry {path : Text} (persisted : options.leaseStorePath = some path) {store pre : LeaseStore}
    (held : store.leases = ((table.persistableLeases now).filter carried).map reread)
    (inv : table.Invariant now) (config : table.config = options.emptyTable.config)
    (recorded : Recorded pre table) {restoreMs seedMs : UInt64} (later : now ≤ restoreMs.toNat)
    (hit : table.entries[mac]? = some entry) (bound : entry.state = .bound)
    (unexpired : restoreMs.toNat < entry.expiresAtMs) :
    (∃ kept, (DhcpCore.new options store restoreMs seedMs).1.table.entries[mac]? = some kept ∧
      SameLease entry kept) ↔
    (∀ reserved : Ipv4Addr, options.statics[mac]? = some reserved → reserved = entry.address) ∧
      SafeTimes entry := by
  have live : entry.isLive now = true := by
    simp only [LeaseEntry.isLive, Bool.or_eq_true, decide_eq_true_eq]
    omega
  have since := (recorded.entries mac entry hit).since bound
  obtain ⟨clients, addresses⟩ := restart_distinct inv
  rw [← held] at clients addresses
  have restored := restored_entries options restoreMs.toNat clients addresses mac
  rw [← restorePersisted_table persisted, held, find?_carried hit bound live] at restored
  have config' : (DhcpCore.restorePersisted options.emptyTable options store restoreMs.toNat).1.config =
      options.emptyTable.config := restorePersisted_config store _ _
  change (∃ kept, ((DhcpCore.restorePersisted options.emptyTable options store
    restoreMs.toNat).1.seedStaticReservations seedMs.toNat).1.entries[mac]? = some kept ∧ _) ↔ _
  generalize (DhcpCore.restorePersisted options.emptyTable options store restoreMs.toNat).1 = first at *
  have statics : first.statics = options.statics := (LeaseTable.config_inPool config').1
  rw [first.seedStaticReservations_entries, statics]
  constructor
  · rintro ⟨kept, atMac, same⟩
    have held : first.entries[mac]? = some kept := by
      cases own : options.statics[mac]? with
      | none => simpa only [own] using atMac
      | some reserved =>
        simp only [own, Option.or_eq_some_iff] at atMac
        rcases atMac with seeded | ⟨_, old⟩
        · rw [LeaseTable.seedEntry_address seeded] at same
          cases same.state
        · exact old
    rw [restored] at held
    by_cases kept : carried (table.infoFor mac entry now) = true
    · rw [if_pos kept, Option.bind_some] at held
      have judged := Option.isSome_map ▸ (Option.isSome_of_eq_some held)
      have admitted := (verdict_isSome.mp judged).2
      exact ⟨(admits_rereadInfo inv config hit live _).mp admitted, (carried_infoFor since).mp kept⟩
    · rw [if_neg kept] at held
      cases held
  · rintro ⟨home, safe⟩
    have admitted := (admits_rereadInfo inv config hit live restoreMs.toNat).mpr home
    obtain ⟨lease, judged⟩ := Option.isSome_iff_exists.mp (verdict_isSome.mpr ⟨unexpired, admitted⟩)
    rw [if_pos ((carried_infoFor since).mpr safe), Option.bind_some, judged, Option.map_some] at restored
    obtain ⟨kind, rfl⟩ := verdict_kept judged
    refine ⟨LeaseTable.restoredEntry { table.rereadInfo mac entry now with leaseType := kind }, ?_,
      ⟨rfl, rfl, ?_, rfl, rfl⟩⟩
    · rw [restored]
      cases own : options.statics[mac]? with
      | none => rfl
      | some reserved =>
        have already : first.seedEntry seedMs.toNat mac reserved (some (LeaseTable.restoredEntry
            { table.rereadInfo mac entry now with leaseType := kind })) = none := by
          obtain rfl := home reserved own
          unfold LeaseTable.seedEntry
          split
          · rfl
          · simp [LeaseTable.restoredEntry, LeaseTable.rereadInfo, reread, LeaseTable.infoFor]
        simp [already]
    · obtain ⟨moment, since⟩ := Option.isSome_iff_exists.mp since
      simp [LeaseTable.restoredEntry, LeaseTable.rereadInfo, reread, LeaseTable.infoFor, since]

theorem restart_quarantine {path : Text} (persisted : options.leaseStorePath = some path)
    {store : LeaseStore} (held : store.quarantine =
      ((table.quarantineSnapshot now).filter carriedHold).take maxPersistedLeases)
    {restoreMs seedMs : UInt64} (later : now ≤ restoreMs.toNat) {addr : Ipv4Addr} {due : Nat}
    (hit : table.quarantine[addr]? = some due) (unexpired : restoreMs.toNat < due) :
    (DhcpCore.new options store restoreMs seedMs).1.table.quarantine[addr]? = some due ↔
      due ≤ maxSafeIntegerMs ∧ (table.lowerHolds now addr).length < maxPersistedLeases := by
  have nodup : (store.quarantine.map Prod.fst).Nodup := by
    rw [held]
    exact (table.quarantineSnapshot_addresses now).sublist
      (((List.take_sublist _ _).trans List.filter_sublist).map Prod.fst)
  have ascending : ((table.quarantineSnapshot now).filter carriedHold).Pairwise
      fun a b => compare a.1 b.1 = .lt :=
    (TreeMap.ordered_keys_toList (t := table.quarantine)).sublist
      (List.filter_sublist.trans List.filter_sublist)
  have listed : (addr, due) ∈ table.quarantineSnapshot now := by
    refine List.mem_filter.mpr ⟨TreeMap.mem_toList_iff_getElem?_eq_some.mpr hit, ?_⟩
    rw [decide_eq_true_eq]
    omega
  have taken : (addr, due) ∈ store.quarantine ↔
      due ≤ maxSafeIntegerMs ∧ (table.lowerHolds now addr).length < maxPersistedLeases := by
    have below : ∀ hold : Ipv4Addr × Nat, (compare hold.1 addr == .lt) = decide (hold.1 < addr) := by
      intro hold
      rw [Bool.eq_iff_iff, beq_iff_eq, decide_eq_true_eq, Std.compare_eq_lt]
    rw [held]
    by_cases safe : due ≤ maxSafeIntegerMs
    · have mem : (addr, due) ∈ (table.quarantineSnapshot now).filter carriedHold :=
        List.mem_filter.mpr ⟨listed, decide_eq_true safe⟩
      rw [mem_take_iff_of_ascending ascending mem]
      simp [below, safe, LeaseTable.lowerHolds]
    · simp only [safe, false_and, iff_false]
      intro mem
      exact safe (of_decide_eq_true (List.mem_filter.mp (List.mem_of_mem_take mem)).2)
  rw [← taken, ← restoredQuarantine_getElem? nodup unexpired]
  change (DhcpCore.restorePersisted options.emptyTable options store
    restoreMs.toNat).1.quarantine[addr]? = some due ↔ _
  rw [restorePersisted_table persisted]
  rfl

end Restart

def DhcpCore.restart (core : DhcpCore) (options : EngineOptions) (fromStr : Text → Option Json)
    (printFloat : ℚ → Text) (savedAt savedMs restoreMs seedMs : UInt64) : DhcpCore :=
  (DhcpCore.new options
    (loadStore fromStr (some (core.table.leaseFile printFloat savedAt.toNat savedMs.toNat)))
    restoreMs seedMs).1

section Running

variable {options : EngineOptions} {path : Text} {fromStr : Text → Option Json} {printFloat : ℚ → Text}
  {file : Option Text} {events : List (Event DhcpCore Input)} {core : DhcpCore} {time : Nat}
  {savedAt savedMs restoreMs seedMs : UInt64}

/-- The parser undoes the printer on the file this state is written as. -/
def ReadsBack (fromStr : Text → Option Json) (printFloat : ℚ → Text) (core : DhcpCore)
    (savedAt savedMs : UInt64) : Prop :=
  fromStr (core.table.leaseFile printFloat savedAt.toNat savedMs.toNat) =
    some (core.table.leasePayload savedAt.toNat savedMs.toNat)

section

variable (run : Runs options (loadStore fromStr file) events core time)
include run

theorem Runs.reopened (valid : options.Validated) (inverse : ReadsBack fromStr printFloat core savedAt savedMs)
    (saving : time ≤ savedMs.toNat) :
    loadStore fromStr (some (core.table.leaseFile printFloat savedAt.toNat savedMs.toNat)) =
      { leases := ((core.table.persistableLeases savedMs.toNat).filter carried).map reread
        quarantine :=
          ((core.table.quarantineSnapshot savedMs.toNat).filter carriedHold).take maxPersistedLeases } := by
  have sane := (run.sane valid).mono saving
  have loaded := loadStore_loaded fromStr file
  have recorded := run.recorded valid loaded
  have cfg : core.table.config = options.emptyTable := congrArg Settings.table sane.settings
  have small : poolSize core.table.rangeStart core.table.rangeEnd ≤ maxDhcpPoolSize := by
    have start : core.table.rangeStart = options.rangeStart := congrArg LeaseTable.rangeStart cfg
    have stop : core.table.rangeEnd = options.rangeEnd := congrArg LeaseTable.rangeEnd cfg
    rw [start, stop]
    exact valid.pool.2
  have few : core.table.statics.size ≤ maxStaticReservations := by
    have statics : core.table.statics = options.statics := congrArg LeaseTable.statics cfg
    exact statics ▸ valid.few
  have early : savedAt.toNat < timeLimit := Nat.lt_trans savedAt.toNat_lt (by decide)
  refine loadStore_saveLeases early recorded.shortLeases ?_ (sane.invariant.persistable_few small few)
    (LeaseTable.quarantineSnapshot_few recorded loaded small few _) inverse
  intro hold mem
  have hit := TreeMap.mem_toList_iff_getElem?_eq_some.mp (List.mem_filter.mp mem).1
  exact recorded.deadlines hold.1 hold.2 hit

theorem Runs.keeps_lease (valid : options.Validated) (persisted : options.leaseStorePath = some path)
    (inverse : ReadsBack fromStr printFloat core savedAt savedMs) (saving : time ≤ savedMs.toNat)
    (later : savedMs ≤ restoreMs) {mac : MacKey} {entry : LeaseEntry} (hit : core.table.entries[mac]? = some entry)
    (bound : entry.state = .bound) (unexpired : restoreMs.toNat < entry.expiresAtMs) :
    (∃ kept, (core.restart options fromStr printFloat savedAt savedMs restoreMs seedMs).table.entries[mac]?
      = some kept ∧ SameLease entry kept) ↔
    (∀ reserved : Ipv4Addr, options.statics[mac]? = some reserved → reserved = entry.address) ∧
      SafeTimes entry := by
  have sane := (run.sane valid).mono saving
  have cfg : core.table.config = options.emptyTable := congrArg Settings.table sane.settings
  exact restart_entry persisted (congrArg LeaseStore.leases (run.reopened valid inverse saving))
    sane.invariant cfg (run.recorded valid (loadStore_loaded fromStr file)) later hit bound unexpired

theorem Runs.keeps_quarantine (valid : options.Validated) (persisted : options.leaseStorePath = some path)
    (inverse : ReadsBack fromStr printFloat core savedAt savedMs) (saving : time ≤ savedMs.toNat)
    (later : savedMs ≤ restoreMs) {addr : Ipv4Addr} {due : Nat}
    (hit : core.table.quarantine[addr]? = some due) (unexpired : restoreMs.toNat < due) :
    (core.restart options fromStr printFloat savedAt savedMs restoreMs seedMs).table.quarantine[addr]?
      = some due ↔
    due ≤ maxSafeIntegerMs ∧ (core.table.lowerHolds savedMs.toNat addr).length < maxPersistedLeases :=
  restart_quarantine persisted (congrArg LeaseStore.quarantine (run.reopened valid inverse saving)) later
    hit unexpired

end

/-- A restart brings back the running leases that are on their reservation, if any, and the running quarantines, as
far as the file carries them. -/
theorem restart_durable {config : DhcpConfig} (resolved : config.resolve = .ok options)
    (persisted : options.leaseStorePath = some path)
    (run : Runs options (loadStore fromStr file) events core time)
    (inverse : ReadsBack fromStr printFloat core savedAt savedMs)
    (saving : time ≤ savedMs.toNat) (later : savedMs ≤ restoreMs) :
    (∀ (mac : MacKey) (entry : LeaseEntry), core.table.entries[mac]? = some entry →
      entry.state = .bound → restoreMs.toNat < entry.expiresAtMs →
      ((∃ kept, (core.restart options fromStr printFloat savedAt savedMs restoreMs
        seedMs).table.entries[mac]? = some kept ∧ SameLease entry kept) ↔
      (∀ reserved : Ipv4Addr, options.statics[mac]? = some reserved → reserved = entry.address) ∧
        SafeTimes entry)) ∧
    ∀ (address : Ipv4Addr) (deadline : Nat), core.table.quarantine[address]? = some deadline →
      restoreMs.toNat < deadline →
      ((core.restart options fromStr printFloat savedAt savedMs restoreMs
        seedMs).table.quarantine[address]? = some deadline ↔
      deadline ≤ maxSafeIntegerMs ∧ (core.table.lowerHolds savedMs.toNat address).length < maxPersistedLeases) := by
  have valid := DhcpConfig.resolve_validated resolved
  refine ⟨?_, ?_⟩
  · intro mac entry found bound unexpired
    exact run.keeps_lease valid persisted inverse saving later found bound unexpired
  · intro address deadline found unexpired
    exact run.keeps_quarantine valid persisted inverse saving later found unexpired

end Running

def storedConfig : DhcpConfig := { sampleConfig with leaseStorePath := some "leases.json".toList }

def storedOptions : EngineOptions :=
  match storedConfig.resolve with
  | .ok options => options
  | .error _ => {}

theorem storedConfig_resolve : storedConfig.resolve = .ok storedOptions := by
  have valid : storedConfig.resolve.isOk = true := by decide
  unfold storedOptions
  cases hit : storedConfig.resolve with
  | ok options => rfl
  | error msg =>
    rw [hit] at valid
    cases valid

/-- A parser that reads back one state's file and nothing else. -/
def onlyFile (core : DhcpCore) (savedMs : UInt64) (text : Text) : Option Json :=
  if text = core.table.leaseFile (fun _ => []) savedMs.toNat savedMs.toNat then
    some (core.table.leasePayload savedMs.toNat savedMs.toNat)
  else none

theorem onlyFile_readsBack (core : DhcpCore) (savedMs : UInt64) :
    ReadsBack (onlyFile core savedMs) (fun _ => []) core savedMs savedMs := if_pos rfl

def storedTwoLeases : DhcpCore := server.final (DhcpCore.new storedOptions {} 1000 1000).1 twoLeases

theorem restart_durable_twoLeases :
    ∃ kept, (storedTwoLeases.restart storedOptions (onlyFile storedTwoLeases 3000) (fun _ => [])
      3000 3000 4000 5000).table.entries[MacKey.fromHardware otherClient]? = some kept ∧
      kept.address = .new 192 168 2 11 := by
  have run : Runs storedOptions (loadStore (onlyFile storedTwoLeases 3000) none) _ storedTwoLeases _ :=
    Runs.play storedOptions {} 1000 twoLeases (by decide)
  have held : (storedTwoLeases.table.entries[MacKey.fromHardware otherClient]?.filter fun entry =>
      entry.state == .bound && entry.address == .new 192 168 2 11 && decide (4000 < entry.expiresAtMs)
        && decide (entry.expiresAtMs ≤ maxSafeIntegerMs)
        && entry.boundAtMs.all fun moment => decide (moment ≤ maxSafeIntegerMs)).isSome = true := by
    decide +kernel
  obtain ⟨entry, found⟩ := Option.isSome_iff_exists.mp held
  simp only [Option.filter_eq_some_iff, Bool.and_eq_true, beq_iff_eq, decide_eq_true_eq,
    Option.all_eq_true] at found
  obtain ⟨found, ⟨⟨⟨bound, address⟩, unexpired⟩, expires⟩, since⟩ := found
  have free : storedOptions.statics[MacKey.fromHardware otherClient]? = none := by decide
  have path : storedOptions.leaseStorePath = some "leases.json".toList := by decide
  have bound' : server.finish (1000 : UInt64).toNat twoLeases ≤ (3000 : UInt64).toNat := by decide
  have later : (3000 : UInt64) ≤ 4000 := by decide
  obtain ⟨kept, atMac, same⟩ := ((restart_durable storedConfig_resolve path run
    (onlyFile_readsBack storedTwoLeases 3000) bound' later).1 _ entry found bound unexpired).mpr
    ⟨fun reserved own => (nomatch free.symm.trans own), expires, since⟩
  exact ⟨kept, atMac, same.address.trans address⟩

def storedTaken : DhcpCore := server.final (DhcpCore.new storedOptions {} 1000 1000).1 [declined, taken]

/-- A reserved client on a dynamic address, its reservation quarantined, loses its lease. -/
theorem restart_not_durable :
    ¬ ∀ (config : DhcpConfig) (options : EngineOptions) (path : Text) (fromStr : Text → Option Json)
      (printFloat : ℚ → Text) (file : Option Text) (events : List (Event DhcpCore Input))
      (core : DhcpCore) (time : Nat) (savedAt savedMs restoreMs seedMs : UInt64),
      config.resolve = .ok options → options.leaseStorePath = some path →
      Runs options (loadStore fromStr file) events core time →
      ReadsBack fromStr printFloat core savedAt savedMs →
      time ≤ savedMs.toNat → savedMs ≤ restoreMs → restoreMs ≤ seedMs →
      (∀ (mac : MacKey) (entry : LeaseEntry), core.table.entries[mac]? = some entry →
        entry.state = .bound → restoreMs.toNat < entry.expiresAtMs →
        ∃ kept, (core.restart options fromStr printFloat savedAt savedMs restoreMs
          seedMs).table.entries[mac]? = some kept ∧ SameLease entry kept) ∧
      ∀ (address : Ipv4Addr) (deadline : Nat), core.table.quarantine[address]? = some deadline →
        restoreMs.toNat < deadline →
        (core.restart options fromStr printFloat savedAt savedMs restoreMs
          seedMs).table.quarantine[address]? = some deadline := by
  intro durable
  have run : Runs storedOptions (loadStore (onlyFile storedTaken 3000) none) _ storedTaken _ :=
    Runs.play storedOptions {} 1000 [declined, taken] (by decide)
  have held : (storedTaken.table.entries[MacKey.fromHardware reservedClient]?.filter fun entry =>
      entry.state == .bound && entry.address == .new 192 168 2 10
        && decide (4000 < entry.expiresAtMs)).isSome = true := by
    decide +kernel
  obtain ⟨entry, found⟩ := Option.isSome_iff_exists.mp held
  simp only [Option.filter_eq_some_iff, Bool.and_eq_true, beq_iff_eq, decide_eq_true_eq] at found
  obtain ⟨found, ⟨bound, address⟩, unexpired⟩ := found
  have own : storedOptions.statics[MacKey.fromHardware reservedClient]? = some (.new 192 168 2 20) := by
    decide
  have path : storedOptions.leaseStorePath = some "leases.json".toList := by decide
  have bound' : server.finish (1000 : UInt64).toNat [declined, taken] ≤ (3000 : UInt64).toNat := by decide
  have inverse := onlyFile_readsBack storedTaken 3000
  have later : (3000 : UInt64) ≤ 4000 := by decide
  have kept := (durable _ _ _ _ _ _ _ _ _ 3000 3000 4000 5000 storedConfig_resolve path run inverse bound'
    later (by decide)).1 _ entry found bound unexpired
  have home := ((run.keeps_lease (DhcpConfig.resolve_validated storedConfig_resolve) path inverse bound'
    later found bound unexpired).mp kept).1 _ own
  rw [address] at home
  exact absurd home (by decide)

end NexTerminal.Dhcp
