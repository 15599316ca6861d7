import NexTerminal.Dhcp.Allocation
import NexTerminal.Dhcp.Persistence

namespace NexTerminal.Dhcp

open Std Library

namespace LeaseTable

/-- No address is live twice or against a reservation, and every entry sits in
the pool or on its own reservation. -/
structure Invariant (table : LeaseTable) (now : Nat) : Prop where
  distinct : table.reservations.Exclusive
  sound : Claims.Sound table.reservations (table.claims now)
  placed : ∀ (mac : MacKey) (entry : LeaseEntry), table.entries[mac]? = some entry →
    table.inPool entry.address = true ∨ table.statics[mac]? = some entry.address

variable {table : LeaseTable} {now : Nat}

theorem Invariant.mono {later : Nat} (pre : table.Invariant now) (bound : now ≤ later) :
    table.Invariant later where
  distinct := pre.distinct
  sound := pre.sound.lapse fun _ _ held => claims_mono bound held
  placed := pre.placed

variable {mac : MacKey} {addr : Ipv4Addr}

theorem Invariant.selectAddress_assignable {requested : Option Ipv4Addr} (pre : table.Invariant now)
    (chosen : table.selectAddress mac requested now = some addr) : table.Assignable mac addr now := by
  have fresh : table.inPool addr = true ∧ table.isTakenByOther addr mac now = false →
      table.Assignable mac addr now := by
    rintro ⟨placed, untaken⟩
    obtain ⟨usable, unreserved, free⟩ := isTakenByOther_eq_false.mp untaken
    exact ⟨.inl placed, unreserved, usable, free⟩
  unfold selectAddress at chosen
  split at chosen
  · rename_i existing hit
    cases chosen
    obtain ⟨usable, own | held⟩ := existingAddress_spec hit
    · exact ⟨.inr own, fun other reserved => pre.distinct reserved own, usable,
        fun other held => pre.sound.respects held own⟩
    · obtain ⟨entry, atMac, _, same⟩ := claims_eq_some.mp held
      exact ⟨same ▸ pre.placed mac entry atMac,
        fun other reserved => (pre.sound.respects held reserved).symm, usable,
        fun other taken => pre.sound.exclusive taken held⟩
  · split at chosen
    · split at chosen
      · rename_i free
        cases chosen
        simp only [Bool.and_eq_true, Bool.not_eq_true'] at free
        exact fresh free
      · exact fresh (lowestFreeAddress_spec chosen)
    · exact fresh (lowestFreeAddress_spec chosen)

variable {entry : LeaseEntry}

theorem Invariant.insert (pre : table.Invariant now) (free : table.Assignable mac entry.address now) :
    LeaseTable.Invariant { table with entries := table.entries.insert mac entry } now := by
  refine ⟨pre.distinct, ?_, ?_⟩
  · refine pre.sound.grant free.free free.unreserved ?_
    intro other addr held
    obtain ⟨hit, atOther, live, same⟩ := claims_eq_some.mp held
    rw [TreeMap.getElem?_insert_eq] at atOther
    split at atOther
    · rename_i isMac
      cases atOther
      exact .inr ⟨isMac.symm, same.symm⟩
    · exact .inl (claims_eq_some.mpr ⟨hit, atOther, live, same⟩)
  · intro other hit atOther
    rw [TreeMap.getElem?_insert_eq] at atOther
    split at atOther
    · rename_i isMac
      cases atOther
      exact isMac ▸ free.placed
    · exact pre.placed other hit atOther

theorem Invariant.reseat {next : LeaseTable} (pre : table.Invariant now)
    (range : next.rangeStart = table.rangeStart ∧ next.rangeEnd = table.rangeEnd)
    (statics : next.statics = table.statics)
    (reseats : ∀ (mac : MacKey) (entry : LeaseEntry), next.entries[mac]? = some entry →
      table.entries[mac]? = some entry ∨ table.statics[mac]? = some entry.address) : next.Invariant now := by
  have same : next.reservations = table.reservations := by
    unfold reservations
    rw [statics]
  refine ⟨same ▸ pre.distinct, ?_, ?_⟩
  · rw [same]
    refine pre.sound.reseat pre.distinct ?_
    intro mac addr held
    obtain ⟨entry, hit, live, rfl⟩ := claims_eq_some.mp held
    exact (reseats mac entry hit).imp_left fun old => claims_eq_some.mpr ⟨entry, old, live, rfl⟩
  · intro mac entry hit
    simp only [inPool, range, statics]
    rcases reseats mac entry hit with old | own
    · exact pre.placed mac entry old
    · exact .inr own

theorem Invariant.offer (pre : table.Invariant now) (free : table.Assignable mac addr now)
    (hostname : Option Text) : (table.offer mac addr hostname now).Invariant now :=
  pre.insert free

/-- Binding an assignable address keeps the table sound. -/
theorem Invariant.bind (pre : table.Invariant now) (free : table.Assignable mac addr now)
    (hostname : Option Text) : (table.bind mac addr hostname now).1.Invariant now :=
  pre.insert free

theorem releaseAny_entries {other : MacKey} (hit : (table.releaseAny mac now).1.entries[other]? = some entry) :
    table.entries[other]? = some entry ∨
      (other = mac ∧ ∃ reserved, table.statics[mac]? = some reserved ∧
        entry = table.placeholder reserved now) := by
  unfold releaseAny at hit
  split at hit
  · exact .inl hit
  · split at hit
    · rename_i reserved own
      split at hit
      · simp only [TreeMap.getElem?_insert_eq, TreeMap.getElem?_erase_eq] at hit
        split at hit
        · rename_i same
          cases hit
          exact .inr ⟨same.symm, reserved, own, rfl⟩
        · exact .inl hit
      · simp only [TreeMap.getElem?_erase_eq] at hit
        split at hit
        · cases hit
        · exact .inl hit
    · simp only [TreeMap.getElem?_erase_eq] at hit
      split at hit
      · cases hit
      · exact .inl hit

theorem releaseAny_settings (table : LeaseTable) (mac : MacKey) (now : Nat) :
    ∃ entries, (table.releaseAny mac now).1 = { table with entries := entries } := by
  unfold releaseAny
  split
  · exact ⟨_, rfl⟩
  · split
    · split
      · exact ⟨_, rfl⟩
      · exact ⟨_, rfl⟩
    · exact ⟨_, rfl⟩

theorem Invariant.releaseAny (pre : table.Invariant now) (mac : MacKey) :
    (table.releaseAny mac now).1.Invariant now := by
  obtain ⟨entries, same⟩ := table.releaseAny_settings mac now
  refine pre.reseat (by simp [same]) (by simp [same]) ?_
  intro other entry hit
  rcases releaseAny_entries hit with old | ⟨rfl, reserved, own, rfl⟩
  · exact .inl old
  · exact .inr own

theorem Invariant.release (pre : table.Invariant now) (mac : MacKey) (addr : Ipv4Addr) :
    (table.release mac addr now).1.Invariant now := by
  unfold LeaseTable.release
  split
  · exact pre
  · exact pre.releaseAny mac

theorem Invariant.decline (pre : table.Invariant now) (mac : MacKey) (declined : Ipv4Addr) :
    (table.decline mac declined now).1.Invariant now := by
  unfold LeaseTable.decline
  split
  · exact pre
  · split
    · exact pre
    · refine pre.reseat ⟨rfl, rfl⟩ rfl ?_
      intro other entry hit
      simp only [TreeMap.getElem?_erase_eq] at hit
      split at hit
      · cases hit
      · exact .inl hit

theorem seedEntry_address {current : Option LeaseEntry}
    (seeded : table.seedEntry now mac addr current = some entry) : entry = table.placeholder addr now := by
  unfold seedEntry at seeded
  split at seeded
  · cases seeded
  · split at seeded
    · cases seeded
    · split at seeded
      · cases seeded
      · cases seeded
        rfl

theorem seedStaticReservations_entries (table : LeaseTable) (now : Nat) (mac : MacKey) :
    (table.seedStaticReservations now).1.entries[mac]? =
      match table.statics[mac]? with
      | some addr => (table.seedEntry now mac addr table.entries[mac]?).or table.entries[mac]?
      | none => table.entries[mac]? := by
  simp only [seedStaticReservations, foldl_toList_getElem?]
  cases table.statics[mac]? with
  | none | some addr => rfl

theorem Invariant.seedStaticReservations (pre : table.Invariant now) :
    (table.seedStaticReservations now).1.Invariant now := by
  refine pre.reseat ⟨rfl, rfl⟩ rfl ?_
  intro mac entry hit
  rw [seedStaticReservations_entries] at hit
  cases own : table.statics[mac]? with
  | none =>
    simp only [own] at hit
    exact .inl hit
  | some addr =>
    simp only [own, Option.or_eq_some_iff] at hit
    rcases hit with seeded | ⟨_, old⟩
    · rw [seedEntry_address seeded]
      exact .inr rfl
    · exact .inl old

theorem mem_lapsed : mac ∈ (table.lapsed now).map Prod.fst ↔
      ∃ entry, table.entries[mac]? = some entry ∧ entry.isLive now = false := by
  simp only [lapsed, List.map_map, List.mem_map, List.mem_filter, Prod.exists,
    TreeMap.mem_toList_iff_getElem?_eq_some, Bool.not_eq_true']
  constructor
  · rintro ⟨key, entry, mem, rfl⟩
    exact ⟨entry, mem⟩
  · rintro ⟨entry, mem⟩
    exact ⟨mac, entry, mem, rfl⟩

theorem swept_entries (table : LeaseTable) (now : Nat) (mac : MacKey) :
    (table.swept now).entries[mac]? = table.entries[mac]?.filter fun entry => entry.isLive now := by
  rw [swept, foldl_erase_getElem?]
  cases hit : table.entries[mac]? with
  | none => simp
  | some entry =>
    rw [Option.filter_some]
    by_cases live : entry.isLive now = true
    · rw [if_pos live, if_neg]
      rw [mem_lapsed]
      rintro ⟨dead, atMac, lapsed⟩
      cases hit.symm.trans atMac
      rw [live] at lapsed
      cases lapsed
    · rw [if_neg live, if_pos]
      exact mem_lapsed.mpr ⟨entry, hit, by simpa using live⟩

theorem swept_quarantine (table : LeaseTable) (now : Nat) (addr : Ipv4Addr) :
    (table.swept now).quarantine[addr]? =
      table.quarantine[addr]?.filter fun due => decide (due > now) := by
  rw [swept, TreeMap.getElem?_filter']

theorem Invariant.swept {table : LeaseTable} {now : Nat} (pre : table.Invariant now) :
    (table.swept now).Invariant now := by
  refine pre.reseat ⟨rfl, rfl⟩ rfl ?_
  intro mac entry hit
  rw [swept_entries, Option.filter_eq_some_iff] at hit
  exact .inl hit.1

theorem Invariant.expire (pre : table.Invariant now) : (table.expire now).1.Invariant now := by
  simp only [LeaseTable.expire]
  split
  · exact pre.swept
  · exact pre.swept.seedStaticReservations

/-- What a persisted lease must agree with: its own reservation, or the pool and
nobody's reservation. -/
def Admits (context : ReconcileContext) (lease : LeaseInfo) : Prop :=
  context.statics[lease.mac]? = some lease.ip ∨
    (context.statics[lease.mac]? = none ∧
      isIpInPool lease.ip context.rangeStart context.rangeEnd = true ∧
      ∀ other : MacKey, context.statics[other]? ≠ some lease.ip)

structure Reconciled (context : ReconcileContext) (state : ReconcileResult × List Ipv4Addr) : Prop where
  claimed : state.2.reverse = state.1.restored.map LeaseInfo.ip
  distinct : (state.1.restored.map LeaseInfo.ip).Nodup
  fresh : ∀ lease ∈ state.1.restored, context.nowMs < lease.expiresAt
  placed : ∀ lease ∈ state.1.restored, Admits context lease

theorem Reconciled.keep {context : ReconcileContext} {res : ReconcileResult}
    {claimed : List Ipv4Addr} (pre : Reconciled context (res, claimed)) {lease : LeaseInfo}
    (kind : LeaseType) (unclaimed : lease.ip ∉ claimed) (fresh : context.nowMs < lease.expiresAt)
    (placed : Admits context lease) :
    Reconciled context
      ({ res with restored := res.restored ++ [{ lease with leaseType := kind }] }, lease.ip :: claimed) := by
  have absent : lease.ip ∉ res.restored.map LeaseInfo.ip := by
    rw [← pre.claimed]
    simpa using unclaimed
  have known := pre.claimed
  constructor
  · simp [known]
  · simp only [List.map_append]
    rw [List.nodup_append]
    refine ⟨pre.distinct, by simp, ?_⟩
    intro ip mem ip' single same
    rw [List.mem_singleton.mp single] at same
    exact absent (same ▸ mem)
  · intro kept mem
    rcases List.mem_append.mp mem with old | new
    · exact pre.fresh kept old
    · rw [List.mem_singleton.mp new]
      exact fresh
  · intro kept mem
    rcases List.mem_append.mp mem with old | new
    · exact pre.placed kept old
    · rw [List.mem_singleton.mp new]
      exact placed

theorem Reconciled.step {context : ReconcileContext} {state : ReconcileResult × List Ipv4Addr}
    (pre : Reconciled context state) (lease : LeaseInfo) :
    Reconciled context (reconcileStep context state lease) := by
  obtain ⟨res, claimed⟩ := state
  have dropped : ∀ reason, Reconciled context
      ({ res with dropped := res.dropped ++ [⟨lease, reason⟩] }, claimed) :=
    fun _ => { pre with }
  simp only [reconcileStep]
  split
  · exact dropped _
  · have fresh : context.nowMs < lease.expiresAt := by omega
    split
    · rename_i reserved own
      split
      · rename_i same
        split
        · rename_i unclaimed
          exact pre.keep .static unclaimed fresh (.inl (same ▸ own))
        · exact dropped _
      · exact dropped _
    · rename_i unreserved
      split
      · exact dropped _
      · rename_i foreign
        rw [Bool.not_eq_true, TreeMap.any_toList_eq_false] at foreign
        split
        · exact dropped _
        · rename_i inPool
          split
          · exact dropped _
          · rename_i unclaimed
            refine pre.keep .dynamic unclaimed fresh (.inr ⟨unreserved, by simpa using inPool, ?_⟩)
            intro other hit
            simpa using foreign other lease.ip hit

theorem reconcile_reconciled (leases : List LeaseInfo) (context : ReconcileContext) :
    ∃ claimed, Reconciled context (reconcile leases context, claimed) := by
  have start : Reconciled context (({}, []) : ReconcileResult × List Ipv4Addr) :=
    ⟨rfl, List.nodup_nil, by simp, by simp⟩
  have run : ∀ (rest : List LeaseInfo) (state : ReconcileResult × List Ipv4Addr),
      Reconciled context state → Reconciled context (rest.foldl (reconcileStep context) state) := by
    intro rest
    induction rest with
    | nil => exact fun _ pre => pre
    | cons lease rest ih => exact fun state pre => ih _ (pre.step lease)
  exact ⟨_, run leases _ start⟩

theorem restore_entries {leases : List LeaseInfo} (hit : (table.restore leases).entries[mac]? = some entry) :
    (∃ lease ∈ leases, lease.mac = mac ∧ entry = restoredEntry lease) ∨ table.entries[mac]? = some entry := by
  have run : ∀ (rest : List LeaseInfo) (entries : TreeMap MacKey LeaseEntry compare),
      (rest.foldl (fun entries lease => entries.insert lease.mac (restoredEntry lease))
        entries)[mac]? = some entry →
      (∃ lease ∈ rest, lease.mac = mac ∧ entry = restoredEntry lease) ∨ entries[mac]? = some entry := by
    intro rest
    induction rest with
    | nil => exact fun _ hit => .inr hit
    | cons lease rest ih =>
      intro entries hit
      rcases ih _ hit with ⟨later, mem, own, same⟩ | earlier
      · exact .inl ⟨later, List.mem_cons_of_mem _ mem, own, same⟩
      · rw [TreeMap.getElem?_insert_eq] at earlier
        split at earlier
        · rename_i own
          cases earlier
          exact .inl ⟨lease, List.mem_cons_self, own, rfl⟩
        · exact .inr earlier
  exact run leases table.entries hit

theorem Invariant.restore {leases : List LeaseInfo} {later : Nat} (nodup : table.reservations.Exclusive)
    (empty : ∀ mac : MacKey, table.entries[mac]? = none) : (table.restore (reconcile leases
      { statics := table.statics, rangeStart := table.rangeStart, rangeEnd := table.rangeEnd
        nowMs := now }).restored).Invariant later := by
  obtain ⟨claimed, kept⟩ := reconcile_reconciled leases
    { statics := table.statics, rangeStart := table.rangeStart, rangeEnd := table.rangeEnd
      nowMs := now }
  have origin : ∀ (mac : MacKey) (entry : LeaseEntry),
      (table.restore (reconcile leases
        { statics := table.statics, rangeStart := table.rangeStart, rangeEnd := table.rangeEnd
          nowMs := now }).restored).entries[mac]? = some entry →
      ∃ lease ∈ (reconcile leases
        { statics := table.statics, rangeStart := table.rangeStart, rangeEnd := table.rangeEnd
          nowMs := now }).restored, lease.mac = mac ∧ entry.address = lease.ip := by
    intro mac entry hit
    rcases restore_entries hit with ⟨lease, mem, own, rfl⟩ | old
    · exact ⟨lease, mem, own, rfl⟩
    · rw [empty] at old
      cases old
  refine ⟨nodup, ⟨?_, ?_⟩, ?_⟩
  · intro mac other addr held held'
    obtain ⟨entry, hit, _, rfl⟩ := claims_eq_some.mp held
    obtain ⟨entry', found', _, same⟩ := claims_eq_some.mp held'
    obtain ⟨lease, mem, rfl, atLease⟩ := origin _ _ hit
    obtain ⟨lease', member', rfl, atLease'⟩ := origin _ _ found'
    have one := List.inj_on_of_nodup_map kept.distinct mem member' (by rw [← atLease, ← atLease', same])
    rw [one]
  · intro mac other addr held reserved
    obtain ⟨entry, hit, _, rfl⟩ := claims_eq_some.mp held
    obtain ⟨lease, mem, rfl, atLease⟩ := origin _ _ hit
    rw [atLease] at reserved
    rcases kept.placed lease mem with own | ⟨_, _, unreserved⟩
    · exact nodup own reserved
    · exact absurd reserved (unreserved other)
  · intro mac entry hit
    obtain ⟨lease, mem, rfl, atLease⟩ := origin _ _ hit
    rw [atLease]
    rcases kept.placed lease mem with own | ⟨_, inPool, _⟩
    · exact .inr own
    · exact .inl inPool

end LeaseTable

end NexTerminal.Dhcp
