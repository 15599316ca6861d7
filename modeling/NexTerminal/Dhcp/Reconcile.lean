import NexTerminal.Dhcp.Allocation
import NexTerminal.Dhcp.Persistence

namespace NexTerminal.Dhcp

open Std Library

/-- An address of the pool that this client could be given. -/
structure FreeAddress (table : LeaseTable) (mac : MacKey) (now : Nat) (address : Ipv4Addr) : Prop where
  above : table.rangeStart.toNat ≤ address.toNat
  below : address.toNat ≤ table.rangeEnd.toNat
  unheld : ∀ (other : MacKey) (entry : LeaseEntry), table.entries[other]? = some entry →
    entry.isLive now = true → entry.address = address → other = mac
  unreserved : ∀ other : MacKey, table.statics[other]? = some address → other = mac
  usable : ∀ deadline : Nat, table.quarantine[address]? = some deadline → deadline ≤ now

namespace LeaseTable

variable {table : LeaseTable} {mac : MacKey} {now : Nat} {address : Ipv4Addr}

theorem freeAddress_iff : FreeAddress table mac now address ↔
    table.inPool address = true ∧ table.isTakenByOther address mac now = false := by
  rw [inPool, isIpInPool_iff, isTakenByOther_eq_false, ← Bool.not_eq_true, isQuarantined_iff]
  constructor
  · rintro ⟨above, below, unheld, unreserved, usable⟩
    refine ⟨⟨above, below⟩, ?_, unreserved, fun other held => ?_⟩
    · rintro ⟨due, hit, later⟩
      exact absurd (usable due hit) (Nat.not_le.mpr later)
    · obtain ⟨entry, hit, live, same⟩ := claims_eq_some.mp held
      exact unheld other entry hit live same
  · rintro ⟨⟨above, below⟩, open_, unreserved, unheld⟩
    refine ⟨above, below, fun other entry hit live same => ?_, unreserved, fun due hit => ?_⟩
    · exact unheld other (claims_eq_some.mpr ⟨entry, hit, live, same⟩)
    · by_contra later
      exact open_ ⟨due, hit, Nat.not_le.mp later⟩

theorem firstGap_least {used : List Nat} (ordered : used.Pairwise (· < ·)) {cand gap : Nat}
    (run : firstGap cand used = some gap) : ∀ n, cand ≤ n → n < gap → n ∈ used := by
  induction used generalizing cand with
  | nil =>
    cases run
    omega
  | cons head rest ih =>
    rw [List.pairwise_cons] at ordered
    unfold firstGap at run
    intro n above below
    split at run
    · exact List.mem_cons_of_mem _ (ih ordered.2 run n above below)
    · split at run
      · next same =>
        split at run
        · by_cases first : n = head
          · exact first ▸ List.mem_cons_self
          · exact List.mem_cons_of_mem _ (ih ordered.2 run n (by omega) below)
        · cases run
      · cases run
        omega

theorem firstGap_none {used : List Nat} (ordered : used.Pairwise (· < ·)) {cand : Nat}
    (run : firstGap cand used = none) : ∀ n, cand ≤ n → n < 2 ^ 32 → n ∈ used := by
  induction used generalizing cand with
  | nil => cases run
  | cons head rest ih =>
    rw [List.pairwise_cons] at ordered
    unfold firstGap at run
    intro n above below
    split at run
    · exact List.mem_cons_of_mem _ (ih ordered.2 run n above below)
    · split at run
      · next same =>
        by_cases first : n = head
        · exact first ▸ List.mem_cons_self
        · split at run
          · exact List.mem_cons_of_mem _ (ih ordered.2 run n (by omega) below)
          · omega
      · cases run

theorem takenAddresses_ordered : (table.takenAddresses mac now).toList.Pairwise (· < ·) :=
  TreeSet.ordered_toList.imp fun pre => Nat.compare_eq_lt.mp pre

theorem not_free_of_taken (taken : address.toNat ∈ (table.takenAddresses mac now).toList) :
    ¬ FreeAddress table mac now address := by
  rw [TreeSet.mem_toList, mem_takenAddresses] at taken
  intro free
  rw [(freeAddress_iff.mp free).2] at taken
  cases taken

theorem lowestFreeAddress_le (hit : table.lowestFreeAddress mac now = some address) {other : Ipv4Addr}
    (free : FreeAddress table mac now other) : address.toNat ≤ other.toNat := by
  simp only [lowestFreeAddress] at hit
  split at hit
  · cases hit
  · split at hit
    · cases hit
    · next gap run =>
      split at hit
      · cases hit
      · cases hit
        have small : gap < 2 ^ 32 := by have := table.rangeEnd.toNat_lt; omega
        rw [UInt32.toNat_ofNat_of_lt' small]
        by_contra lower
        exact not_free_of_taken
          (firstGap_least takenAddresses_ordered run _ free.above (Nat.not_le.mp lower)) free

theorem not_free_of_lowestFreeAddress (nothing : table.lowestFreeAddress mac now = none) :
    ¬ FreeAddress table mac now address := by
  intro free
  have above := free.above
  have below := free.below
  simp only [lowestFreeAddress] at nothing
  split at nothing
  · omega
  · split at nothing
    · next run =>
      exact not_free_of_taken (firstGap_none takenAddresses_ordered run _ above address.toNat_lt) free
    · next gap run =>
      split at nothing
      · exact not_free_of_taken
          (firstGap_least takenAddresses_ordered run _ above (by omega)) free
      · cases nothing

/-- An address that the client already has and may go on using. -/
def HasAddress (table : LeaseTable) (mac : MacKey) (now : Nat) : Prop :=
  (∃ reserved : Ipv4Addr, table.statics[mac]? = some reserved ∧ table.isQuarantined reserved now = false) ∨
    ∃ entry : LeaseEntry, table.entries[mac]? = some entry ∧ entry.isLive now = true ∧
      table.isQuarantined entry.address now = false

theorem existingAddress_eq_none : table.existingAddress mac now = none ↔ ¬ table.HasAddress mac now := by
  unfold existingAddress
  cases reserved : table.usableReservation mac now with
  | some address =>
    exact iff_of_false nofun fun none => none (.inl ⟨address, usableReservation_eq_some.mp reserved⟩)
  | none =>
    have home : ¬ ∃ reserved : Ipv4Addr, table.statics[mac]? = some reserved ∧
        table.isQuarantined reserved now = false := by
      rintro ⟨address, own⟩
      rw [usableReservation_eq_some.mpr own] at reserved
      cases reserved
    rw [HasAddress, or_iff_right home]
    simp

end LeaseTable

/-- The walk finds the least free address, and a client is given none only where it has none and none is free. -/
theorem lowestFreeAddress_least (table : LeaseTable) (mac : MacKey) (now : Nat) :
    (∀ address, table.lowestFreeAddress mac now = some address ↔
      FreeAddress table mac now address ∧ ∀ other, FreeAddress table mac now other →
        address.toNat ≤ other.toNat) ∧
    (table.lowestFreeAddress mac now = none ↔ ∀ address, ¬ FreeAddress table mac now address) ∧
    ∀ requested, table.selectAddress mac requested now = none →
      ¬ table.HasAddress mac now ∧ ∀ address, ¬ FreeAddress table mac now address := by
  have sound : ∀ address, table.lowestFreeAddress mac now = some address →
      FreeAddress table mac now address := fun address found =>
    LeaseTable.freeAddress_iff.mpr (LeaseTable.lowestFreeAddress_spec found)
  refine ⟨fun address => ⟨fun found => ?_, fun ⟨free, least⟩ => ?_⟩,
    ⟨fun nothing address => ?_, fun taken => ?_⟩, fun requested refused => ?_⟩
  · exact ⟨sound address found, fun other => LeaseTable.lowestFreeAddress_le found⟩
  · cases found : table.lowestFreeAddress mac now with
    | none => exact absurd free (LeaseTable.not_free_of_lowestFreeAddress found)
    | some other =>
      have same : address.toNat = other.toNat :=
        Nat.le_antisymm (least other (sound other found)) (LeaseTable.lowestFreeAddress_le found free)
      rw [UInt32.toNat_inj.mp same]
  · exact LeaseTable.not_free_of_lowestFreeAddress nothing
  · rw [Option.eq_none_iff_forall_ne_some]
    exact fun address found => taken address (sound address found)
  · unfold LeaseTable.selectAddress at refused
    cases existing : table.existingAddress mac now with
    | some address =>
      rw [existing] at refused
      cases refused
    | none =>
      rw [existing] at refused
      have nothing : table.lowestFreeAddress mac now = none := by
        cases requested with
        | none => exact refused
        | some wanted =>
          dsimp only at refused
          split at refused
          · cases refused
          · exact refused
      exact ⟨LeaseTable.existingAddress_eq_none.mp existing, fun address =>
        LeaseTable.not_free_of_lowestFreeAddress nothing⟩

variable {context : ReconcileContext} {lease : LeaseInfo}

/-- The lease is still running, on the client's own reservation or on a pool address of nobody's. -/
structure Restorable (context : ReconcileContext) (lease : LeaseInfo) : Prop where
  unexpired : context.nowMs < lease.expiresAt
  placed : context.statics[lease.mac]? = some lease.ip ∨
    context.statics[lease.mac]? = none ∧ (∀ other : MacKey, context.statics[other]? ≠ some lease.ip) ∧
      isIpInPool lease.ip context.rangeStart context.rangeEnd = true

/-- The lease really is at odds with the configuration, or with a lease restored before it. -/
def Violates (context : ReconcileContext) (accepted : List LeaseInfo) (lease : LeaseInfo) : DropReason → Prop
  | .expired => lease.expiresAt ≤ context.nowMs
  | .staticConflict =>
    (∃ reserved : Ipv4Addr, context.statics[lease.mac]? = some reserved ∧ reserved ≠ lease.ip) ∨
      ∃ other : MacKey, other ≠ lease.mac ∧ context.statics[other]? = some lease.ip
  | .outOfPool =>
    context.statics[lease.mac]? = none ∧ isIpInPool lease.ip context.rangeStart context.rangeEnd = false
  | .duplicateAddress => ∃ earlier ∈ accepted, earlier.ip = lease.ip

def restoredAs (context : ReconcileContext) (lease : LeaseInfo) : LeaseInfo :=
  { lease with leaseType := if (context.statics[lease.mac]?).isSome then .static else .dynamic }

abbrev Judged := LeaseInfo × Option DropReason

def acceptedOf (judged : List Judged) : List LeaseInfo := (judged.filter fun entry => entry.2.isNone).map Prod.fst

def droppedOf (judged : List Judged) : List DroppedLease :=
  judged.filterMap fun entry => entry.2.map (DroppedLease.mk entry.1)

structure Justified (context : ReconcileContext) (accepted : List LeaseInfo) (entry : Judged) : Prop where
  restored : entry.2 = none ↔ Restorable context entry.1 ∧ ∀ earlier ∈ accepted, earlier.ip ≠ entry.1.ip
  dropped : ∀ reason, entry.2 = some reason → Violates context accepted entry.1 reason

def judge (context : ReconcileContext) (claimed : List Ipv4Addr) (lease : LeaseInfo) : Option DropReason :=
  if lease.expiresAt ≤ context.nowMs then some .expired
  else
    match context.statics[lease.mac]? with
    | some reserved =>
      if reserved = lease.ip then if lease.ip ∉ claimed then none else some .duplicateAddress
      else some .staticConflict
    | none =>
      if context.statics.toList.any (fun reservation => reservation.2 == lease.ip) then some .staticConflict
      else if !isIpInPool lease.ip context.rangeStart context.rangeEnd then some .outOfPool
      else if lease.ip ∈ claimed then some .duplicateAddress
      else none

theorem reconcileStep_judge (state : ReconcileResult × List Ipv4Addr) :
    reconcileStep context state lease = match judge context state.2 lease with
      | some reason => ({ state.1 with dropped := state.1.dropped ++ [⟨lease, reason⟩] }, state.2)
      | none => ({ state.1 with restored := state.1.restored ++ [restoredAs context lease] }, lease.ip :: state.2) := by
  unfold reconcileStep judge restoredAs
  dsimp only
  split
  · rfl
  · cases context.statics[lease.mac]? with
    | some reserved =>
      dsimp only
      split
      · split <;> rfl
      · rfl
    | none =>
      dsimp only
      split
      · rfl
      · split
        · rfl
        · split <;> rfl

theorem reserved_iff : context.statics.toList.any (fun reservation => reservation.2 == lease.ip) = true ↔
    ∃ other : MacKey, context.statics[other]? = some lease.ip := by
  simp

theorem judge_justified {claimed : List Ipv4Addr} {ok : List LeaseInfo}
    (same : ∀ address, address ∈ claimed ↔ ∃ earlier ∈ ok, earlier.ip = address) :
    Justified context ok (lease, judge context claimed lease) := by
  have unclaimed : lease.ip ∉ claimed ↔ ∀ earlier ∈ ok, earlier.ip ≠ lease.ip := by
    rw [same]
    push Not
    rfl
  -- The cases are the branches of the source, in its order.
  unfold judge
  by_cases expired : lease.expiresAt ≤ context.nowMs
  · rw [if_pos expired]
    exact ⟨iff_of_false nofun fun both => absurd both.1.unexpired (Nat.not_lt.mpr expired), by
      rintro _ ⟨⟩; exact expired⟩
  rw [if_neg expired]
  have running : context.nowMs < lease.expiresAt := Nat.not_le.mp expired
  cases own : context.statics[lease.mac]? with
  | some reserved =>
    dsimp only
    by_cases home : reserved = lease.ip
    · subst home
      by_cases fresh : lease.ip ∉ claimed
      · rw [if_pos rfl, if_pos fresh]
        exact ⟨iff_of_true rfl ⟨⟨running, .inl own⟩, unclaimed.mp fresh⟩, nofun⟩
      · rw [if_pos rfl, if_neg fresh]
        exact ⟨iff_of_false nofun fun both => fresh (unclaimed.mpr both.2), by
          rintro _ ⟨⟩; exact (same _).mp (not_not.mp fresh)⟩
    · rw [if_neg home]
      refine ⟨iff_of_false nofun fun both => ?_, by rintro _ ⟨⟩; exact .inl ⟨reserved, own, home⟩⟩
      rcases both.1.placed with mine | ⟨nothing, _⟩
      · exact home (Option.mem_unique own mine)
      · rw [own] at nothing
        cases nothing
  | none =>
    dsimp only
    by_cases foreign : context.statics.toList.any (fun reservation => reservation.2 == lease.ip) = true
    · rw [if_pos foreign]
      obtain ⟨other, reserved⟩ := reserved_iff.mp foreign
      refine ⟨iff_of_false nofun fun both => ?_, ?_⟩
      · rcases both.1.placed with mine | ⟨_, free, _⟩
        · rw [own] at mine
          cases mine
        · exact free other reserved
      · rintro _ ⟨⟩
        refine .inr ⟨other, ?_, reserved⟩
        rintro rfl
        rw [own] at reserved
        cases reserved
    rw [if_neg foreign]
    by_cases pool : isIpInPool lease.ip context.rangeStart context.rangeEnd = true
    · rw [pool, if_neg (by decide)]
      by_cases fresh : lease.ip ∈ claimed
      · rw [if_pos fresh]
        exact ⟨iff_of_false nofun fun both => unclaimed.mpr both.2 fresh, by
          rintro _ ⟨⟩; exact (same _).mp fresh⟩
      · rw [if_neg fresh]
        exact ⟨iff_of_true rfl
          ⟨⟨running, .inr ⟨own, fun other reserved => foreign (reserved_iff.mpr ⟨other, reserved⟩),
          pool⟩⟩, unclaimed.mp fresh⟩, nofun⟩
    · rw [Bool.not_eq_true] at pool
      rw [pool, Bool.not_false, if_pos rfl]
      refine ⟨iff_of_false nofun fun both => ?_, by rintro _ ⟨⟩; exact ⟨own, pool⟩⟩
      rcases both.1.placed with mine | ⟨_, _, inside⟩
      · rw [own] at mine
        cases mine
      · rw [pool] at inside
        cases inside

structure Decided (context : ReconcileContext) (judged : List Judged) (state : ReconcileResult × List Ipv4Addr) :
    Prop where
  restored : state.1.restored = (acceptedOf judged).map (restoredAs context)
  dropped : state.1.dropped = droppedOf judged
  claimed : ∀ address, address ∈ state.2 ↔ ∃ earlier ∈ acceptedOf judged, earlier.ip = address
  justified : ∀ before entry after, judged = before ++ entry :: after → Justified context (acceptedOf before) entry

variable {state : ReconcileResult × List Ipv4Addr} {judged : List Judged}

theorem Decided.step (decided : Decided context judged state) (lease : LeaseInfo) :
    Decided context (judged ++ [(lease, judge context state.2 lease)]) (reconcileStep context state lease) := by
  have ok : ∀ verdict, acceptedOf (judged ++ [(lease, verdict)]) =
      acceptedOf judged ++ acceptedOf [(lease, verdict)] := by
    intro verdict
    rw [acceptedOf, List.filter_append, List.map_append]
    rfl
  have drops : ∀ verdict, droppedOf (judged ++ [(lease, verdict)]) =
    droppedOf judged ++ droppedOf [(lease, verdict)] :=
    fun verdict => List.filterMap_append
  have justified : ∀ pre entry after, judged ++ [(lease, judge context state.2 lease)] = pre ++ entry :: after →
      Justified context (acceptedOf pre) entry := by
    intro pre entry after split_
    rcases List.eq_nil_or_concat after with rfl | ⟨rest, last, rfl⟩
    · obtain ⟨rfl, same⟩ := List.append_inj' split_ rfl
      obtain rfl := (List.cons.inj same).1
      exact judge_justified decided.claimed
    · rw [List.concat_eq_append, ← List.cons_append, ← List.append_assoc] at split_
      exact decided.justified pre entry rest (List.append_inj' split_ rfl).1
  rw [reconcileStep_judge]
  cases verdict : judge context state.2 lease with
  | some reason =>
    rw [verdict] at justified
    refine ⟨?_, ?_, ?_, justified⟩
    · rw [ok, decided.restored]
      exact congrArg _ (List.append_nil _).symm
    · rw [drops, ← decided.dropped]
      rfl
    · exact fun address => (decided.claimed address).trans (by simp [acceptedOf])
  | none =>
    rw [verdict] at justified
    refine ⟨?_, ?_, ?_, justified⟩
    · rw [ok, List.map_append, ← decided.restored]
      rfl
    · rw [drops, ← decided.dropped]
      exact (List.append_nil _).symm
    · intro address
      rw [ok, List.mem_cons, decided.claimed]
      simp only [acceptedOf, List.filter_cons_of_pos, Option.isNone_none, List.filter_nil, List.map_cons, List.map_nil,
        List.mem_append, List.mem_singleton, or_and_right, exists_or, exists_eq_left]
      rw [or_comm, eq_comm]

theorem foldl_decided (decided : Decided context judged state) (leases : List LeaseInfo) :
    ∃ later, later.map Prod.fst = leases ∧
      Decided context (judged ++ later) (leases.foldl (reconcileStep context) state) := by
  induction leases generalizing judged state with
  | nil => exact ⟨[], rfl, by simpa using decided⟩
  | cons lease rest ih =>
    obtain ⟨later, names, holds⟩ := ih (decided.step lease)
    refine ⟨(lease, judge context state.2 lease) :: later, by rw [List.map_cons, names], ?_⟩
    rwa [List.append_assoc] at holds

/-- The leases fall into those restored and those dropped, in order, each as it should given the ones before. -/
structure Reconciliation (context : ReconcileContext) (leases : List LeaseInfo) (result : ReconcileResult) : Prop where
  /-- The two lists are what the judgements of the leases, in their order, come to. -/
  parts : ∃ judged : List Judged, judged.map Prod.fst = leases ∧
    result.restored = (acceptedOf judged).map (restoredAs context) ∧ result.dropped = droppedOf judged ∧
    ∀ before entry after, judged = before ++ entry :: after → Justified context (acceptedOf before) entry
  addresses : (result.restored.map LeaseInfo.ip).Nodup
  clients : ((result.restored.filter fun lease => (context.statics[lease.mac]?).isSome).map LeaseInfo.mac).Nodup
  restorable : ∀ lease ∈ result.restored, Restorable context lease

theorem acceptedOf_append (first second : List Judged) :
    acceptedOf (first ++ second) = acceptedOf first ++ acceptedOf second := by
  rw [acceptedOf, List.filter_append, List.map_append]
  rfl

theorem Decided.restorable (decided : Decided context judged state) :
    ∀ lease ∈ acceptedOf judged, Restorable context lease := by
  intro lease mem
  obtain ⟨entry, known, rfl⟩ := List.mem_map.mp mem
  obtain ⟨known, none⟩ := List.mem_filter.mp known
  obtain ⟨pre, after, shape⟩ := List.append_of_mem known
  exact ((decided.justified pre entry after shape).restored.mp (Option.isNone_iff_eq_none.mp none)).1

theorem justified_addresses
    (justified : ∀ pre entry after, judged = pre ++ entry :: after → Justified context (acceptedOf pre) entry) :
    ((acceptedOf judged).map LeaseInfo.ip).Nodup := by
  induction judged using List.reverseRecOn with
  | nil => exact List.nodup_nil
  | append_singleton judged entry ih =>
    have earlier := ih fun pre other after shape => justified pre other (after ++ [entry]) (by
      rw [shape, List.append_assoc, List.cons_append])
    have last := justified judged entry [] rfl
    rw [acceptedOf_append, List.map_append, List.nodup_append]
    refine ⟨earlier, ?_, ?_⟩
    · exact (List.nodup_singleton entry.1.ip).sublist (((List.filter_sublist (l := [entry])).map Prod.fst).map _)
    · rintro address mem other member' rfl
      obtain ⟨lease, known, rfl⟩ := List.mem_map.mp mem
      obtain ⟨lease', known', same⟩ := List.mem_map.mp member'
      obtain ⟨entry', inside, rfl⟩ := List.mem_map.mp known'
      obtain ⟨inside, none⟩ := List.mem_filter.mp inside
      obtain rfl := List.mem_singleton.mp inside
      exact (last.restored.mp (Option.isNone_iff_eq_none.mp none)).2 lease known same.symm

/-- Every lease read is restored or dropped, in order, and a drop says why. -/
theorem reconcile_partitions (leases : List LeaseInfo) (context : ReconcileContext) :
    Reconciliation context leases (reconcile leases context) := by
  have start : Decided context [] (({}, []) : ReconcileResult × List Ipv4Addr) :=
    ⟨rfl, rfl, by simp [acceptedOf], by simp⟩
  obtain ⟨judged, names, decided⟩ := foldl_decided start leases
  have ips : (reconcile leases context).restored.map LeaseInfo.ip = (acceptedOf judged).map LeaseInfo.ip := by
    show (leases.foldl (reconcileStep context) ({}, [])).1.restored.map _ = _
    rw [decided.restored, List.map_map]
    rfl
  have restorable : ∀ lease ∈ (reconcile leases context).restored, Restorable context lease := by
    intro lease member
    rw [show (reconcile leases context).restored = _ from decided.restored] at member
    obtain ⟨kept, known, rfl⟩ := List.mem_map.mp member
    obtain ⟨unexpired, placed⟩ := decided.restorable kept known
    exact ⟨unexpired, placed⟩
  have addresses : ((reconcile leases context).restored.map LeaseInfo.ip).Nodup :=
    ips ▸ justified_addresses decided.justified
  refine ⟨⟨judged, names, decided.restored, decided.dropped, decided.justified⟩, addresses, ?_, restorable⟩
  refine List.Nodup.map_on (fun one member other member' same => ?_) ((List.Nodup.of_map _ addresses).filter _)
  obtain ⟨known, reserved⟩ := List.mem_filter.mp member
  obtain ⟨known', reserved'⟩ := List.mem_filter.mp member'
  -- Both are on the one address that is reserved for their client.
  have home : ∀ lease : LeaseInfo, lease ∈ (reconcile leases context).restored →
      (context.statics[lease.mac]?).isSome = true → context.statics[lease.mac]? = some lease.ip := by
    intro lease inside own
    rcases (restorable lease inside).placed with mine | ⟨nothing, _⟩
    · exact mine
    · rw [nothing] at own
      cases own
  have one_ := home one known reserved
  have other_ := home other known' reserved'
  rw [same, other_] at one_
  exact List.inj_on_of_nodup_map addresses known known' (Option.some.inj one_).symm

end NexTerminal.Dhcp
