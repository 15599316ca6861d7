import NexTerminal.Dhcp.Lease
import NexTerminal.Library.Holders

namespace NexTerminal.Dhcp

open Std Library

theorem LeaseEntry.isLive_mono {entry : LeaseEntry} {now later : Nat} (bound : now ≤ later)
    (live : entry.isLive later = true) : entry.isLive now = true := by
  simp only [LeaseEntry.isLive, Bool.or_eq_true, decide_eq_true_eq] at *
  exact live.imp_right (Nat.lt_of_le_of_lt bound)

namespace LeaseTable

def claims (table : LeaseTable) (now : Nat) : Claims MacKey Ipv4Addr := fun mac =>
  (table.entries[mac]?.filter fun entry => entry.isLive now).map LeaseEntry.address

def reservations (table : LeaseTable) : Claims MacKey Ipv4Addr := fun mac => table.statics[mac]?

variable {table : LeaseTable} {address : Ipv4Addr} {mac : MacKey} {now : Nat}

theorem claims_eq_some : table.claims now mac = some address ↔
      ∃ entry, table.entries[mac]? = some entry ∧ entry.isLive now = true ∧ entry.address = address := by
  simp [claims, and_assoc]

theorem claims_mono {later : Nat} (bound : now ≤ later) (held : table.claims later mac = some address) :
    table.claims now mac = some address := by
  obtain ⟨entry, hit, live, same⟩ := claims_eq_some.mp held
  exact claims_eq_some.mpr ⟨entry, hit, LeaseEntry.isLive_mono bound live, same⟩

structure Assignable (table : LeaseTable) (mac : MacKey) (address : Ipv4Addr) (now : Nat) : Prop where
  placed : table.inPool address = true ∨ table.statics[mac]? = some address
  unreserved : ∀ other, table.statics[other]? = some address → other = mac
  usable : table.isQuarantined address now = false
  free : ∀ other, table.claims now other = some address → other = mac

theorem isTakenByOther_eq_false : table.isTakenByOther address mac now = false ↔
      table.isQuarantined address now = false ∧
      (∀ other, table.statics[other]? = some address → other = mac) ∧
      ∀ other, table.claims now other = some address → other = mac := by
  simp only [isTakenByOther, Bool.or_eq_false_iff, TreeMap.any_toList_eq_false, and_assoc]
  refine and_congr_right fun _ => and_congr ?_ ?_
  · constructor
    · intro unreserved other hit
      simpa using unreserved other address hit
    · intro unreserved other reserved hit
      by_cases same : reserved = address
      · subst same
        simp [unreserved other hit]
      · simp [same]
  · constructor
    · intro unheld other held
      obtain ⟨entry, hit, live, same⟩ := claims_eq_some.mp held
      by_contra differ
      simpa [differ, same, live] using unheld other entry hit
    · intro free other entry hit
      by_cases held : entry.address = address ∧ entry.isLive now = true
      · simp [free other (claims_eq_some.mpr ⟨entry, hit, held.2, held.1⟩)]
      · simp only [not_and] at held
        by_cases same : entry.address = address
        · simp [held same]
        · simp [same]

theorem isTakenByOther_eq_true : table.isTakenByOther address mac now = true ↔
      table.isQuarantined address now = true ∨
      (∃ other, other ≠ mac ∧ table.statics[other]? = some address) ∨
      ∃ other, other ≠ mac ∧ table.claims now other = some address := by
  rw [← Bool.not_eq_false, isTakenByOther_eq_false]
  simp only [Classical.not_and_iff_not_or_not]
  simp [and_comm]

theorem isQuarantined_iff : table.isQuarantined address now = true ↔
      ∃ deadline, table.quarantine[address]? = some deadline ∧ now < deadline := by
  unfold isQuarantined
  cases table.quarantine[address]? with
  | none | some deadline => simp

theorem mem_takenAddresses :
    address.toNat ∈ table.takenAddresses mac now ↔ table.isTakenByOther address mac now = true := by
  rw [isTakenByOther_eq_true, isQuarantined_iff]
  simp only [takenAddresses, TreeSet.mem_insertMany_list, TreeSet.mem_ofList, List.contains_iff_mem,
    List.mem_map, List.mem_filter, Prod.exists, TreeMap.mem_toList_iff_getElem?_eq_some,
    UInt32.toNat_inj, claims_eq_some, Bool.and_eq_true, bne_iff_ne, decide_eq_true_eq]
  constructor
  · rintro ((⟨other, entry, ⟨hit, differ, live⟩, same⟩ | ⟨other, reserved, ⟨hit, differ⟩, rfl⟩)
      | ⟨held, due, ⟨hit, later⟩, rfl⟩)
    · exact .inr (.inr ⟨other, differ, entry, hit, live, same⟩)
    · exact .inr (.inl ⟨other, differ, hit⟩)
    · exact .inl ⟨due, hit, later⟩
  · rintro (⟨due, hit, later⟩ | ⟨other, differ, hit⟩ | ⟨other, differ, entry, hit, live, same⟩)
    · exact .inr ⟨address, due, ⟨hit, later⟩, rfl⟩
    · exact .inl (.inr ⟨other, address, ⟨hit, differ⟩, rfl⟩)
    · exact .inl (.inl ⟨other, entry, ⟨hit, differ, live⟩, same⟩)

/-- The walk ends on a number nobody claims. -/
theorem firstGap_spec {used : List Nat} (ordered : used.Pairwise (· < ·)) {cand gap : Nat}
    (run : firstGap cand used = some gap) : cand ≤ gap ∧ gap ∉ used := by
  induction used generalizing cand with
  | nil => cases run; simp
  | cons head rest ih =>
    rw [List.pairwise_cons] at ordered
    unfold firstGap at run
    split at run
    · obtain ⟨bound, absent⟩ := ih ordered.2 run
      refine ⟨bound, ?_⟩
      simp only [List.mem_cons, not_or]
      exact ⟨by omega, absent⟩
    · split at run
      · split at run
        · obtain ⟨bound, absent⟩ := ih ordered.2 run
          refine ⟨by omega, ?_⟩
          simp only [List.mem_cons, not_or]
          exact ⟨by omega, absent⟩
        · cases run
      · cases run
        refine ⟨Nat.le_refl _, ?_⟩
        simp only [List.mem_cons, not_or]
        refine ⟨by omega, fun mem => ?_⟩
        have above := ordered.1 _ mem
        omega

theorem lowestFreeAddress_spec (hit : table.lowestFreeAddress mac now = some address) :
    table.inPool address = true ∧ table.isTakenByOther address mac now = false := by
  simp only [lowestFreeAddress] at hit
  split at hit
  · cases hit
  · split at hit
    · cases hit
    · rename_i gap run
      split at hit
      · cases hit
      · cases hit
        have ordered : (table.takenAddresses mac now).toList.Pairwise (· < ·) :=
          TreeSet.ordered_toList.imp fun pre => Nat.compare_eq_lt.mp pre
        obtain ⟨bound, absent⟩ := firstGap_spec ordered run
        have small : gap < 2 ^ 32 := by have := table.rangeEnd.toNat_lt; omega
        have value : (UInt32.ofNat gap).toNat = gap := UInt32.toNat_ofNat_of_lt' small
        refine ⟨?_, ?_⟩
        · rw [inPool, isIpInPool_iff, value]
          omega
        · rw [← Bool.not_eq_true, ← mem_takenAddresses, value, ← TreeSet.mem_toList]
          exact absent

theorem usableReservation_eq_some : table.usableReservation mac now = some address ↔
      table.statics[mac]? = some address ∧ table.isQuarantined address now = false := by
  simp [usableReservation]

theorem existingAddress_spec (hit : table.existingAddress mac now = some address) :
    table.isQuarantined address now = false ∧
      (table.statics[mac]? = some address ∨ table.claims now mac = some address) := by
  unfold existingAddress at hit
  split at hit
  · rename_i reserved usable
    cases hit
    have own := usableReservation_eq_some.mp usable
    exact ⟨own.2, .inl own.1⟩
  · simp only [Option.map_eq_some_iff, Option.filter_eq_some_iff, Bool.not_eq_eq_eq_not] at hit
    obtain ⟨entry, ⟨⟨atMac, live⟩, usable⟩, rfl⟩ := hit
    exact ⟨usable, .inr (claims_eq_some.mpr ⟨entry, atMac, live, rfl⟩)⟩

/-- What the table has recorded as this client's: its reservation, or a live
entry that is more than an offer. -/
def RecordedGrant (table : LeaseTable) (mac : MacKey) (address : Ipv4Addr) (now : Nat) : Prop :=
  table.statics[mac]? = some address ∨
    ∃ entry, table.entries[mac]? = some entry ∧ entry.isLive now = true ∧ entry.state ≠ .offered ∧
      entry.address = address

theorem grantedAddress_spec (hit : table.grantedAddress mac now = some address) :
    table.RecordedGrant mac address now := by
  unfold grantedAddress at hit
  split at hit
  · rename_i reserved usable
    cases hit
    exact .inl (usableReservation_eq_some.mp usable).1
  · simp only [Option.map_eq_some_iff, Option.filter_eq_some_iff, Bool.and_eq_true] at hit
    obtain ⟨entry, ⟨⟨atMac, live, granted⟩, _⟩, rfl⟩ := hit
    refine .inr ⟨entry, atMac, live, ?_, rfl⟩
    rintro offered
    simp [offered] at granted

theorem existingAddress_of_granted (hit : table.grantedAddress mac now = some address) :
    table.existingAddress mac now = some address := by
  unfold grantedAddress at hit
  unfold existingAddress
  split
  · rename_i reserved usable
    rw [usable] at hit
    exact hit
  · rename_i unusable
    rw [unusable] at hit
    simp only [Option.map_eq_some_iff, Option.filter_eq_some_iff, Bool.and_eq_true] at hit ⊢
    obtain ⟨entry, ⟨⟨atMac, live, _⟩, usable⟩, same⟩ := hit
    exact ⟨entry, ⟨⟨atMac, live⟩, usable⟩, same⟩

theorem selectAddress_of_granted (requested : Option Ipv4Addr) (hit : table.grantedAddress mac now = some address) :
    table.selectAddress mac requested now = some address := by
  simp [selectAddress, existingAddress_of_granted hit]

end LeaseTable

end NexTerminal.Dhcp
