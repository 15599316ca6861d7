import Mathlib.Algebra.Module.NatInt
import Mathlib.Algebra.Order.BigOperators.Group.List
import NexTerminal.Dhcp.Records

namespace NexTerminal.Dhcp

open Std Library

namespace LeaseTable

def poolAddresses (table : LeaseTable) : List Ipv4Addr :=
  (List.range (poolSize table.rangeStart table.rangeEnd)).map fun i =>
    .ofNat (table.rangeStart.toNat + i)

def leasable (table : LeaseTable) : List Ipv4Addr := table.poolAddresses ++ table.statics.toList.map Prod.snd

variable {table : LeaseTable}

theorem mem_poolAddresses {addr : Ipv4Addr} (small : poolSize table.rangeStart table.rangeEnd ≤ maxDhcpPoolSize)
    (inside : table.inPool addr = true) : addr ∈ table.poolAddresses := by
  have bounds := isIpInPool_iff.mp inside
  have size : poolSize table.rangeStart table.rangeEnd =
      table.rangeEnd.toNat - table.rangeStart.toNat + 1 := by
    simp only [poolSize, maxDhcpPoolSize, UInt32.lt_iff_toNat_lt] at *
    split
    · omega
    · rename_i ordered
      rw [if_neg ordered] at small
      omega
  refine List.mem_map.mpr ⟨addr.toNat - table.rangeStart.toNat, ?_, ?_⟩
  · rw [List.mem_range, size]
    omega
  · have whole : table.rangeStart.toNat + (addr.toNat - table.rangeStart.toNat) = addr.toNat := by
      omega
    rw [whole, UInt32.ofNat_toNat]

theorem leasable_length (small : poolSize table.rangeStart table.rangeEnd ≤ maxDhcpPoolSize)
    (few : table.statics.size ≤ maxStaticReservations) : table.leasable.length ≤ maxPersistedLeases := by
  simp only [leasable, poolAddresses, List.length_append, List.length_map, List.length_range,
    TreeMap.length_toList, maxPersistedLeases]
  omega

theorem mem_leasable {addr : Ipv4Addr} (small : poolSize table.rangeStart table.rangeEnd ≤ maxDhcpPoolSize)
    (placed : table.inPool addr = true ∨ ∃ mac : MacKey, table.statics[mac]? = some addr) :
    addr ∈ table.leasable := by
  rcases placed with inside | ⟨mac, own⟩
  · exact List.mem_append_left _ (mem_poolAddresses small inside)
  · exact List.mem_append_right _ (List.mem_map.mpr
      ⟨(mac, addr), TreeMap.mem_toList_iff_getElem?_eq_some.mpr own, rfl⟩)

section Infos

variable {now : Nat} {kept : MacKey × LeaseEntry → Bool} (inv : table.Invariant now)
  (live : ∀ entry, kept entry = true → entry.2.isLive now = true)
include inv live

theorem Invariant.infos_distinct : (((table.entries.toList.filter kept).map fun entry =>
    table.infoFor entry.1 entry.2 now).map LeaseInfo.ip).Nodup := by
  rw [List.map_map]
  refine List.Nodup.map_on ?_ ((List.Nodup.of_map _ (TreeMap.nodup_keys_toList table.entries)).filter _)
  rintro ⟨mac, entry⟩ mem ⟨mac', entry'⟩ member' same
  rw [List.mem_filter] at mem member'
  have hit := TreeMap.mem_toList_iff_getElem?_eq_some.mp mem.1
  have found' := TreeMap.mem_toList_iff_getElem?_eq_some.mp member'.1
  have address : entry.address = entry'.address := same
  obtain rfl : mac = mac' := inv.sound.exclusive
    (claims_eq_some.mpr ⟨entry, hit, live _ mem.2, rfl⟩)
    (claims_eq_some.mpr ⟨entry', found', live _ member'.2, address.symm⟩)
  rw [hit, Option.some.injEq] at found'
  rw [found']

theorem Invariant.infos_few (small : poolSize table.rangeStart table.rangeEnd ≤ maxDhcpPoolSize)
    (few : table.statics.size ≤ maxStaticReservations) : ((table.entries.toList.filter kept).map fun entry =>
      table.infoFor entry.1 entry.2 now).length ≤ maxPersistedLeases := by
  have within : ((table.entries.toList.filter kept).map fun entry =>
      table.infoFor entry.1 entry.2 now).map LeaseInfo.ip ⊆ table.leasable := by
    intro addr mem
    simp only [List.map_map, List.mem_map, List.mem_filter] at mem
    obtain ⟨held, ⟨inTable, _⟩, rfl⟩ := mem
    exact mem_leasable small ((inv.placed held.1 held.2
      (TreeMap.mem_toList_iff_getElem?_eq_some.mp inTable)).imp_right fun own => ⟨held.1, own⟩)
  have count := ((inv.infos_distinct live).subperm within).length_le
  rw [List.length_map] at count
  exact Nat.le_trans count (leasable_length small few)

end Infos

theorem Invariant.persistable_distinct {now : Nat} (inv : table.Invariant now) :
    ((table.persistableLeases now).map LeaseInfo.ip).Nodup :=
  inv.infos_distinct fun _ kept => (Bool.and_eq_true_iff.mp kept).2

theorem Invariant.persistable_few {now : Nat} (inv : table.Invariant now)
    (small : poolSize table.rangeStart table.rangeEnd ≤ maxDhcpPoolSize)
    (few : table.statics.size ≤ maxStaticReservations) :
    (table.persistableLeases now).length ≤ maxPersistedLeases :=
  inv.infos_few (fun _ kept => (Bool.and_eq_true_iff.mp kept).2) small few

theorem quarantineSnapshot_few {store : LeaseStore} (recorded : Recorded store table) (loaded : LoadedStore store)
    (small : poolSize table.rangeStart table.rangeEnd ≤ maxDhcpPoolSize)
    (few : table.statics.size ≤ maxStaticReservations) (now : Nat) :
    (table.quarantineSnapshot now).length ≤ 2 * maxPersistedLeases := by
  have within : table.quarantine.toList.map Prod.fst ⊆
      store.quarantine.map Prod.fst ++ table.leasable := by
    intro addr mem
    obtain ⟨⟨held, due⟩, inTable, rfl⟩ := List.mem_map.mp mem
    rcases recorded.origin held due (TreeMap.mem_toList_iff_getElem?_eq_some.mp inTable) with
      loadedFrom | placed
    · exact List.mem_append_left _ loadedFrom
    · exact List.mem_append_right _ (mem_leasable small placed)
  have count := ((TreeMap.nodup_keys_toList table.quarantine).subperm within).length_le
  have kept : (table.quarantineSnapshot now).length ≤ table.quarantine.toList.length := List.length_filter_le _ _
  have bound := loaded.few
  have bound' := leasable_length small few
  simp only [List.length_append, List.length_map] at count
  omega

end LeaseTable

section Sizes

variable (printFloat : ℚ → Text) (level : Nat)

theorem byteLen_jsonNat {n : Nat} (digits : Nat) (positive : 0 < digits) (small : n < 10 ^ digits) :
    byteLen ((jsonNat n).toStringPretty printFloat level) ≤ digits := by
  rw [jsonNat, Json.toStringPretty]
  exact byteLen_toDigits positive small

theorem upper_plain {c : Char} (upper : isUpperHexdigit c = true) : Json.escapeChar c = [c] ∧ c.utf8Size = 1 := by
  have table : ∀ n : Fin 128, isUpperHexdigit (Char.ofNat n) = true →
      Json.escapeChar (Char.ofNat n) = [Char.ofNat n] ∧ (Char.ofNat n).utf8Size = 1 := by
    decide
  exact ascii_cases (fun c => isUpperHexdigit c = true → Json.escapeChar c = [c] ∧ c.utf8Size = 1)
    table (ascii_lt (ascii_of_upper upper)) upper

theorem octetToText_plain (octet : UInt8) :
    (∀ c ∈ octetToText octet, Json.escapeChar c = [c]) ∧ byteLen (octetToText octet) ≤ 3 := by
  have bound := octet.toNat_lt
  refine ⟨?_, byteLen_toDigits (by decide) (by omega)⟩
  intro c mem
  have digit : c.isDigit = true := Nat.isDigit_of_mem_toDigits (by decide) (by decide) mem
  exact (upper_plain (by simp [isUpperHexdigit, digit])).1

theorem byteLen_joined (sep : Char) (parts : List Text) (bound : Nat)
    (plain : Json.escapeChar sep = [sep]) (one : sep.utf8Size = 1)
    (parts_plain : ∀ part ∈ parts, (∀ c ∈ part, Json.escapeChar c = [c]) ∧ byteLen part ≤ bound) :
    byteLen ((Json.string (List.intercalate [sep] parts)).toStringPretty printFloat level) ≤
      parts.length * (bound + 1) + 2 := by
  have joined : ∀ c ∈ List.intercalate [sep] parts, Json.escapeChar c = [c] :=
    forall_mem_intercalate plain fun part within => (parts_plain part within).1
  have len := byteLen_intercalate sep parts
  have total : (parts.map byteLen).sum ≤ parts.length * bound := by
    have each := List.sum_le_card_nsmul (parts.map byteLen) bound (by
      intro size mem
      obtain ⟨part, within, rfl⟩ := List.mem_map.mp mem
      exact (parts_plain part within).2)
    rwa [List.length_map, smul_eq_mul] at each
  rw [Json.toStringPretty, Json.byteLen_printString_verbatim joined]
  rw [one] at len
  rw [Nat.mul_add]
  omega

theorem byteLen_toText (ip : Ipv4Addr) : byteLen ((Json.string ip.toText).toStringPretty printFloat level) ≤ 18 := by
  refine byteLen_joined printFloat level '.' (ip.octets.map octetToText) 3 (by decide) (by decide) ?_
  intro part mem
  obtain ⟨octet, _, rfl⟩ := List.mem_map.mp mem
  exact octetToText_plain octet

theorem byteLen_mac {mac : MacKey} (wire : WireKey mac) :
    byteLen ((Json.string mac.text).toStringPretty printFloat level) ≤ 50 := by
  obtain ⟨pairs, text, shape, _, short⟩ := wire
  have each : ∀ pair ∈ pairs, (∀ c ∈ pair, Json.escapeChar c = [c]) ∧ byteLen pair ≤ 2 := by
    intro pair mem
    obtain ⟨two, upper⟩ := shape pair mem
    rw [List.all_eq_true] at upper
    refine ⟨fun c inside => (upper_plain (upper c inside)).1, ?_⟩
    rw [byteLen_ascii fun c inside => (upper_plain (upper c inside)).2, two]
  have bound := byteLen_joined printFloat level '-' pairs 2 (by decide) (by decide) each
  simp only [maxHardwareLen] at short
  rw [text]
  omega

theorem byteLen_leaseType (kind : LeaseType) :
    byteLen ((Json.string kind.asStr.toList).toStringPretty printFloat level) ≤ 9 := by
  rw [Json.toStringPretty]
  cases kind with
  | dynamic | static | renewed | inform => decide

/-- An echoed text has no controls and a bounded length. -/
theorem Sanitized.spec {text : Text} (clean : Sanitized text) :
    (∀ c ∈ text, 0x20 ≤ c.toNat) ∧ byteLen text ≤ maxEchoedTextBytes := by
  obtain ⟨plain, _, short⟩ := sanitizeText_spec text
  rw [clean] at plain short
  refine ⟨?_, short⟩
  intro c mem
  have ordinary := plain c mem
  simp only [isControl, Bool.or_eq_false_iff, decide_eq_false_iff_not] at ordinary
  omega

theorem byteLen_hostname {hostname : Option Text} (clean : ∀ name, hostname = some name → Sanitized name) :
    byteLen ((hostnameToJson hostname).toStringPretty printFloat level) ≤ 512 := by
  cases hostname with
  | none =>
    rw [hostnameToJson, Json.toStringPretty]
    decide
  | some text =>
    obtain ⟨plain, short⟩ := (clean text rfl).spec
    have printed := Json.byteLen_printString plain
    simp only [maxEchoedTextBytes, maxDhcpFieldBytes] at short
    rw [hostnameToJson, Json.toStringPretty]
    omega

structure ShortLease (lease : LeaseInfo) : Prop where
  wire : WireKey lease.mac
  clean : ∀ name, lease.hostname = some name → Sanitized name
  boundAt : lease.boundAt < timeLimit
  expiresAt : lease.expiresAt < timeLimit
  leaseSec : lease.leaseSec < 2 ^ 32
  remainingSec : lease.remainingSec < timeLimit

theorem byteLen_leaseToJson {lease : LeaseInfo} (short : ShortLease lease) :
    byteLen ((leaseToJson lease).toStringPretty printFloat 2) ≤ 820 := by
  have bound := byteLen_jsonNat printFloat 3 20 (by decide)
    short.boundAt
  have expires := byteLen_jsonNat printFloat 3 20 (by decide)
    short.expiresAt
  have remaining := byteLen_jsonNat printFloat 3 20 (by decide)
    short.remainingSec
  have secs := byteLen_jsonNat printFloat 3 10 (by decide) (Nat.lt_trans short.leaseSec (by decide))
  have host := byteLen_hostname printFloat 3 short.clean
  have ip := byteLen_toText printFloat 3 lease.ip
  have kind := byteLen_leaseType printFloat 3 lease.leaseType
  have mac := byteLen_mac printFloat 3 short.wire
  have keys : byteLen (Json.printString "boundAt".toList) = 9 ∧
      byteLen (Json.printString "expiresAt".toList) = 11 ∧
      byteLen (Json.printString "hostname".toList) = 10 ∧ byteLen (Json.printString "ip".toList) = 4 ∧
      byteLen (Json.printString "leaseSec".toList) = 10 ∧
      byteLen (Json.printString "leaseType".toList) = 11 ∧
      byteLen (Json.printString "mac".toList) = 5 ∧
      byteLen (Json.printString "remainingSec".toList) = 14 := by decide
  refine Nat.le_trans (Json.byteLen_object_le (by simp)) ?_
  simp only [List.map_cons, List.map_nil, List.sum_cons, List.sum_nil, Nat.reduceAdd]
  omega

theorem byteLen_quarantineToJson {hold : Ipv4Addr × Nat} (short : hold.2 < timeLimit) :
    byteLen ((quarantineToJson hold).toStringPretty printFloat 2) ≤ 76 := by
  have due := byteLen_jsonNat printFloat 3 20 (by decide) short
  have ip := byteLen_toText printFloat 3 hold.1
  have keys : byteLen (Json.printString "ip".toList) = 4 ∧
      byteLen (Json.printString "until".toList) = 7 := by decide
  refine Nat.le_trans (Json.byteLen_object_le (by simp)) ?_
  simp only [List.map_cons, List.map_nil, List.sum_cons, List.sum_nil, Nat.reduceAdd]
  omega

theorem records_fit {leases holds : Nat} (few : leases ≤ maxPersistedLeases)
    (held : holds ≤ 2 * maxPersistedLeases) : 826 * leases + 82 * holds + 96 ≤ maxLeaseFileBytes := by
  have leases : maxPersistedLeases = 66560 := rfl
  have bytes : maxLeaseFileBytes = 68161536 := rfl
  omega

theorem byteLen_saveLeases {savedAt : Nat} {leases : List LeaseInfo} {quarantine : List (Ipv4Addr × Nat)}
    (saved : savedAt < timeLimit) (short : ∀ lease ∈ leases, ShortLease lease)
    (deadlines : ∀ hold ∈ quarantine, hold.2 < timeLimit) (few : leases.length ≤ maxPersistedLeases)
    (held : quarantine.length ≤ 2 * maxPersistedLeases) :
    byteLen (saveLeases printFloat savedAt leases quarantine) ≤ maxLeaseFileBytes := by
  have records := Json.byteLen_array_le printFloat 1 (leases.map leaseToJson) (by
      intro item mem
      obtain ⟨lease, inside, rfl⟩ := List.mem_map.mp mem
      exact byteLen_leaseToJson printFloat (short lease inside))
  have holds := Json.byteLen_array_le printFloat 1 (quarantine.map quarantineToJson) (by
      intro item mem
      obtain ⟨hold, inside, rfl⟩ := List.mem_map.mp mem
      exact byteLen_quarantineToJson printFloat (deadlines hold inside))
  have saved := byteLen_jsonNat printFloat 1 20 (by decide) saved
  have version := byteLen_jsonNat printFloat 1 1 (by decide) (show leaseStoreVersion < 10 ^ 1 by decide)
  have keys : byteLen (Json.printString "leases".toList) = 8 ∧
      byteLen (Json.printString "quarantine".toList) = 12 ∧
      byteLen (Json.printString "savedAt".toList) = 9 ∧
      byteLen (Json.printString "version".toList) = 9 := by decide
  refine Nat.le_trans (Json.byteLen_object_le (by simp)) (Nat.le_trans ?_ (records_fit few held))
  rw [List.length_map] at records holds
  simp only [List.map_cons, List.map_nil, List.sum_cons, List.sum_nil, Nat.reduceAdd]
  omega

end Sizes

namespace LeaseTable

theorem persistable_of_entry {table : LeaseTable} {now : Nat} {lease : LeaseInfo} :
    lease ∈ table.persistableLeases now ↔ ∃ entry, table.entries[lease.mac]? = some entry ∧
      entry.state = .bound ∧ entry.isLive now = true ∧ lease = table.infoFor lease.mac entry now := by
  simp only [persistableLeases, List.mem_map, List.mem_filter, Prod.exists, Bool.and_eq_true, beq_iff_eq,
    TreeMap.mem_toList_iff_getElem?_eq_some]
  constructor
  · rintro ⟨mac, entry, ⟨hit, bound, live⟩, rfl⟩
    exact ⟨entry, hit, bound, live, rfl⟩
  · rintro ⟨entry, hit, bound, live, shape⟩
    exact ⟨lease.mac, entry, ⟨hit, bound, live⟩, shape.symm⟩

end LeaseTable

theorem Recorded.shortLeases {store : LeaseStore} {table : LeaseTable} {now : Nat}
    (recorded : Recorded store table) : ∀ lease ∈ table.persistableLeases now, ShortLease lease := by
  intro lease mem
  obtain ⟨entry, hit, bound, _, shape⟩ := LeaseTable.persistable_of_entry.mp mem
  have known := recorded.entries lease.mac entry hit
  obtain ⟨since, bound⟩ := Option.isSome_iff_exists.mp (known.since bound)
  generalize lease.mac = mac at *
  subst shape
  refine ⟨known.wire, known.clean, ?_, known.expiresAt, known.leaseSecs, ?_⟩
  · simpa [LeaseTable.infoFor, bound] using known.boundAt since bound
  · have expiry := known.expiresAt
    simp only [LeaseTable.infoFor]
    omega

end NexTerminal.Dhcp
