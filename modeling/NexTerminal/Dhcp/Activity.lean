import NexTerminal.Dhcp.Tally
import NexTerminal.Dhcp.StoreSize

namespace NexTerminal.Dhcp

open Std Library

namespace LeaseTable

variable {table : LeaseTable}

theorem mem_activeLeases {now : Nat} {lease : LeaseInfo} :
    lease ∈ table.activeLeases now ↔ ∃ mac entry, table.entries[mac]? = some entry ∧
      entry.state ≠ .reserved ∧ entry.isLive now = true ∧ table.infoFor mac entry now = lease := by
  simp [activeLeases, and_assoc]

theorem Invariant.active_few {now : Nat} (inv : table.Invariant now)
    (small : poolSize table.rangeStart table.rangeEnd ≤ maxDhcpPoolSize)
    (few : table.statics.size ≤ maxStaticReservations) : (table.activeLeases now).length ≤ maxPersistedLeases :=
  inv.infos_few (fun _ kept => (Bool.and_eq_true_iff.mp kept).2) small few

end LeaseTable

inductive EntryOrigin (table : LeaseTable) (now : Nat) (mac : MacKey) : LeaseEntry → Prop
  | kept {entry} (found : table.entries[mac]? = some entry) : EntryOrigin table now mac entry
  | offered (address hostname) :
      EntryOrigin table now mac (table.offeredEntry table.entries[mac]? address hostname now)
  | bound (address hostname) : EntryOrigin table now mac (table.boundEntry table.entries[mac]? address hostname now)
  | reserved (address) : EntryOrigin table now mac (table.placeholder address now)

section Origin

variable {table : LeaseTable} {now : Nat} {mac : MacKey} {entry : LeaseEntry}

variable {other : MacKey}

theorem EntryOrigin.insert {fresh : LeaseEntry} (origin : EntryOrigin table now other fresh)
    (hit : (table.entries.insert other fresh)[mac]? = some entry) : EntryOrigin table now mac entry := by
  rw [TreeMap.getElem?_insert_eq] at hit
  split at hit
  · rename_i same
    cases hit
    exact same ▸ origin
  · exact .kept hit

theorem releaseAny_origin (hit : (table.releaseAny other now).1.entries[mac]? = some entry) :
    EntryOrigin table now mac entry := by
  rcases LeaseTable.releaseAny_entries hit with old | ⟨rfl, reserved, -, rfl⟩
  · exact .kept old
  · exact .reserved reserved

theorem release_origin {addr : Ipv4Addr} (hit : (table.release other addr now).1.entries[mac]? = some entry) :
    EntryOrigin table now mac entry := by
  unfold LeaseTable.release at hit
  split at hit
  · exact .kept hit
  · exact releaseAny_origin hit

theorem decline_origin {addr : Ipv4Addr} (hit : (table.decline other addr now).1.entries[mac]? = some entry) :
    EntryOrigin table now mac entry := by
  unfold LeaseTable.decline at hit
  split at hit
  · exact .kept hit
  · split at hit
    · exact .kept hit
    · simp only [TreeMap.getElem?_erase_eq] at hit
      split at hit
      · cases hit
      · exact .kept hit

theorem seed_origin (hit : (table.seedStaticReservations now).1.entries[mac]? = some entry) :
    EntryOrigin table now mac entry := by
  rw [LeaseTable.seedStaticReservations_entries] at hit
  cases own : table.statics[mac]? with
  | none => exact .kept (by simpa only [own] using hit)
  | some addr =>
    simp only [own, Option.or_eq_some_iff] at hit
    rcases hit with seeded | ⟨_, old⟩
    · rw [LeaseTable.seedEntry_address seeded]
      exact .reserved addr
    · exact .kept old

theorem swept_kept (hit : (table.swept now).entries[mac]? = some entry) : table.entries[mac]? = some entry := by
  rw [LeaseTable.swept_entries, Option.filter_eq_some_iff] at hit
  exact hit.1

theorem expire_origin (hit : (table.expire now).1.entries[mac]? = some entry) :
    EntryOrigin table now mac entry := by
  simp only [LeaseTable.expire] at hit
  split at hit
  · exact .kept (swept_kept hit)
  · rw [LeaseTable.seedStaticReservations_entries] at hit
    cases own : table.statics[mac]? with
    | none => exact .kept (swept_kept (by simpa only [LeaseTable.swept, own] using hit))
    | some address =>
      have seeds : (table.swept now).statics[mac]? = some address := own
      simp only [seeds, Option.or_eq_some_iff] at hit
      rcases hit with seeded | ⟨_, old⟩
      · rw [LeaseTable.seedEntry_address seeded]
        exact .reserved address
      · exact .kept (swept_kept old)

end Origin

variable {table : LeaseTable} {core : DhcpCore}

theorem Effect.entryOrigin {input : Input} {sent : List Reply} (effect : Effect core input table sent) {mac : MacKey}
    {entry : LeaseEntry} (hit : table.entries[mac]? = some entry) : EntryOrigin core.table input.now mac entry := by
  cases effect with
  | ignored => exact .kept hit
  | served _ served =>
    cases served with
    | silent => exact .kept hit
    | offered => exact (EntryOrigin.offered _ _).insert hit
    | refused => exact .kept hit
    | acknowledged => exact (EntryOrigin.bound _ _).insert hit
    | left => exact releaseAny_origin hit
    | released => exact release_origin hit
    | declined => exact decline_origin hit
    | informed => exact .kept hit
  | swept => exact expire_origin hit

/-- The latest time a table can hold: what the lease file may carry, or the longest
lease granted now. -/
def horizon (now : Nat) : Nat := max maxSafeIntegerMs (now + maxDhcpLeaseSeconds * 1000)

theorem horizon_mono {now later : Nat} (bound : now ≤ later) : horizon now ≤ horizon later := by
  simp only [horizon]
  omega

structure LeaseEntry.Timely (entry : LeaseEntry) (now : Nat) : Prop where
  boundAt : ∀ moment, entry.boundAtMs = some moment → moment ≤ horizon now
  expiresAt : entry.expiresAtMs ≤ horizon now

def LeaseTable.Timely (table : LeaseTable) (now : Nat) : Prop :=
  ∀ (mac : MacKey) (entry : LeaseEntry), table.entries[mac]? = some entry → entry.Timely now

theorem LeaseTable.Timely.mono {now later : Nat} (timely : table.Timely now) (bound : now ≤ later) :
    table.Timely later := by
  intro mac entry hit
  have pre := timely mac entry hit
  have further := horizon_mono bound
  exact ⟨fun moment kept => (pre.boundAt moment kept).trans further, pre.expiresAt.trans further⟩

theorem EntryOrigin.timely {now : Nat} {mac : MacKey} {entry : LeaseEntry} (origin : EntryOrigin table now mac entry)
    (terms : SmallTerms table) (timely : table.Timely now) : entry.Timely now := by
  have secs := terms.leaseSecs
  have offer := terms.offerSecs
  have later : ∀ seconds ≤ maxDhcpLeaseSeconds, now + seconds * 1000 ≤ horizon now := by
    simp only [horizon]
    omega
  have present : now ≤ horizon now := later 0 (by decide)
  have soon : now + table.offerSecs * 1000 ≤ horizon now := by
    rw [offer]
    exact later defaultOfferSecs (by decide)
  cases origin with
  | kept hit => exact timely mac entry hit
  | offered addr hostname =>
    cases prev : table.entries[mac]? with
    | none => exact ⟨by simp [LeaseTable.offeredEntry], soon⟩
    | some old =>
      have pre := timely mac old prev
      refine ⟨pre.boundAt, ?_⟩
      simp only [LeaseTable.offeredEntry]
      split
      · exact max_le pre.expiresAt soon
      · exact soon
  | bound addr hostname =>
    refine ⟨fun moment same => ?_, later table.leaseSecs secs⟩
    simp only [LeaseTable.boundEntry, Option.some.injEq] at same
    subst same
    split
    · cases prev : table.entries[mac]? with
      | none => exact present
      | some old =>
        cases since : old.boundAtMs with
        | none => simpa [since] using present
        | some first => simpa [since] using (timely mac old prev).boundAt first since
    · exact present
  | reserved addr => exact ⟨by simp [LeaseTable.placeholder], present⟩

/-- No step dates an entry past the horizon of its time. -/
theorem LeaseTable.Timely.step {opts : EngineOptions} {input : Input} (valid : opts.Validated)
    (sane : Sane opts core input.now) (pre : core.table.Timely input.now) :
    (core.step input).1.table.Timely input.now := by
  obtain ⟨effect, _⟩ := core.step_effect (core.fits_of_settings valid sane.settings) input
  exact fun mac entry hit =>
    (effect.entryOrigin hit).timely (sane.smallTerms valid) pre

theorem restorePersisted_timely (opts : EngineOptions) {store : LeaseStore}
    (loaded : LoadedStore store) (now later : Nat) :
    (DhcpCore.restorePersisted (LeaseTable.new opts.rangeStart opts.rangeEnd opts.leaseSecs
      opts.statics) opts store now).1.Timely later := by
  have safe : maxSafeIntegerMs ≤ horizon later := le_max_left _ _
  have empty : ∀ held : List (Ipv4Addr × Nat), ((LeaseTable.new opts.rangeStart opts.rangeEnd
      opts.leaseSecs opts.statics).restoreQuarantine held now).Timely later := by
    intro held mac entry hit
    simp [LeaseTable.restoreQuarantine, LeaseTable.new] at hit
  simp only [DhcpCore.restorePersisted]
  split
  · intro mac entry hit
    simp [LeaseTable.new] at hit
  · split
    · exact empty _
    · intro mac entry hit
      rcases LeaseTable.restore_entries hit with ⟨lease, mem, rfl, rfl⟩ | old
      · obtain ⟨original, inStore, -, rfl⟩ := reconcile_origin mem
        obtain ⟨boundAt, expiresAt, _⟩ := loaded.times original inStore
        refine ⟨fun moment same => ?_, expiresAt.trans safe⟩
        cases same
        exact boundAt.trans safe
      · exact empty _ mac entry old

theorem Runs.timely {opts : EngineOptions} {store : LeaseStore} {events : List (Event DhcpCore Input)} {time : Nat}
    (run : Runs opts store events core time) (valid : opts.Validated) (loaded : LoadedStore store) :
    core.table.Timely time := by
  obtain ⟨restoreMs, seedMs, _, run⟩ := run
  obtain ⟨inv, settings⟩ := DhcpCore.new_start store valid restoreMs seedMs
  have restored := restorePersisted_timely opts loaded restoreMs.toNat seedMs.toNat
  have start : (DhcpCore.new opts store restoreMs seedMs).1.table.Timely seedMs.toNat := by
    intro mac entry hit
    obtain ⟨leaseSecs, offerSecs, quarantineSecs, canonical⟩ := (Sane.mk inv settings).smallTerms valid
    exact (seed_origin hit).timely ⟨leaseSecs, offerSecs, quarantineSecs, canonical⟩ restored
  have both : Sane opts core time ∧ core.table.Timely time := by
    refine run.invariant (fun _ => True) (fun core time => Sane opts core time ∧ core.table.Timely time)
      ⟨⟨inv, settings⟩, start⟩ ?_ ?_ fun _ _ => trivial
    · exact fun _ _ _ bound both => ⟨both.1.mono bound, both.2.mono bound⟩
    · exact fun event _ both => ⟨both.1.step valid, both.2.step valid both.1⟩
  exact both.2

end NexTerminal.Dhcp
