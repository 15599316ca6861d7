import NexTerminal.Dhcp.Codec
import NexTerminal.Dhcp.Legality

namespace NexTerminal.Dhcp

open Std Library

/-- Above every time a server can compute; its decimal digits fit in twenty. -/
def timeLimit : Nat := 10 ^ 20

structure RecordedEntry (mac : MacKey) (entry : LeaseEntry) : Prop where
  wire : WireKey mac
  clean : ∀ name, entry.hostname = some name → Sanitized name
  since : entry.state = .bound → entry.boundAtMs.isSome = true
  boundAt : ∀ moment, entry.boundAtMs = some moment → moment < timeLimit
  expiresAt : entry.expiresAtMs < timeLimit
  leaseSecs : entry.leaseSecs < 2 ^ 32

/-- Entries that can be written, and quarantines whose addresses were loaded or
could have been leased. -/
structure Recorded (store : LeaseStore) (table : LeaseTable) : Prop where
  entries : ∀ (mac : MacKey) (entry : LeaseEntry), table.entries[mac]? = some entry → RecordedEntry mac entry
  deadlines : ∀ (address : Ipv4Addr) (deadline : Nat), table.quarantine[address]? = some deadline →
    deadline < timeLimit
  origin : ∀ (address : Ipv4Addr) (deadline : Nat), table.quarantine[address]? = some deadline →
    address ∈ store.quarantine.map Prod.fst ∨ table.inPool address = true ∨
      ∃ mac : MacKey, table.statics[mac]? = some address

/-- What `loadStore` guarantees of whatever the file held. -/
structure LoadedStore (store : LeaseStore) : Prop where
  wire : ∀ lease ∈ store.leases, WireKey lease.mac
  clean : ∀ lease ∈ store.leases, ∀ name, lease.hostname = some name → Sanitized name
  times : ∀ lease ∈ store.leases,
    lease.boundAt ≤ maxSafeIntegerMs ∧ lease.expiresAt ≤ maxSafeIntegerMs ∧ lease.leaseSec < 2 ^ 32
  deadlines : ∀ hold ∈ store.quarantine, hold.2 ≤ maxSafeIntegerMs
  few : store.quarantine.length ≤ maxPersistedLeases

theorem finiteMs_le {value : Json} {millis : Nat} (read : finiteMs value = some millis) :
    millis ≤ maxSafeIntegerMs := by
  simp only [finiteMs, Option.bind_eq_bind, Option.bind_eq_some_iff] at read
  obtain ⟨num, _, read⟩ := read
  split at read
  · cases read
  · split at read
    · rename_i safe
      cases read
      exact safe
    · cases read

theorem leaseSecFromJson_lt {value : Json} {seconds : Nat} (read : leaseSecFromJson value = some seconds) :
    seconds < 2 ^ 32 := by
  simp only [leaseSecFromJson, Option.bind_eq_bind, Option.bind_eq_some_iff] at read
  obtain ⟨num, _, read⟩ := read
  split at read
  · cases read
  · cases read
    omega

variable {hostname : Option Text}

theorem hostnameFromJson_clean {field : Option Json}
    (read : hostnameFromJson field = some hostname) {name : Text} (named : hostname = some name) :
    Sanitized name := by
  subst named
  unfold hostnameFromJson at read
  split at read
  · cases read
  · cases read
  · cases read
    exact sanitizeText_sanitized _
  · cases read

theorem leaseFromJson_spec {value : Json} {lease : LeaseInfo} (read : leaseFromJson value = some lease) :
    WireKey lease.mac ∧ (∀ name, lease.hostname = some name → Sanitized name) ∧
      lease.boundAt ≤ maxSafeIntegerMs ∧ lease.expiresAt ≤ maxSafeIntegerMs ∧
      lease.leaseSec < 2 ^ 32 := by
  simp only [leaseFromJson, Option.bind_eq_bind, Option.bind_eq_some_iff] at read
  obtain ⟨_, _, rawMac, _, mac, atMac, _, _, _, _, ip, _, _, _, boundAt, atBound, _, _, leaseSec, atSecs,
    _, _, expiresAt, atExpiry, hostname, atName, _, _, _, _, kind, _, built⟩ := read
  cases built
  refine ⟨?_, fun name named => hostnameFromJson_clean atName named, finiteMs_le atBound,
    finiteMs_le atExpiry, leaseSecFromJson_lt atSecs⟩
  rcases Option.or_eq_some_iff.mp atMac with parsed | ⟨_, wire⟩
  · exact wireKey_of_parse parsed
  · exact wireKey_of_fromWireKey wire

theorem loadStore_loaded (fromStr : Text → Option Json) (file : Option Text) :
    LoadedStore (loadStore fromStr file) := by
  have nothing : LoadedStore {} := ⟨by simp, by simp, by simp, by simp, by simp⟩
  unfold loadStore
  cases file with
  | none => exact nothing
  | some raw =>
    dsimp only
    split
    · exact nothing
    · split
      · exact nothing
      · split
        · exact nothing
        · split
          · exact nothing
          · rename_i entries _
            have records : ∀ lease ∈ (entries.filterMap leaseFromJson).take maxPersistedLeases,
                ∃ value, leaseFromJson value = some lease := by
              intro lease mem
              obtain ⟨value, _, read⟩ := List.mem_filterMap.mp (List.mem_of_mem_take mem)
              exact ⟨value, read⟩
            refine ⟨?_, ?_, ?_, ?_, ?_⟩
            · intro lease mem
              obtain ⟨value, read⟩ := records lease mem
              exact (leaseFromJson_spec read).1
            · intro lease mem
              obtain ⟨value, read⟩ := records lease mem
              exact (leaseFromJson_spec read).2.1
            · intro lease mem
              obtain ⟨value, read⟩ := records lease mem
              exact (leaseFromJson_spec read).2.2
            · intro hold mem
              split at mem
              · cases mem
              · obtain ⟨value, _, read⟩ := List.mem_filterMap.mp (List.mem_of_mem_take mem)
                simp only [quarantineFromJson, Option.bind_eq_bind, Option.bind_eq_some_iff] at read
                obtain ⟨_, _, _, _, _, _, _, _, due, atDeadline, built⟩ := read
                cases built
                exact finiteMs_le atDeadline
            · split
              · simp
              · rw [List.length_take]
                omega

variable {store : LeaseStore} {table : LeaseTable}

theorem Recorded.gain {next : LeaseTable} (pre : Recorded store table) (cfg : next.config = table.config)
    (entries : ∀ (mac : MacKey) (entry : LeaseEntry), next.entries[mac]? = some entry →
      table.entries[mac]? = some entry ∨ RecordedEntry mac entry)
    (quarantine : ∀ (addr : Ipv4Addr) (due : Nat), next.quarantine[addr]? = some due →
      table.quarantine[addr]? = some due ∨
        (due < timeLimit ∧ (table.inPool addr = true ∨
          ∃ mac : MacKey, table.statics[mac]? = some addr))) : Recorded store next := by
  obtain ⟨statics, pool⟩ := LeaseTable.config_inPool cfg
  refine ⟨?_, ?_, ?_⟩
  · intro mac entry hit
    rcases entries mac entry hit with old | fresh
    · exact pre.entries mac entry old
    · exact fresh
  · intro addr due hit
    rcases quarantine addr due hit with old | fresh
    · exact pre.deadlines addr due old
    · exact fresh.1
  · intro addr due hit
    rw [statics, pool]
    rcases quarantine addr due hit with old | fresh
    · exact pre.origin addr due old
    · exact .inr fresh.2

structure SmallTerms (table : LeaseTable) : Prop where
  leaseSecs : table.leaseSecs ≤ maxDhcpLeaseSeconds
  offerSecs : table.offerSecs = defaultOfferSecs
  quarantineSecs : table.quarantineSecs = defaultDeclineQuarantineSecs
  canonical : CanonicalReservations table.statics

variable {opts : EngineOptions} {now : Nat}

theorem Sane.smallTerms {core : DhcpCore} (sane : Sane opts core now) (valid : opts.Validated) :
    SmallTerms core.table := by
  have cfg : core.table.config = opts.settings.table := congrArg Settings.table sane.settings
  have leaseSecs : core.table.leaseSecs = opts.leaseSecs := congrArg LeaseTable.leaseSecs cfg
  have statics : core.table.statics = opts.statics := congrArg LeaseTable.statics cfg
  exact ⟨leaseSecs ▸ valid.leaseBound, congrArg LeaseTable.offerSecs cfg,
    congrArg LeaseTable.quarantineSecs cfg, statics ▸ valid.canonical⟩

theorem Input.now_lt (input : Input) : input.now < 2 ^ 64 := UInt64.toNat_lt _

theorem Input.request_wireKey {input : Input} {message : Message} {kind : MessageType}
    (req : input.request = some (message, kind)) : WireKey message.hardwareKey := by
  cases input with
  | tick env => cases req
  | message env buf peer =>
    simp only [Input.request] at req
    split at req
    · cases req
    · rename_i decoded run
      split at req
      · cases req
      · simp only [Option.map_eq_some_iff] at req
        obtain ⟨_, _, rfl, _⟩ := req
        obtain ⟨ne, short⟩ := Message.decode_chaddr run
        exact wireKey_of_fromHardware ne short

theorem Message.text_clean {msg : Message} {code : UInt8} {name : Text}
    (hit : msg.options.text code = some name) : Sanitized name := by
  simp only [Options.text, Option.map_eq_some_iff] at hit
  obtain ⟨raw, _, rfl⟩ := hit
  exact sanitizeText_sanitized raw

theorem RecordedEntry.offered {table : LeaseTable} {store : LeaseStore} (pre : Recorded store table)
    (terms : SmallTerms table) {mac : MacKey} (wire : WireKey mac) (addr : Ipv4Addr)
    (clean : ∀ name, hostname = some name → Sanitized name) {now : Nat} (early : now < 2 ^ 64) :
    RecordedEntry mac (table.offeredEntry table.entries[mac]? addr hostname now) := by
  have soon : now + table.offerSecs * 1000 < timeLimit := by
    rw [terms.offerSecs]
    simp only [defaultOfferSecs, timeLimit]
    omega
  have secs : table.leaseSecs < 2 ^ 32 := by
    have bound := terms.leaseSecs
    simp only [maxDhcpLeaseSeconds] at bound
    omega
  cases hit : table.entries[mac]? with
  | none => exact ⟨wire, by simpa [LeaseTable.offeredEntry] using clean, by
      simp [LeaseTable.offeredEntry, LeaseTable.holdsBound], by simp [LeaseTable.offeredEntry], soon, secs⟩
  | some prev =>
    have old := pre.entries mac prev hit
    refine ⟨wire, ?_, ?_, ?_, ?_, secs⟩
    · intro name named
      rcases Option.or_eq_some_iff.mp named with fresh | ⟨_, kept⟩
      · exact clean name fresh
      · exact old.clean name kept
    · intro bound
      simp only [LeaseTable.offeredEntry] at bound
      by_cases held : LeaseTable.holdsBound (some prev) addr = true
      · simp only [LeaseTable.holdsBound, Option.any_some, Bool.and_eq_true, beq_iff_eq] at held
        exact old.since held.1
      · rw [if_neg held] at bound
        cases bound
    · intro moment kept
      exact old.boundAt moment kept
    · simp only [LeaseTable.offeredEntry]
      have expiry := old.expiresAt
      split
      · omega
      · exact soon

theorem RecordedEntry.bound (pre : Recorded store table) (terms : SmallTerms table) {mac : MacKey}
    (wire : WireKey mac) (addr : Ipv4Addr)
    (clean : ∀ name, hostname = some name → Sanitized name) (early : now < 2 ^ 64) :
    RecordedEntry mac (table.boundEntry table.entries[mac]? addr hostname now) := by
  have secs := terms.leaseSecs
  simp only [maxDhcpLeaseSeconds] at secs
  have moment : now < timeLimit := by simp only [timeLimit]; omega
  have expiry : now + table.leaseSecs * 1000 < timeLimit := by simp only [timeLimit]; omega
  refine ⟨wire, ?_, fun _ => rfl, ?_, expiry, by simp only [LeaseTable.boundEntry]; omega⟩
  · intro name named
    rcases Option.or_eq_some_iff.mp named with fresh | ⟨_, kept⟩
    · exact clean name fresh
    · obtain ⟨prev, hit, kept⟩ := Option.bind_eq_some_iff.mp kept
      exact (pre.entries mac prev hit).clean name kept
  · intro at_ same
    simp only [LeaseTable.boundEntry, Option.some.injEq] at same
    subst same
    split
    · cases hit : table.entries[mac]? with
      | none => exact moment
      | some prev =>
        cases since : prev.boundAtMs with
        | none => simpa [since] using moment
        | some first => simpa [since] using (pre.entries mac prev hit).boundAt first since
    · exact moment

theorem RecordedEntry.placeholder (terms : SmallTerms table) {mac : MacKey} {addr : Ipv4Addr}
    (own : table.statics[mac]? = some addr) (early : now < 2 ^ 64) :
    RecordedEntry mac (table.placeholder addr now) := by
  obtain ⟨raw, parsed⟩ := terms.canonical mac addr own
  have secs := terms.leaseSecs
  simp only [maxDhcpLeaseSeconds] at secs
  refine ⟨wireKey_of_parse parsed, by simp [LeaseTable.placeholder], by simp [LeaseTable.placeholder],
    by simp [LeaseTable.placeholder], ?_, ?_⟩
  · simp only [LeaseTable.placeholder, timeLimit]
    omega
  · simp only [LeaseTable.placeholder]
    omega

section Transitions

variable {store : LeaseStore} {table : LeaseTable} {now : Nat}

section

variable (pre : Recorded store table)
include pre

theorem Recorded.insert {mac : MacKey} {entry : LeaseEntry} (recorded : RecordedEntry mac entry) :
    Recorded store { table with entries := table.entries.insert mac entry } := by
  refine pre.gain rfl ?_ fun _ _ held => .inl held
  intro other hit atOther
  rw [TreeMap.getElem?_insert_eq] at atOther
  split at atOther
  · rename_i same
    cases atOther
    exact .inr (same ▸ recorded)
  · exact .inl atOther

section

variable (terms : SmallTerms table)
include terms

theorem Recorded.releaseAny (mac : MacKey) (early : now < 2 ^ 64) : Recorded store (table.releaseAny mac now).1 := by
  obtain ⟨entries, same⟩ := table.releaseAny_settings mac now
  refine pre.gain (table.releaseAny_config mac now) ?_ fun _ _ held => .inl (by simpa [same] using held)
  intro other entry hit
  rcases LeaseTable.releaseAny_entries hit with old | ⟨rfl, reserved, own, rfl⟩
  · exact .inl old
  · exact .inr (.placeholder terms own early)

theorem Recorded.release (mac : MacKey) (addr : Ipv4Addr) (early : now < 2 ^ 64) :
    Recorded store (table.release mac addr now).1 := by
  unfold LeaseTable.release
  split
  · exact pre
  · exact pre.releaseAny terms mac early

theorem Recorded.decline (inv : table.Invariant now) (mac : MacKey) (declined : Ipv4Addr) (early : now < 2 ^ 64) :
    Recorded store (table.decline mac declined now).1 := by
  unfold LeaseTable.decline
  split
  · exact pre
  · rename_i entry hit
    split
    · exact pre
    · refine pre.gain rfl ?_ ?_
      · intro other entry' atOther
        simp only [TreeMap.getElem?_erase_eq] at atOther
        split at atOther
        · cases atOther
        · exact .inl atOther
      · intro addr due held
        simp only [TreeMap.getElem?_insert_eq] at held
        split at held
        · rename_i same
          cases held
          refine .inr ⟨?_, ?_⟩
          · rw [terms.quarantineSecs]
            simp only [defaultDeclineQuarantineSecs, timeLimit]
            omega
          · exact same ▸ (inv.placed mac entry hit).imp_right fun own => ⟨mac, own⟩
        · exact .inl held

theorem Recorded.seedStaticReservations (early : now < 2 ^ 64) :
    Recorded store (table.seedStaticReservations now).1 := by
  refine pre.gain rfl ?_ fun _ _ held => .inl held
  intro mac entry hit
  rw [LeaseTable.seedStaticReservations_entries] at hit
  cases own : table.statics[mac]? with
  | none =>
    simp only [own] at hit
    exact .inl hit
  | some addr =>
    simp only [own, Option.or_eq_some_iff] at hit
    rcases hit with seeded | ⟨_, old⟩
    · rw [LeaseTable.seedEntry_address seeded]
      exact .inr (.placeholder terms own early)
    · exact .inl old

theorem Recorded.expire (early : now < 2 ^ 64) : Recorded store (table.expire now).1 := by
  have swept : Recorded store (table.swept now) := by
    refine pre.gain rfl ?_ ?_
    · intro mac entry hit
      rw [LeaseTable.swept_entries, Option.filter_eq_some_iff] at hit
      exact .inl hit.1
    · intro addr due held
      rw [LeaseTable.swept_quarantine, Option.filter_eq_some_iff] at held
      exact .inl held.1
  simp only [LeaseTable.expire]
  split
  · exact swept
  · exact swept.seedStaticReservations
      { terms with } early

end

end

theorem Recorded.step {opts : EngineOptions} {core : DhcpCore} {input : Input}
    (valid : opts.Validated) (sane : Sane opts core input.now)
    (pre : Recorded store core.table) : Recorded store (core.step input).1.table := by
  have terms := sane.smallTerms valid
  have early := input.now_lt
  obtain ⟨effect, _⟩ := core.step_effect (core.fits_of_settings valid sane.settings) input
  generalize (core.step input).1.table = next at effect ⊢
  generalize replies (core.step input).2 = sent at effect
  cases effect with
  | ignored => exact pre
  | served req served =>
    have wire := Input.request_wireKey req
    cases served with
    | silent => exact pre
    | offered => exact pre.insert (.offered pre terms wire _ (fun _ => Message.text_clean) early)
    | refused => exact pre
    | acknowledged =>
      exact pre.insert (.bound pre terms wire _ (fun _ => Message.text_clean) early)
    | left => exact pre.releaseAny terms _ early
    | released => exact pre.release terms _ _ early
    | declined => exact pre.decline terms sane.invariant _ _ early
    | informed => exact pre
  | swept => exact pre.expire terms early

end Transitions

theorem reconcile_origin {leases : List LeaseInfo} {context : ReconcileContext} {lease : LeaseInfo}
    (restored : lease ∈ (reconcile leases context).restored) :
    ∃ original ∈ leases, ∃ kind, lease = { original with leaseType := kind } := by
  have run : ∀ (rest : List LeaseInfo) (state : ReconcileResult × List Ipv4Addr),
      lease ∈ (rest.foldl (reconcileStep context) state).1.restored →
      lease ∈ state.1.restored ∨ ∃ original ∈ rest, ∃ kind, lease = { original with leaseType := kind } := by
    intro rest
    induction rest with
    | nil => exact fun _ mem => .inl mem
    | cons original rest ih =>
      intro state mem
      rcases ih _ mem with pre | ⟨later, inRest, kind, same⟩
      · have kept : ∀ kind, lease ∈ state.1.restored ++ [{ original with leaseType := kind }] →
            lease ∈ state.1.restored ∨ ∃ o ∈ original :: rest, ∃ kind,
              lease = { o with leaseType := kind } := by
          intro kind mem
          rcases List.mem_append.mp mem with old | new
          · exact .inl old
          · exact .inr ⟨original, List.mem_cons_self, kind, List.mem_singleton.mp new⟩
        simp only [reconcileStep] at pre
        split at pre
        · exact .inl pre
        · split at pre
          · split at pre
            · split at pre
              · exact kept _ pre
              · exact .inl pre
            · exact .inl pre
          · split at pre
            · exact .inl pre
            · split at pre
              · exact .inl pre
              · split at pre
                · exact .inl pre
                · exact kept _ pre
      · exact .inr ⟨later, List.mem_cons_of_mem _ inRest, kind, same⟩
  exact (run leases _ restored).resolve_left (by simp)

theorem restoreQuarantine_held {held : List (Ipv4Addr × Nat)} {addr : Ipv4Addr} {deadline : Nat}
    (hit : (table.restoreQuarantine held now).quarantine[addr]? = some deadline) :
    (addr, deadline) ∈ held ∨ table.quarantine[addr]? = some deadline := by
  have run : ∀ (rest : List (Ipv4Addr × Nat)) (quarantine : TreeMap Ipv4Addr Nat compare),
      (rest.foldl (fun quarantine hold =>
        if hold.2 > now then quarantine.insert hold.1 hold.2 else quarantine) quarantine)[addr]?
          = some deadline → (addr, deadline) ∈ rest ∨ quarantine[addr]? = some deadline := by
    intro rest
    induction rest with
    | nil => exact fun _ hit => .inr hit
    | cons hold rest ih =>
      intro quarantine hit
      rcases ih _ hit with later | earlier
      · exact .inl (List.mem_cons_of_mem _ later)
      · dsimp only at earlier
        split at earlier
        · rw [TreeMap.getElem?_insert_eq] at earlier
          split at earlier
          · rename_i same
            cases earlier
            exact .inl (same ▸ List.mem_cons_self)
          · exact .inr earlier
        · exact .inr earlier
  exact run held table.quarantine hit

theorem Recorded.restorePersisted (loaded : LoadedStore store) (now : Nat) :
    Recorded store (DhcpCore.restorePersisted (LeaseTable.new opts.rangeStart opts.rangeEnd
      opts.leaseSecs opts.statics) opts store now).1 := by
  have safe : maxSafeIntegerMs < timeLimit := by decide
  have empty : Recorded store (LeaseTable.new opts.rangeStart opts.rangeEnd opts.leaseSecs
      opts.statics) := ⟨by simp [LeaseTable.new], by simp [LeaseTable.new], by simp [LeaseTable.new]⟩
  have contested : Recorded store ((LeaseTable.new opts.rangeStart opts.rangeEnd opts.leaseSecs
      opts.statics).restoreQuarantine store.quarantine now) := by
    refine ⟨fun mac entry hit => empty.entries mac entry hit, ?_, ?_⟩
    · intro addr due hit
      rcases restoreQuarantine_held hit with mem | old
      · exact Nat.lt_of_le_of_lt (loaded.deadlines _ mem) safe
      · exact empty.deadlines addr due old
    · intro addr due hit
      rcases restoreQuarantine_held hit with mem | old
      · exact .inl (List.mem_map_of_mem mem)
      · exact empty.origin addr due old
  simp only [DhcpCore.restorePersisted]
  split
  · exact empty
  · split
    · exact contested
    · refine contested.gain rfl ?_ fun _ _ held => .inl held
      intro mac entry hit
      rcases LeaseTable.restore_entries hit with ⟨lease, mem, rfl, rfl⟩ | old
      · obtain ⟨original, inStore, -, rfl⟩ := reconcile_origin mem
        obtain ⟨boundAt, expiresAt, leaseSec⟩ := loaded.times original inStore
        refine .inr ⟨loaded.wire original inStore, loaded.clean original inStore, fun _ => rfl, ?_,
          Nat.lt_of_le_of_lt expiresAt safe, leaseSec⟩
        intro moment same
        cases same
        exact Nat.lt_of_le_of_lt boundAt safe
      · exact .inl old

/-- A run holds only what was in the store or could have been leased. -/
theorem Runs.recorded {events : List (Event DhcpCore Input)} {core : DhcpCore} {time : Nat}
    (run : Runs opts store events core time) (valid : opts.Validated) (loaded : LoadedStore store) :
    Recorded store core.table := by
  obtain ⟨restoreMs, seedMs, _, run⟩ := run
  obtain ⟨inv, settings⟩ := DhcpCore.new_start store valid restoreMs seedMs
  have start : Recorded store (DhcpCore.new opts store restoreMs seedMs).1.table := by
    refine (Recorded.restorePersisted loaded restoreMs.toNat).seedStaticReservations ?_ (UInt64.toNat_lt _)
    obtain ⟨leaseSecs, offerSecs, quarantineSecs, canonical⟩ := (Sane.mk inv settings).smallTerms valid
    exact ⟨leaseSecs, offerSecs, quarantineSecs, canonical⟩
  have both : Sane opts core time ∧ Recorded store core.table := by
    refine run.invariant (fun _ => True) (fun core time => Sane opts core time ∧ Recorded store core.table)
      ⟨⟨inv, settings⟩, start⟩ ?_ ?_ fun _ _ => trivial
    · exact fun _ _ _ bound both => ⟨both.1.mono bound, both.2⟩
    · exact fun event _ both => ⟨both.1.step valid, both.2.step valid both.1⟩
  exact both.2

end NexTerminal.Dhcp
