import Mathlib.Data.List.Perm.Subperm
import NexTerminal.Dhcp.Legality

namespace NexTerminal.Dhcp

open Std Library

namespace LeaseTable

def offerCap (table : LeaseTable) : Nat :=
  max (poolSize table.rangeStart table.rangeEnd / pendingOfferPoolDivisor) minPendingOffers

def pendingMacs (table : LeaseTable) (nowMs : Nat) : List MacKey :=
  (table.entries.toList.filter fun entry =>
    entry.2.state == .offered && entry.2.isLive nowMs).map Prod.fst

def unreservedOffers (table : LeaseTable) (nowMs : Nat) : List MacKey :=
  (table.pendingMacs nowMs).filter fun mac => (table.statics[mac]?).isNone

/-- A reservation, or an entry still live, whatever its state. -/
def HasClaim (table : LeaseTable) (mac : MacKey) (nowMs : Nat) : Prop :=
  (∃ reserved, table.statics[mac]? = some reserved) ∨
    ∃ entry, table.entries[mac]? = some entry ∧ entry.isLive nowMs = true

def HasUsableClaim (table : LeaseTable) (mac : MacKey) (nowMs : Nat) : Prop :=
  (∃ reserved, table.statics[mac]? = some reserved ∧ table.isQuarantined reserved nowMs = false) ∨
    ∃ entry, table.entries[mac]? = some entry ∧ entry.isLive nowMs = true ∧
      table.isQuarantined entry.address nowMs = false

variable {table next : LeaseTable} {now : Nat} {mac : MacKey}

theorem mem_pendingMacs : mac ∈ table.pendingMacs now ↔
    ∃ entry, table.entries[mac]? = some entry ∧ entry.state = .offered ∧ entry.isLive now = true := by
  simp only [pendingMacs, List.mem_map, List.mem_filter, Prod.exists, Bool.and_eq_true, beq_iff_eq,
    TreeMap.mem_toList_iff_getElem?_eq_some]
  constructor
  · rintro ⟨key, entry, mem, rfl⟩
    exact ⟨entry, mem⟩
  · rintro ⟨entry, mem⟩
    exact ⟨mac, entry, mem, rfl⟩

theorem mem_unreservedOffers : mac ∈ table.unreservedOffers now ↔
    mac ∈ table.pendingMacs now ∧ table.statics[mac]? = none := by
  simp [unreservedOffers]

theorem nodup_pendingMacs (table : LeaseTable) (now : Nat) : (table.pendingMacs now).Nodup :=
  (TreeMap.nodup_keys_toList table.entries).sublist (List.filter_sublist.map Prod.fst)

theorem nodup_unreservedOffers (table : LeaseTable) (now : Nat) : (table.unreservedOffers now).Nodup :=
  (table.nodup_pendingMacs now).filter _

theorem offerCapacityReached_eq_false :
    table.offerCapacityReached now = false ↔ (table.pendingMacs now).length < table.offerCap := by
  simp only [offerCapacityReached, decide_eq_false_iff_not, pendingMacs, List.length_map, offerCap,
    Nat.not_le]

theorem offerCap_config (same : next.config = table.config) : next.offerCap = table.offerCap := by
  simp only [config, LeaseTable.mk.injEq, true_and] at same
  obtain ⟨_, start, stop, _⟩ := same
  rw [offerCap, start, stop, offerCap]

theorem HasUsableClaim.existingAddress (claim : table.HasUsableClaim mac now) :
    ∃ address, table.existingAddress mac now = some address := by
  unfold LeaseTable.existingAddress
  cases usable : table.usableReservation mac now with
  | some reserved => exact ⟨reserved, rfl⟩
  | none =>
    rcases claim with ⟨reserved, own, free⟩ | ⟨entry, hit, live, free⟩
    · rw [usableReservation_eq_some.mpr ⟨own, free⟩] at usable
      cases usable
    · simp [hit, live, free]

/-- Nothing of a table became an offer, and what became a placeholder has a reservation. -/
def OffersNothing (table next : LeaseTable) : Prop :=
  ∀ (mac : MacKey) (entry : LeaseEntry), next.entries[mac]? = some entry →
    table.entries[mac]? = some entry ∨ entry.state = .bound ∨ entry.state = .reserved ∧
      table.statics[mac]? ≠ none

theorem OffersNothing.refl (table : LeaseTable) : table.OffersNothing table :=
  fun _ _ hit => .inl hit

theorem bind_offersNothing (table : LeaseTable) (mac : MacKey) (addr : Ipv4Addr) (hostname : Option Text)
    (now : Nat) : table.OffersNothing (table.bind mac addr hostname now).1 := by
  intro other entry hit
  simp only [bind, TreeMap.getElem?_insert_eq] at hit
  split at hit
  · cases hit
    exact .inr (.inl rfl)
  · exact .inl hit

theorem releaseAny_offersNothing (table : LeaseTable) (mac : MacKey) (now : Nat) :
    table.OffersNothing (table.releaseAny mac now).1 := by
  intro other entry hit
  rcases releaseAny_entries hit with old | ⟨rfl, reserved, own, rfl⟩
  · exact .inl old
  · exact .inr (.inr ⟨rfl, by rw [own]; exact nofun⟩)

theorem release_offersNothing (table : LeaseTable) (mac : MacKey) (addr : Ipv4Addr) (now : Nat) :
    table.OffersNothing (table.release mac addr now).1 := by
  unfold release
  split
  · exact .refl table
  · exact table.releaseAny_offersNothing mac now

theorem decline_offersNothing (table : LeaseTable) (mac : MacKey) (declined : Ipv4Addr) (now : Nat) :
    table.OffersNothing (table.decline mac declined now).1 := by
  unfold decline
  split
  · exact .refl table
  · split
    · exact .refl table
    · intro other entry hit
      simp only [TreeMap.getElem?_erase_eq] at hit
      split at hit
      · cases hit
      · exact .inl hit

theorem seed_offersNothing (table : LeaseTable) (now : Nat) :
    table.OffersNothing (table.seedStaticReservations now).1 := by
  intro mac entry hit
  rw [seedStaticReservations_entries] at hit
  cases own : table.statics[mac]? with
  | none => exact .inl (by simpa only [own] using hit)
  | some addr =>
    simp only [own, Option.or_eq_some_iff] at hit
    rcases hit with seeded | ⟨_, old⟩
    · rw [seedEntry_address seeded]
      exact .inr (.inr ⟨rfl, nofun⟩)
    · exact .inl old

theorem expire_offersNothing (table : LeaseTable) (now : Nat) : table.OffersNothing (table.expire now).1 := by
  have kept : ∀ (mac : MacKey) (entry : LeaseEntry), (table.swept now).entries[mac]? = some entry →
      table.entries[mac]? = some entry := by
    intro mac entry hit
    rw [swept_entries, Option.filter_eq_some_iff] at hit
    exact hit.1
  simp only [expire]
  split
  · exact fun mac entry hit => .inl (kept mac entry hit)
  · intro mac entry hit
    exact ((table.swept now).seed_offersNothing now mac entry hit).imp_left (kept mac entry)

theorem offer_waiting {addr : Ipv4Addr} {hostname : Option Text}
    (placed : ∀ entry, table.entries[mac]? = some entry → entry.state = .reserved →
      table.statics[mac]? ≠ none) (known : table.existingAddress mac now = some addr)
    (waiting : mac ∈ (table.offer mac addr hostname now).unreservedOffers now) :
    mac ∈ table.unreservedOffers now := by
  obtain ⟨pending, unreserved⟩ := mem_unreservedOffers.mp waiting
  obtain ⟨fresh, hit, offered, _⟩ := mem_pendingMacs.mp pending
  have unreserved : table.statics[mac]? = none := unreserved
  obtain ⟨_, own | held⟩ := existingAddress_spec known
  · rw [unreserved] at own
    cases own
  · obtain ⟨entry, atMac, live, rfl⟩ := claims_eq_some.mp held
    simp only [offer, TreeMap.getElem?_insert_eq, if_true, Option.some.injEq] at hit
    rw [← hit] at offered
    simp only [offeredEntry, atMac] at offered
    refine mem_unreservedOffers.mpr ⟨mem_pendingMacs.mpr ⟨entry, atMac, ?_, live⟩, unreserved⟩
    cases state : entry.state with
    | offered => rfl
    | bound => simp [holdsBound, state] at offered
    | reserved => exact absurd unreserved (placed entry atMac state)

/-- The bound on unclaimed offers, and where placeholders may stand. -/
structure Capped (table : LeaseTable) (now : Nat) : Prop where
  few : (table.unreservedOffers now).length ≤ table.offerCap
  placeholders : ∀ (mac : MacKey) (entry : LeaseEntry), table.entries[mac]? = some entry →
    entry.state = .reserved → table.statics[mac]? ≠ none

theorem unreservedOffers_le {later : Nat}
    (fewer : ∀ mac ∈ next.unreservedOffers later, mac ∈ table.unreservedOffers now) :
    (next.unreservedOffers later).length ≤ (table.unreservedOffers now).length :=
  ((next.nodup_unreservedOffers later).subperm fewer).length_le

theorem capped_of_bound (bound : ∀ (mac : MacKey) (entry : LeaseEntry), table.entries[mac]? = some entry →
      entry.state = .bound) (now : Nat) : table.Capped now := by
  have idle : table.unreservedOffers now = [] := by
    refine List.eq_nil_iff_forall_not_mem.mpr fun mac waiting => ?_
    obtain ⟨entry, hit, offered, _⟩ := mem_pendingMacs.mp (mem_unreservedOffers.mp waiting).1
    rw [bound mac entry hit] at offered
    cases offered
  refine ⟨by rw [idle]; exact Nat.zero_le _, ?_⟩
  intro mac entry hit reserved
  rw [bound mac entry hit] at reserved
  cases reserved

theorem Capped.mono {later : Nat} (capped : table.Capped now) (bound : now ≤ later) : table.Capped later := by
  refine ⟨Nat.le_trans (unreservedOffers_le ?_) capped.few, capped.placeholders⟩
  intro mac waiting
  obtain ⟨pending, unreserved⟩ := mem_unreservedOffers.mp waiting
  obtain ⟨entry, hit, offered, live⟩ := mem_pendingMacs.mp pending
  exact mem_unreservedOffers.mpr
    ⟨mem_pendingMacs.mpr ⟨entry, hit, offered, LeaseEntry.isLive_mono bound live⟩, unreserved⟩

theorem OffersNothing.capped (quiet : table.OffersNothing next) (same : next.config = table.config)
    (capped : table.Capped now) : next.Capped now := by
  have statics : next.statics = table.statics := (config_inPool same).1
  refine ⟨?_, ?_⟩
  · rw [offerCap_config same]
    refine Nat.le_trans (unreservedOffers_le ?_) capped.few
    intro mac waiting
    obtain ⟨pending, unreserved⟩ := mem_unreservedOffers.mp waiting
    obtain ⟨entry, hit, offered, live⟩ := mem_pendingMacs.mp pending
    refine mem_unreservedOffers.mpr ⟨mem_pendingMacs.mpr ⟨entry, ?_, offered, live⟩, statics ▸ unreserved⟩
    rcases quiet mac entry hit with old | bound | reserved
    · exact old
    · rw [offered] at bound
      cases bound
    · rw [offered] at reserved
      cases reserved.1
  · intro mac entry hit reserved
    rw [statics]
    rcases quiet mac entry hit with old | bound | ⟨_, own⟩
    · exact capped.placeholders mac entry old reserved
    · rw [reserved] at bound
      cases bound
    · exact own

theorem Capped.offer {addr : Ipv4Addr} (capped : table.Capped now)
    (admitted : table.existingAddress mac now = some addr ∨ table.offerCapacityReached now = false)
    (hostname : Option Text) : (table.offer mac addr hostname now).Capped now := by
  have others : ∀ other ∈ (table.offer mac addr hostname now).unreservedOffers now, other ≠ mac →
      other ∈ table.unreservedOffers now := by
    intro other waiting differ
    obtain ⟨pending, unreserved⟩ := mem_unreservedOffers.mp waiting
    obtain ⟨entry, hit, rest⟩ := mem_pendingMacs.mp pending
    simp only [LeaseTable.offer, TreeMap.getElem?_insert_eq, if_neg (Ne.symm differ)] at hit
    exact mem_unreservedOffers.mpr ⟨mem_pendingMacs.mpr ⟨entry, hit, rest⟩, unreserved⟩
  refine ⟨?_, ?_⟩
  · rcases admitted with known | room
    · refine Nat.le_trans (unreservedOffers_le ?_) capped.few
      intro other waiting
      by_cases same : other = mac
      · subst same
        exact offer_waiting (capped.placeholders other) known waiting
      · exact others other waiting same
    · -- The newcomer is one more than the live offers the cap was checked against.
      have within : ∀ other ∈ (table.offer mac addr hostname now).unreservedOffers now,
          other ∈ mac :: table.pendingMacs now := by
        intro other waiting
        by_cases same : other = mac
        · exact List.mem_cons.mpr (.inl same)
        · exact List.mem_cons_of_mem _ (mem_unreservedOffers.mp (others other waiting same)).1
      have count := ((nodup_unreservedOffers _ now).subperm within).length_le
      have below : (table.pendingMacs now).length < table.offerCap := offerCapacityReached_eq_false.mp room
      exact Nat.le_trans count below
  · intro other entry hit reserved
    simp only [LeaseTable.offer, TreeMap.getElem?_insert_eq] at hit
    split at hit
    · cases hit
      simp only [offeredEntry] at reserved
      split at reserved
      · cases reserved
      · cases reserved
    · exact capped.placeholders other entry hit reserved

end LeaseTable

namespace DhcpCore

variable {core : DhcpCore}

/-- A DISCOVER changes nothing, or offers to a client that holds the address or that the cap has room for. -/
def Admits (table : LeaseTable) (now : Nat) (mac : MacKey) (hostname : Option Text) (next : LeaseTable) : Prop :=
  next = table ∨ ∃ address, next = table.offer mac address hostname now ∧
    (table.existingAddress mac now = some address ∨ table.offerCapacityReached now = false)

theorem handleDiscover_admits (core : DhcpCore) (env : Env) (req : Message) (mac : MacKey)
    (vendor : Option Text) :
    Admits core.table env.now mac (req.options.text optionHostname)
      (core.handleDiscover env req mac vendor).1.table := by
  simp only [handleDiscover]
  split
  · exact .inl ((reportExhausted_quiet _ mac env.now).table)
  · rename_i addr chosen
    have available := (core.count fun counters =>
      { counters with discoverCount := counters.discoverCount + 1 }).reportAvailable_quiet
    generalize (core.count fun counters =>
      { counters with discoverCount := counters.discoverCount + 1 }).reportAvailable = noted at available ⊢
    have table : noted.1.table = core.table := available.table
    split
    · exact .inl ((logNotice_quiet _ env _ _).table.trans table)
    · rename_i fresh
      refine .inr ⟨addr, ?_, ?_⟩
      · rw [sendOffer_table, table]
      · rw [table, Bool.and_eq_true, not_and, Bool.not_eq_true] at fresh
        cases known : core.table.existingAddress mac env.now with
        | none => exact .inr (fresh (by rw [known]; rfl))
        | some existing =>
          refine .inl ?_
          simpa only [count_table, LeaseTable.selectAddress, known] using chosen

theorem handleDiscover_known {core : DhcpCore} {env : Env} {msg : Message} {address : Ipv4Addr}
    (known : core.table.existingAddress msg.hardwareKey env.now = some address)
    (vendor : Option Text) :
    (core.handleDiscover env msg msg.hardwareKey vendor).1.table =
        core.table.offer msg.hardwareKey address (msg.options.text optionHostname) env.now ∧
      (core.dns.length * 4 ≤ maxOptionValueBytes →
        ∃ reply, replies (core.handleDiscover env msg msg.hardwareKey vendor).2 = [reply] ∧
          reply.Carries .offer msg address) := by
  generalize counted : (core.count fun counters =>
    { counters with discoverCount := counters.discoverCount + 1 }) = start
  have atStart : start.table = core.table := by rw [← counted]; rfl
  have chosen : start.table.selectAddress msg.hardwareKey (msg.options.ipv4 optionRequestedIp)
      env.now = some address := by simp [atStart, LeaseTable.selectAddress, known]
  have available := start.reportAvailable_quiet
  simp only [handleDiscover, counted, chosen]
  generalize start.reportAvailable = noted at available ⊢
  have table : noted.1.table = core.table := available.table.trans atStart
  simp only [table, known, Option.isNone_some, Bool.false_and, Bool.false_eq_true, if_false]
  refine ⟨by rw [sendOffer_table, table], fun fits => ?_⟩
  have dns : noted.1.dns = core.dns := (congrArg Settings.dns available.settings).trans (counted ▸ rfl)
  obtain ⟨reply, sent, carries⟩ := sendOffer_sends (dns ▸ fits) env msg msg.hardwareKey vendor address
  exact ⟨reply, by rw [replies_append, available.silent, sent, List.nil_append], carries⟩

theorem handleDecoded_admits (core : DhcpCore) (env : Env) (peer : SocketAddr) (msg : Message)
    (req : msg.op = opBootrequest) (typed : msg.options.messageType = some .discover) :
    Admits core.table env.now msg.hardwareKey (msg.options.text optionHostname)
      (core.handleDecoded env peer msg).1.table := by
  simp only [handleDecoded, req, ne_eq, not_true_eq_false, if_false, typed]
  generalize atNotice : core.logNotice env .debug _ = noted
  have table : noted.1.table = core.table := (atNotice ▸ core.logNotice_quiet env .debug _ : core.Quiet noted).table
  split
  · exact .inl ((logNotice_quiet _ env _ _).table.trans table)
  · rw [← table]
    exact noted.1.handleDiscover_admits env msg msg.hardwareKey _

theorem step_discover (core : DhcpCore) {input : Input} {message : Message}
    (req : input.request = some (message, .discover)) :
    Admits core.table input.now message.hardwareKey (message.options.text optionHostname)
      (core.step input).1.table := by
  cases input with
  | tick env => cases req
  | message env buf peer =>
    simp only [Input.request] at req
    split at req
    · cases req
    · rename_i decoded atBuf
      split at req
      · cases req
      · rename_i isRequest
        simp only [Option.map_eq_some_iff, Prod.mk.injEq] at req
        obtain ⟨-, typed, rfl, rfl⟩ := req
        simp only [step, handleMessage, atBuf]
        exact handleDecoded_admits _ env peer decoded (not_not.mp isRequest) typed

end DhcpCore

theorem Served.offersNothing {table next : LeaseTable} {serverId : Ipv4Addr} {now : Nat} {msg : Message}
    {kind : MessageType} {sent : List Reply} (served : Served table serverId now msg kind next sent)
    (other : kind ≠ .discover) : table.OffersNothing next := by
  cases served with
  | silent => exact .refl table
  | offered => exact absurd rfl other
  | refused => exact .refl table
  | acknowledged => exact table.bind_offersNothing _ _ _ now
  | left => exact table.releaseAny_offersNothing _ now
  | released => exact table.release_offersNothing _ _ now
  | declined => exact table.decline_offersNothing _ _ now
  | informed => exact .refl table

variable {core : DhcpCore}

theorem Effect.offersNothing {input : Input} {table : LeaseTable} {sent : List Reply}
    (effect : Effect core input table sent) (other : input.kind ≠ some .discover) :
    core.table.OffersNothing table := by
  cases effect with
  | ignored => exact .refl core.table
  | served req served =>
    refine served.offersNothing ?_
    rintro rfl
    exact other (Input.kind_of_request req)
  | @swept env => exact core.table.expire_offersNothing env.now

theorem DhcpCore.Admits.capped {table next : LeaseTable} {now : Nat} {mac : MacKey} {hostname : Option Text}
    (admits : DhcpCore.Admits table now mac hostname next) (capped : table.Capped now) : next.Capped now := by
  rcases admits with rfl | ⟨addr, rfl, admitted⟩
  · exact capped
  · exact capped.offer admitted hostname

theorem LeaseTable.Capped.step {opts : EngineOptions} {input : Input} (valid : opts.Validated)
    (sane : Sane opts core input.now) (capped : core.table.Capped input.now) :
    (core.step input).1.table.Capped input.now := by
  obtain ⟨effect, settings⟩ := core.step_effect (core.fits_of_settings valid sane.settings) input
  by_cases discover : input.kind = some .discover
  · simp only [Input.kind, Option.map_eq_some_iff, Prod.exists] at discover
    obtain ⟨msg, -, req, rfl⟩ := discover
    exact (core.step_discover req).capped capped
  · exact (effect.offersNothing discover).capped (congrArg Settings.table settings) capped

theorem restorePersisted_bound (opts : EngineOptions) (store : LeaseStore) (now : Nat) (mac : MacKey)
    (entry : LeaseEntry) (hit : (DhcpCore.restorePersisted (LeaseTable.new opts.rangeStart
      opts.rangeEnd opts.leaseSecs opts.statics) opts store now).1.entries[mac]? = some entry) :
    entry.state = .bound := by
  simp only [DhcpCore.restorePersisted] at hit
  split at hit
  · simp [LeaseTable.new] at hit
  · split at hit
    · simp [LeaseTable.restoreQuarantine, LeaseTable.new] at hit
    · rcases LeaseTable.restore_entries hit with ⟨-, _, _, rfl⟩ | old
      · rfl
      · simp [LeaseTable.restoreQuarantine, LeaseTable.new] at old

theorem DhcpCore.new_capped (opts : EngineOptions) (store : LeaseStore) (restoreMs seedMs : UInt64) :
    (DhcpCore.new opts store restoreMs seedMs).1.table.Capped seedMs.toNat := by
  have restored := LeaseTable.capped_of_bound
    (restorePersisted_bound opts store restoreMs.toNat) seedMs.toNat
  exact (LeaseTable.seed_offersNothing _ seedMs.toNat).capped rfl restored

theorem Runs.capped {opts : EngineOptions} {store : LeaseStore} {events : List (Event DhcpCore Input)} {time : Nat}
    (run : Runs opts store events core time) (valid : opts.Validated) : core.table.Capped time := by
  obtain ⟨restoreMs, seedMs, _, run⟩ := run
  obtain ⟨inv, settings⟩ := DhcpCore.new_start store valid restoreMs seedMs
  have both : Sane opts core time ∧ core.table.Capped time := by
    refine run.invariant (fun _ => True) (fun core time => Sane opts core time ∧ core.table.Capped time)
      ⟨⟨inv, settings⟩, DhcpCore.new_capped opts store restoreMs seedMs⟩ ?_ ?_ fun _ _ => trivial
    · exact fun _ _ _ bound both => ⟨both.1.mono bound, both.2.mono bound⟩
    · exact fun event _ both => ⟨both.1.step valid, both.2.step valid both.1⟩
  exact both.2

/-- No more than half the pool (or eight) waits on offers to unreserved clients; a claim that is not held back is
offered. -/
theorem unclaimed_offers_capped {config : DhcpConfig} {options : EngineOptions} {store : LeaseStore}
    {events : List (Event DhcpCore Input)} {core : DhcpCore} {time : Nat}
    (resolved : config.resolve = .ok options) (run : Runs options store events core time) :
    (∀ now, time ≤ now → (core.table.unreservedOffers now).length ≤
      max (poolSize options.rangeStart options.rangeEnd / 2) 8) ∧
    ∀ (any : DhcpCore) (env : Env) (message : Message) (vendorClass : Option Text),
      any.table.HasUsableClaim message.hardwareKey env.now → ∃ address,
        (any.handleDiscover env message message.hardwareKey vendorClass).1.table =
          any.table.offer message.hardwareKey address (message.options.text optionHostname) env.now ∧
        (any.dns.length * 4 ≤ maxOptionValueBytes →
          ∃ reply, replies (any.handleDiscover env message message.hardwareKey vendorClass).2 = [reply] ∧
            reply.Carries .offer message address) := by
  have valid := DhcpConfig.resolve_validated resolved
  have config : core.table.config = (LeaseTable.new options.rangeStart options.rangeEnd
      options.leaseSecs options.statics).config := congrArg Settings.table (run.sane valid).settings
  refine ⟨?_, ?_⟩
  · intro now later
    have few := ((run.capped valid).mono later).few
    rw [LeaseTable.offerCap_config config] at few
    exact few
  · intro any env message vendorClass claim
    obtain ⟨address, known⟩ := claim.existingAddress
    exact ⟨address, DhcpCore.handleDiscover_known known vendorClass⟩

def smallConfig : DhcpConfig where
  rangeStart := some "192.168.2.10".toList
  rangeEnd := some "192.168.2.25".toList
  statics := some (TreeMap.ofList [("00:11:22:33:44:55".toList, "192.168.2.20".toList)])

def smallOptions : EngineOptions :=
  match smallConfig.resolve with
  | .ok options => options
  | .error _ => {}

theorem smallConfig_resolve : smallConfig.resolve = .ok smallOptions := by
  have valid : smallConfig.resolve.isOk = true := by decide
  unfold smallOptions
  cases hit : smallConfig.resolve with
  | ok opts => rfl
  | error msg =>
    rw [hit] at valid
    cases valid

def crowd : List Input :=
  declined :: (List.range 8).map fun i =>
    packetAt 2000 .discover [0x66, 0x77, 0x88, 0x99, 0xAA, .ofNat i] []

def crowdedCore : DhcpCore := server.final (DhcpCore.new smallOptions {} 1000 1000).1 crowd

theorem crowdedCore_run : Runs smallOptions {}
    (server.history (DhcpCore.new smallOptions {} 1000 1000).1 crowd) crowdedCore
    (server.finish 1000 crowd) :=
  Runs.play smallOptions {} 1000 crowd (by decide)

theorem unclaimed_offers_capped_crowd :
    (crowdedCore.table.unreservedOffers 3000).length ≤
      max (poolSize smallOptions.rangeStart smallOptions.rangeEnd / 2) 8 :=
  (unclaimed_offers_capped smallConfig_resolve crowdedCore_run).1 3000 (by decide)

/-- The client with the reservation is refused in spite of it, while addresses are free. -/
theorem reserved_client_refused :
    Runs smallOptions {} (server.history (DhcpCore.new smallOptions {} 1000 1000).1 crowd) crowdedCore
        (server.finish 1000 crowd) ∧
      crowdedCore.table.HasClaim (.fromHardware reservedClient) 3000 ∧
      crowdedCore.table.selectAddress (.fromHardware reservedClient) none 3000 ≠ none ∧
      crowdedCore.table.offerCapacityReached 3000 = true ∧
      replies (crowdedCore.step (packetAt 3000 .discover reservedClient [])).2 = [] := by
  refine ⟨crowdedCore_run, .inl ⟨.new 192 168 2 20, ?_⟩, ?_⟩
  · decide +kernel
  · decide +kernel

end NexTerminal.Dhcp
