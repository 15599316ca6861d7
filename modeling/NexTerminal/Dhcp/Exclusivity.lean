import NexTerminal.Dhcp.Legality

namespace NexTerminal.Dhcp

open Std Library

/-- The event answers a REQUEST with an ACK of this address to this client. -/
def GrantsTo (event : Event DhcpCore Input) (chaddr : Bytes) (address : Ipv4Addr) : Prop :=
  event.input.kind = some .request ∧ ∃ reply ∈ replies (server.outputs event),
    reply.kind = .ack ∧ reply.header.chaddr = chaddr ∧ reply.header.yiaddr = address

/-- The event sends this client an OFFER or an ACK, not to an INFORM, of this
address. -/
def HandsTo (event : Event DhcpCore Input) (chaddr : Bytes) (address : Ipv4Addr) : Prop :=
  event.input.kind ≠ some .inform ∧ ∃ reply ∈ replies (server.outputs event),
    (reply.kind = .offer ∨ reply.kind = .ack) ∧ reply.header.chaddr = chaddr ∧ reply.header.yiaddr = address

instance (event : Event DhcpCore Input) (chaddr : Bytes) (address : Ipv4Addr) :
    Decidable (GrantsTo event chaddr address) := by
  unfold GrantsTo
  infer_instance

instance (event : Event DhcpCore Input) (chaddr : Bytes) (address : Ipv4Addr) :
    Decidable (HandsTo event chaddr address) := by
  unfold HandsTo
  infer_instance

/-- The client releases, declines, selects another server, or is handed another address. -/
inductive GivesUp (serverId : Ipv4Addr) (event : Event DhcpCore Input) (chaddr : Bytes)
    (address : Ipv4Addr) : Prop
  | released (message : Message) (request : event.input.request = some (message, .release))
      (client : message.chaddr = chaddr) (ours : message.options.ipv4 optionServerId = some serverId)
      (named : message.ciaddr = address)
  | declined (message : Message) (request : event.input.request = some (message, .decline))
      (client : message.chaddr = chaddr) (ours : message.options.ipv4 optionServerId = some serverId)
      (named : message.options.ipv4 optionRequestedIp = some address)
  | left (message : Message) (request : event.input.request = some (message, .request))
      (client : message.chaddr = chaddr) (chosen : Ipv4Addr)
      (other : message.selectsOther serverId = some chosen)
  | moved (other : Ipv4Addr) (handed : HandsTo event chaddr other) (different : other ≠ address)

/-- No address granted to one client is handed to another before its lease has
run out, unless the client gave it up in between. -/
def ExclusiveGrants (options : EngineOptions) (events : List (Event DhcpCore Input)) : Prop :=
  ∀ (first between last : List (Event DhcpCore Input)) (grant later : Event DhcpCore Input)
    (chaddr other : Bytes) (address : Ipv4Addr),
    events = first ++ grant :: (between ++ later :: last) →
    GrantsTo grant chaddr address → other ≠ chaddr → HandsTo later other address →
    later.input.now < grant.input.now + 1000 * options.leaseSecs →
    ∃ event ∈ between, GivesUp options.serverId event chaddr address

/-- A sweep that removes something finds no client off its own in-pool reservation, out of quarantine. -/
def SweepSafe (event : Event DhcpCore Input) : Prop :=
  match event.input with
  | .message _ _ _ => True
  | .tick env =>
    (∃ (mac : MacKey) (entry : LeaseEntry), event.before.table.entries[mac]? = some entry ∧
      entry.isLive env.now = false) →
    ∀ (mac : MacKey) (entry : LeaseEntry) (reserved : Ipv4Addr),
      event.before.table.entries[mac]? = some entry → entry.state = .bound →
      entry.isLive env.now = true → event.before.table.statics[mac]? = some reserved →
      reserved ≠ entry.address → event.before.table.inPool reserved = true →
      event.before.table.isQuarantined reserved env.now = true

namespace LeaseTable

def Holds (table : LeaseTable) (mac : MacKey) (address : Ipv4Addr) (deadline : Nat) : Prop :=
  ∃ entry, table.entries[mac]? = some entry ∧ entry.state = .bound ∧ entry.address = address ∧
    deadline ≤ entry.expiresAtMs

variable {table : LeaseTable} {address : Ipv4Addr} {mac : MacKey} {deadline : Nat}

theorem Holds.of_entry {next : LeaseTable} (holds : table.Holds mac address deadline)
    (same : next.entries[mac]? = table.entries[mac]?) : next.Holds mac address deadline := by
  obtain ⟨entry, hit, rest⟩ := holds
  exact ⟨entry, same.trans hit, rest⟩

variable {now : Nat}

theorem Holds.claims (holds : table.Holds mac address deadline) (early : now < deadline) :
    table.claims now mac = some address := by
  obtain ⟨entry, hit, _, same, expiry⟩ := holds
  refine claims_eq_some.mpr ⟨entry, hit, ?_, same⟩
  simp only [LeaseEntry.isLive, Bool.or_eq_true, decide_eq_true_eq]
  exact .inr (by omega)

theorem Holds.offer (holds : table.Holds mac address deadline) (hostname : Option Text) (now : Nat) :
    (table.offer mac address hostname now).Holds mac address deadline := by
  obtain ⟨entry, hit, bound, same, expiry⟩ := holds
  have held : (entry.state == .bound && entry.address == address) = true := by simp [bound, same]
  refine ⟨_, TreeMap.getElem?_insert_self, ?_, rfl, ?_⟩
  · simp [offeredEntry, holdsBound, hit, held]
  · simp only [offeredEntry, hit, held, if_true]
    omega

theorem Holds.bind (hostname : Option Text) (term : deadline ≤ now + table.leaseSecs * 1000) :
    (table.bind mac address hostname now).1.Holds mac address deadline :=
  ⟨_, TreeMap.getElem?_insert_self, rfl, rfl, term⟩

variable {other : MacKey}

theorem insert_other {entries : TreeMap MacKey LeaseEntry compare} (differ : other ≠ mac)
    (entry : LeaseEntry) : (entries.insert other entry)[mac]? = entries[mac]? := by
  rw [TreeMap.getElem?_insert_eq, if_neg differ]

theorem releaseAny_other (differ : other ≠ mac) (now : Nat) :
    (table.releaseAny other now).1.entries[mac]? = table.entries[mac]? := by
  unfold releaseAny
  split
  · rfl
  · split
    · split
      · simp [insert_other differ, TreeMap.getElem?_erase_eq, if_neg differ]
      · simp [TreeMap.getElem?_erase_eq, if_neg differ]
    · simp [TreeMap.getElem?_erase_eq, if_neg differ]

theorem Holds.release {named : Ipv4Addr} (holds : table.Holds mac address deadline)
    (unreleased : ¬ (other = mac ∧ named = address)) :
    (table.release other named now).1.Holds mac address deadline := by
  unfold LeaseTable.release
  split
  · exact holds
  · rename_i own
    rw [not_not] at own
    refine holds.of_entry (releaseAny_other ?_ now)
    rintro rfl
    obtain ⟨entry, hit, _, same, _⟩ := holds
    rw [hit, Option.map_some, Option.some.injEq] at own
    exact unreleased ⟨rfl, own.symm.trans same⟩

theorem Holds.decline {named : Ipv4Addr} (holds : table.Holds mac address deadline)
    (undeclined : ¬ (other = mac ∧ named = address)) :
    (table.decline other named now).1.Holds mac address deadline := by
  unfold LeaseTable.decline
  split
  · exact holds
  · rename_i entry hit
    split
    · exact holds
    · rename_i own
      rw [not_not] at own
      refine holds.of_entry ?_
      rw [TreeMap.getElem?_erase_eq, if_neg]
      rintro rfl
      obtain ⟨entry', found', _, same, _⟩ := holds
      cases hit.symm.trans found'
      exact undeclined ⟨rfl, own.symm.trans same⟩

theorem isQuarantined_swept (held : table.isQuarantined address now = true) :
    (table.swept now).isQuarantined address now = true := by
  obtain ⟨deadline, hit, later⟩ := isQuarantined_iff.mp held
  refine isQuarantined_iff.mpr ⟨deadline, ?_, later⟩
  rw [swept_quarantine, hit, Option.filter_some, if_pos (decide_eq_true later)]

theorem Holds.expire (holds : table.Holds mac address deadline) (early : now < deadline)
    (kept : (∃ (mac : MacKey) (entry : LeaseEntry), table.entries[mac]? = some entry ∧
        entry.isLive now = false) → ∀ reserved, table.statics[mac]? = some reserved →
      reserved ≠ address → table.inPool reserved = true → table.isQuarantined reserved now = true) :
    (table.expire now).1.Holds mac address deadline := by
  obtain ⟨entry, hit, bound, same, expiry⟩ := holds
  have live : entry.isLive now = true := by
    simp only [LeaseEntry.isLive, Bool.or_eq_true, decide_eq_true_eq]
    exact .inr (by omega)
  have survives : (table.swept now).entries[mac]? = some entry := by
    rw [swept_entries, hit, Option.filter_some, if_pos live]
  refine ⟨entry, ?_, bound, same, expiry⟩
  simp only [LeaseTable.expire]
  split
  · exact survives
  · rename_i something
    obtain ⟨lapsed, mem⟩ := List.exists_mem_of_ne_nil _ (by simpa using something)
    have dead := mem_lapsed.mp (List.mem_map_of_mem mem)
    rw [seedStaticReservations_entries, survives]
    cases own : (table.swept now).statics[mac]? with
    | none => rfl
    | some reserved =>
      have unseeded : (table.swept now).seedEntry now mac reserved (some entry) = none := by
        unfold seedEntry
        by_cases inside : (table.swept now).inPool reserved = true
        · by_cases here : entry.address = reserved
          · simp [here]
          · have away : reserved ≠ address := fun equal => here (same.trans equal.symm)
            have quarantined := isQuarantined_swept (kept ⟨_, dead⟩ reserved own away inside)
            simp [quarantined]
        · simp [inside]
      simp [unseeded]

end LeaseTable

variable {address : Ipv4Addr} {chaddr : Bytes}

theorem Served.holds {table next : LeaseTable} {serverId : Ipv4Addr} {now : Nat} {msg : Message}
    {kind : MessageType} {sent : List Reply} (served : Served table serverId now msg kind next sent)
    {deadline : Nat} (holds : table.Holds (MacKey.fromHardware chaddr) address deadline)
    (term : deadline ≤ now + table.leaseSecs * 1000) : next.Holds (MacKey.fromHardware chaddr) address deadline ∨
      msg.chaddr = chaddr ∧
        ((kind = .release ∧ msg.options.ipv4 optionServerId = some serverId ∧
            msg.ciaddr = address) ∨
          (kind = .decline ∧ msg.options.ipv4 optionServerId = some serverId ∧
            msg.options.ipv4 optionRequestedIp = some address) ∨
          (kind = .request ∧ ∃ chosen, msg.selectsOther serverId = some chosen) ∨
          (kind ≠ .inform ∧ ∃ reply ∈ sent, (reply.kind = .offer ∨ reply.kind = .ack) ∧
            reply.header.chaddr = chaddr ∧ reply.header.yiaddr ≠ address)) := by
  by_cases client : msg.chaddr = chaddr
  · subst client
    cases served with
    | silent => exact .inl holds
    | @offered other reply chosen carries =>
      by_cases same : other = address
      · subst same
        exact .inl (holds.offer _ now)
      · exact .inr ⟨rfl, .inr (.inr (.inr ⟨by decide, reply, List.mem_singleton_self _,
          .inl carries.kind_eq, carries.chaddr_eq, carries.yiaddr_eq ▸ same⟩))⟩
    | refused => exact .inl holds
    | @acknowledged other reply ours named chosen carries =>
      by_cases same : other = address
      · subst same
        exact .inl (.bind _ term)
      · exact .inr ⟨rfl, .inr (.inr (.inr ⟨by decide, reply, List.mem_singleton_self _,
          .inr carries.kind_eq, carries.chaddr_eq, carries.yiaddr_eq ▸ same⟩))⟩
    | @left chosen other => exact .inr ⟨rfl, .inr (.inr (.inl ⟨rfl, chosen, other⟩))⟩
    | released ours =>
      by_cases named : msg.ciaddr = address
      · exact .inr ⟨rfl, .inl ⟨rfl, ours, named⟩⟩
      · exact .inl (holds.release fun both => named both.2)
    | @declined other ours asked =>
      by_cases named : other = address
      · exact .inr ⟨rfl, .inr (.inl ⟨rfl, ours, named ▸ asked⟩)⟩
      · exact .inl (holds.decline fun both => named both.2)
    | informed => exact .inl holds
  · have differ : msg.hardwareKey ≠ MacKey.fromHardware chaddr :=
      fun same => client (MacKey.fromHardware_injective same)
    left
    cases served with
    | silent => exact holds
    | offered => exact holds.of_entry (LeaseTable.insert_other differ _)
    | refused => exact holds
    | acknowledged => exact holds.of_entry (LeaseTable.insert_other differ _)
    | left => exact holds.of_entry (LeaseTable.releaseAny_other differ now)
    | released => exact holds.release fun both => differ both.1
    | declined => exact holds.decline fun both => differ both.1
    | informed => exact holds

section Step

variable {options : EngineOptions} {event : Event DhcpCore Input} {chaddr : Bytes} {address : Ipv4Addr}
  {deadline : Nat}

theorem holds_step (valid : options.Validated) (settings : event.before.settings = options.settings)
    (safe : SweepSafe event)
    (holds : event.before.table.Holds (MacKey.fromHardware chaddr) address deadline)
    (early : event.input.now < deadline)
    (term : deadline ≤ event.input.now + options.leaseSecs * 1000) :
    (server.after event).table.Holds (MacKey.fromHardware chaddr) address deadline ∨
      GivesUp options.serverId event chaddr address := by
  have serverId : event.before.serverId = options.serverId := congrArg Settings.serverId settings
  have leaseSecs : event.before.table.leaseSecs = options.leaseSecs :=
    congrArg (fun settings : Settings => settings.table.leaseSecs) settings
  obtain ⟨effect, _⟩ := event.before.step_effect (event.before.fits_of_settings valid settings) event.input
  obtain ⟨pre, input⟩ := event
  have outputs : replies (server.outputs ⟨pre, input⟩) = replies (pre.step input).2 := rfl
  change (pre.step input).1.table.Holds _ _ _ ∨ _
  generalize (pre.step input).1.table = next at effect ⊢
  generalize replies (pre.step input).2 = sent at effect outputs
  cases effect with
  | ignored => exact .inl holds
  | @served _ msg kind _ _ req served =>
    rcases served.holds holds (leaseSecs ▸ term) with kept | ⟨client, exit⟩
    · exact .inl kept
    · right
      rw [← serverId]
      rcases exit with ⟨rfl, ours, named⟩ | ⟨rfl, ours, named⟩ | ⟨rfl, chosen, other⟩ |
        ⟨ordinary, reply, mem, granting, recipient, away⟩
      · exact .released msg req client ours named
      · exact .declined msg req client ours named
      · exact .left msg req client chosen other
      · refine .moved reply.header.yiaddr ⟨?_, reply, outputs ▸ mem, granting, recipient, rfl⟩ away
        rw [Input.kind_of_request req]
        simpa using ordinary
  | @swept env =>
    obtain ⟨entry, hit, bound, same, expiry⟩ := holds
    have live : entry.isLive env.now = true := by
      simp only [LeaseEntry.isLive, Bool.or_eq_true, decide_eq_true_eq]
      exact .inr (Nat.lt_of_lt_of_le early expiry)
    left
    refine LeaseTable.Holds.expire ⟨entry, hit, bound, same, expiry⟩ early ?_
    intro dead reserved own away inside
    exact safe dead _ entry reserved hit bound live own (same ▸ away) inside

end Step

theorem holds_run {options : EngineOptions} {start core : DhcpCore} {since time : Nat}
    {events : List (Event DhcpCore Input)} {chaddr : Bytes} {address : Ipv4Addr} {deadline : Nat}
    (run : server.Run start since events core time) (valid : options.Validated) (sane : Sane options start since)
    (holds : start.table.Holds (MacKey.fromHardware chaddr) address deadline) (early : time < deadline)
    (term : deadline ≤ since + options.leaseSecs * 1000) (safe : ∀ event ∈ events, SweepSafe event)
    (kept : ∀ event ∈ events, ¬ GivesUp options.serverId event chaddr address) :
    Sane options core time ∧ core.table.Holds (MacKey.fromHardware chaddr) address deadline := by
  have lasting : Sane options core time ∧ deadline ≤ time + options.leaseSecs * 1000 ∧
      (time < deadline → core.table.Holds (MacKey.fromHardware chaddr) address deadline) := by
    refine run.invariant
      (fun event => SweepSafe event ∧ ¬ GivesUp options.serverId event chaddr address)
      (fun core time => Sane options core time ∧ deadline ≤ time + options.leaseSecs * 1000 ∧
        (time < deadline → core.table.Holds (MacKey.fromHardware chaddr) address deadline))
      ⟨sane, term, fun _ => holds⟩ ?_ ?_ fun event mem => ⟨safe event mem, kept event mem⟩
    · rintro core time later bound ⟨sane, term, holds⟩
      exact ⟨sane.mono bound, by omega, fun early => holds (by omega)⟩
    · rintro event ⟨safe, kept⟩ ⟨sane, term, holds⟩
      refine ⟨sane.step valid, term, fun early => ?_⟩
      exact (holds_step valid sane.settings safe (holds early) early term).resolve_right kept
  exact ⟨lasting.1, lasting.2.2 early⟩

variable {event : Event DhcpCore Input}

/-- What is handed out is free for its client, and an ACK binds it. -/
theorem HandsTo.assignable {options : EngineOptions} (handed : HandsTo event chaddr address)
    (valid : options.Validated) (sane : Sane options event.before event.input.now) :
    event.before.table.Assignable (MacKey.fromHardware chaddr) address event.input.now := by
  obtain ⟨ordinary, reply, mem, granting, recipient, rfl⟩ := handed
  obtain ⟨effect, _⟩ := event.before.step_effect (event.before.fits_of_settings valid sane.settings) event.input
  obtain ⟨pre, input⟩ := event
  change reply ∈ replies (pre.step input).2 at mem
  generalize (pre.step input).1.table = next at effect
  generalize replies (pre.step input).2 = sent at effect mem
  cases effect with
  | ignored => cases mem
  | served req served =>
    cases served with
    | silent => cases mem
    | offered chosen carries =>
      rw [List.mem_singleton.mp mem] at recipient ⊢
      rw [← recipient, carries.chaddr_eq, carries.yiaddr_eq]
      exact sane.invariant.selectAddress_assignable chosen
    | refused nak =>
      rw [List.mem_singleton.mp mem, nak] at granting
      simp at granting
    | acknowledged ours named chosen carries =>
      rw [List.mem_singleton.mp mem] at recipient ⊢
      rw [← recipient, carries.chaddr_eq, carries.yiaddr_eq]
      exact sane.invariant.selectAddress_assignable chosen
    | left | released | declined => cases mem
    | informed => exact absurd (Input.kind_of_request req) ordinary
  | swept => cases mem

theorem GrantsTo.holds {options : EngineOptions} (granted : GrantsTo event chaddr address) (valid : options.Validated)
    (sane : Sane options event.before event.input.now) :
    (server.after event).table.Holds (MacKey.fromHardware chaddr) address
      (event.input.now + options.leaseSecs * 1000) := by
  obtain ⟨asked, reply, mem, ack, recipient, rfl⟩ := granted
  have leaseSecs : event.before.table.leaseSecs = options.leaseSecs :=
    congrArg (fun settings : Settings => settings.table.leaseSecs) sane.settings
  obtain ⟨effect, _⟩ := event.before.step_effect (event.before.fits_of_settings valid sane.settings) event.input
  obtain ⟨pre, input⟩ := event
  change reply ∈ replies (pre.step input).2 at mem
  change (pre.step input).1.table.Holds _ _ _
  generalize (pre.step input).1.table = next at effect ⊢
  generalize replies (pre.step input).2 = sent at effect mem
  cases effect with
  | ignored => cases mem
  | served req served =>
    rw [Input.kind_of_request req, Option.some.injEq] at asked
    subst asked
    cases served with
    | silent => cases mem
    | refused nak =>
      rw [List.mem_singleton.mp mem, nak] at ack
      cases ack
    | acknowledged ours named chosen carries =>
      rw [List.mem_singleton.mp mem] at recipient ⊢
      rw [← recipient, carries.chaddr_eq, carries.yiaddr_eq]
      exact .bind _ (by rw [leaseSecs])
    | left => cases mem
  | swept => cases mem

/-- In a run of safe sweeps, a granted address stays with its client until it runs out or is given up. -/
theorem grants_exclusive {config : DhcpConfig} {options : EngineOptions} {store : LeaseStore}
    {events : List (Event DhcpCore Input)} {core : DhcpCore} {time : Nat}
    (resolved : config.resolve = .ok options) (run : Runs options store events core time)
    (safe : ∀ event ∈ events, SweepSafe event) : ExclusiveGrants options events := by
  have valid := DhcpConfig.resolve_validated resolved
  intro first between last grant later chaddr other address shape granted different handed early
  subst shape
  by_contra kept
  simp only [not_exists, not_and] at kept
  obtain ⟨restoreMs, seedMs, clocks, run⟩ := run
  obtain ⟨reached, before, bound, rest⟩ := run.split
  have sane : Sane options grant.before grant.input.now :=
    Sane.mono (Runs.sane ⟨restoreMs, seedMs, clocks, before⟩ valid) bound
  obtain ⟨reached', middle, bound', _⟩ := rest.split
  have bound' : reached' ≤ later.input.now := bound'
  obtain ⟨sane', holds⟩ := holds_run middle valid (sane.step valid) (granted.holds valid sane)
    (by omega) (Nat.le_refl _) (fun event member => safe event (by simp [member])) kept
  have free := handed.assignable valid (sane'.mono bound')
  have owner := free.free _ (holds.claims (by omega))
  exact different (MacKey.fromHardware_injective owner).symm

def offerPending : List Input := twoLeases ++ [packetAt 3000 .discover [0x02, 0, 0, 0, 0, 0x01] []]

theorem grants_exclusive_offerLapses :
    ExclusiveGrants sampleOptions
      (server.history (DhcpCore.new sampleOptions {} 1000 1000).1 (offerPending ++ [tickAt 700000])) := by
  have run := Runs.play sampleOptions {} 1000 (offerPending ++ [tickAt 700000]) (by decide)
  have sane := (Runs.play sampleOptions {} 1000 offerPending (by decide)).sane
    (DhcpConfig.resolve_validated sampleConfig_resolve)
  have placed : ∀ held ∈ (server.final (DhcpCore.new sampleOptions {} 1000 1000).1
      offerPending).table.entries.toList,
      sampleOptions.statics[held.1]? = some held.2.address ∨ sampleOptions.statics[held.1]? = none := by
    decide +kernel
  generalize (DhcpCore.new sampleOptions {} 1000 1000).1 = start at run sane placed ⊢
  refine grants_exclusive sampleConfig_resolve run ?_
  rw [server.history_append]
  intro event member
  rcases List.mem_append.mp member with early | sweep
  · simp only [offerPending, twoLeases, List.cons_append, List.nil_append, TimedSystem.history,
      List.mem_cons, List.not_mem_nil, or_false] at early
    rcases early with rfl | rfl | rfl
    · trivial
    · trivial
    · trivial
  · rw [List.mem_singleton.mp sweep]
    generalize server.final start offerPending = core at sane placed
    intro _ mac entry reserved found _ _ own away _
    have statics : core.table.statics = sampleOptions.statics :=
      congrArg (fun settings : Settings => settings.table.statics) sane.settings
    have known := placed (mac, entry) (TreeMap.mem_toList_iff_getElem?_eq_some.mpr found)
    rw [← statics, own] at known
    rcases known with same | nothing
    · exact absurd (Option.some.inj same) away
    · cases nothing

theorem not_givesUp {serverId : Ipv4Addr} (kind : event.input.kind = none ∨ event.input.kind = some .discover)
    (silent : ∀ reply ∈ replies (server.outputs event), reply.header.chaddr ≠ chaddr) :
    ¬ GivesUp serverId event chaddr address := by
  have never : ∀ msg kind', event.input.request = some (msg, kind') → kind' = .discover := by
    intro msg kind' req
    rw [Input.kind_of_request req] at kind
    simpa using kind
  rintro (⟨msg, req, _⟩ | ⟨msg, req, _⟩ | ⟨msg, req, _⟩ | ⟨other, handed, _⟩)
  · cases never _ _ req
  · cases never _ _ req
  · cases never _ _ req
  · obtain ⟨_, reply, mem, _, recipient, _⟩ := handed
    exact silent reply mem recipient

/-- The sweep of a lapsed offer puts the reserved client back on its placeholder. -/
def swept : List Input := [packetAt 3000 .discover otherClient [], tickAt 700000]

def stolen : Input := packetAt 701000 .discover otherClient (addressOption optionRequestedIp (.new 192 168 2 10))

def stolenLease : List Input := [declined] ++ (taken :: (swept ++ [stolen]))

theorem grants_not_exclusive :
    ¬ ∀ (config : DhcpConfig) (options : EngineOptions) (store : LeaseStore)
      (events : List (Event DhcpCore Input)) (core : DhcpCore) (time : Nat),
      config.resolve = .ok options → Runs options store events core time →
      ExclusiveGrants options events := by
  intro exclusive
  have run := Runs.play sampleOptions {} 1000 stolenLease (by decide)
  generalize atStart : (DhcpCore.new sampleOptions {} 1000 1000).1 = start at run
  have shape : server.history start stolenLease = server.history start [declined] ++
      ⟨server.final start [declined], taken⟩ ::
        (server.history (server.final start [declined, taken]) swept ++
          ⟨server.final (server.final start [declined, taken]) swept, stolen⟩ :: []) := by
    simp [stolenLease, server.history_append, TimedSystem.history, TimedSystem.final]
  have granted : GrantsTo ⟨server.final start [declined], taken⟩ reservedClient (.new 192 168 2 10) := by
    subst atStart
    decide +kernel
  have handed : HandsTo ⟨server.final (server.final start [declined, taken]) swept, stolen⟩
      otherClient (.new 192 168 2 10) := by
    subst atStart
    decide +kernel
  have others : ∀ event ∈ server.history (server.final start [declined, taken]) swept,
      (event.input.kind = none ∨ event.input.kind = some .discover) ∧
        ∀ reply ∈ replies (server.outputs event), reply.header.chaddr ≠ reservedClient := by
    subst atStart
    decide +kernel
  have early : stolen.now < taken.now + 1000 * sampleOptions.leaseSecs := by decide
  obtain ⟨event, member, exit⟩ := exclusive _ _ _ _ _ _ sampleConfig_resolve run _ _ _ _ _ _ _ _
    shape granted (by decide) handed early
  exact not_givesUp (others event member).1 (others event member).2 exit

end NexTerminal.Dhcp
