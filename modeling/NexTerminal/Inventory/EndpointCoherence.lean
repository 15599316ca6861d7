import NexTerminal.Inventory.SyncPasses

namespace NexTerminal.Inventory

open Library Exchange

variable {env : SyncPlatform} {input : ComputeSyncPlanInput} {device : TreeDevice} {owned : ServerConfig}

/-- The kind of the endpoints that a record with the protocol can use. -/
def transportKind (protocol : Option ServerProtocol) : InventoryEndpointKind :=
  match resolveServerProtocol protocol with
  | .telnet => .telnet
  | .ssh => .ssh

def transportPort (protocol : Option ServerProtocol) : ℚ :=
  match resolveServerProtocol protocol with
  | .telnet => 23
  | .ssh => 22

/-- The port at which a record with the protocol finds the endpoint. -/
def InventoryEndpoint.portFor (endpoint : InventoryEndpoint) (protocol : Option ServerProtocol) : ℚ :=
  endpoint.port.getD (transportPort protocol)

/-- What describes a record's console, with the stamps of the address. -/
structure Console where
  host : Text
  port : ℚ
  protocol : Option ServerProtocol
  username : Option Text
  syncedHost : Option Text
  syncedPort : Option ℚ

def ServerConfig.console (server : ServerConfig) : Console where
  host := server.host
  port := server.port
  protocol := server.protocol
  username := server.username
  syncedHost := server.origin.bind ServerOrigin.syncedHost
  syncedPort := server.origin.bind ServerOrigin.syncedPort

theorem console_of_core {record other : ServerConfig} (same : record.core = other.core) :
    record.console = other.console := by
  have stays : ∀ server : ServerConfig, server.core.console = server.console := by
    intro server
    cases held : server.origin <;> simp [ServerConfig.core, ServerConfig.console, held]
  rw [← stays record, same, stays]

theorem console_withAuthDecision (server : ServerConfig) (decision : TemplateAuthDecision) :
    (server.withAuthDecision decision).console = server.console := by
  cases decision with
  | write profileId => cases held : server.origin <;> simp [ServerConfig.withAuthDecision, ServerConfig.console, held]
  | leave | skipUsability profileId => rfl

theorem console_withSourceLinkCleared (server : ServerConfig) :
    (withSourceLinkCleared server).console = server.console := by
  cases held : server.origin <;> simp [withSourceLinkCleared, ServerConfig.console, held]

theorem console_withRollback (server : ServerConfig) (unusable : Text → Bool) :
    (server.withRollback unusable).console = server.console := by
  unfold ServerConfig.withRollback
  split
  · exact console_withSourceLinkCleared server
  · rfl

theorem console_withoutOwnAltHost (server : ServerConfig) : server.withoutOwnAltHost.console = server.console := by
  unfold ServerConfig.withoutOwnAltHost
  split
  · cases held : server.origin <;> simp [ServerConfig.console, held]
  · rfl

theorem console_updateAfter (primary : PrimaryEndpoint) (addresses : DeviceAddresses) (group : Option Text)
    (templates : DeviceTemplates) :
    (updateAfter input device primary addresses group templates owned).console =
      (updatedRecord input device primary.protocol addresses group (templates.matrix (some owned) owned.id device.name)
        owned).console := by
  rw [updateAfter, console_withoutOwnAltHost, console_withRollback, updateLinked, console_withAuthDecision]

def Console.WroteHost (before after : Console) : Prop :=
  after.host ≠ before.host ∨ after.syncedHost ≠ before.syncedHost

def Console.WrotePort (before after : Console) : Prop :=
  after.port ≠ before.port ∨ after.syncedPort ≠ before.syncedPort

structure Console.Follows (before after : Console) (endpoint : InventoryEndpoint) : Prop where
  host : before.WroteHost after → after.host = endpoint.host ∧ after.syncedHost = some endpoint.host
  port : before.WrotePort after →
    after.port = endpoint.portFor after.protocol ∧ after.syncedPort = some (endpoint.portFor after.protocol)
  username : after.username ≠ before.username → endpoint.username.isSome = true ∧
    after.username = endpoint.username

/-- What was written is one endpoint's of the transport that the record has. -/
def Coherent (device : TreeDevice) (before after : Console) : Prop :=
  before.WroteHost after ∨ before.WrotePort after ∨ after.username ≠ before.username →
    ∃ endpoint ∈ device.endpoints,
      endpoint.kind = transportKind after.protocol ∧ endpoint.host ≠ [] ∧ before.Follows after endpoint

theorem Coherent.refl (device : TreeDevice) (console : Console) : Coherent device console console := by
  rintro ((host | stamp) | (port | stamp) | username)
  all_goals contradiction

/-- The sync owns one half of the address only, writes it, and no endpoint of the record's
transport has it. -/
def HalfTakenAt (device : TreeDevice) (owned : ServerConfig) (found : OwnedEndpoint) : Prop :=
  syncOwnsHost owned.host owned.console.syncedHost found.endpoint.host = true ∧
      syncOwnsPort owned.port owned.console.syncedPort found.port = false ∧
      (found.endpoint.host ≠ owned.host ∨ some found.endpoint.host ≠ owned.console.syncedHost) ∧
      (∀ endpoint ∈ device.endpoints, endpoint.kind = transportKind owned.protocol →
        endpoint.host ≠ found.endpoint.host) ∨
    syncOwnsHost owned.host owned.console.syncedHost found.endpoint.host = false ∧
      syncOwnsPort owned.port owned.console.syncedPort found.port = true ∧
      (found.port ≠ owned.port ∨ some found.port ≠ owned.console.syncedPort) ∧
      ∀ endpoint ∈ device.endpoints, endpoint.kind = transportKind owned.protocol → endpoint.host ≠ [] →
        endpoint.portFor owned.protocol ≠ found.port

/-- The sync would move the record to the device's transport, and a half of the address is
taken without the other. -/
def HalfTaken (device : TreeDevice) (deviceProtocol : Option ServerProtocol) (owned : ServerConfig) : Prop :=
  syncOwnsProtocol owned.protocol (owned.origin.bind ServerOrigin.syncedProtocol) deviceProtocol = true ∧
    transportKind owned.protocol ≠ transportKind deviceProtocol ∧
    ∃ found, selectEndpointForProtocol device deviceProtocol = some found ∧ HalfTakenAt device owned found

variable {protocol : Option ServerProtocol}

theorem selectEndpointForProtocol_spec {hit : OwnedEndpoint}
    (selected : selectEndpointForProtocol device protocol = some hit) :
    hit.endpoint ∈ device.endpoints ∧ hit.endpoint.kind = transportKind protocol ∧ hit.endpoint.host ≠ [] ∧
      hit.port = hit.endpoint.portFor protocol := by
  unfold selectEndpointForProtocol at selected
  unfold transportKind InventoryEndpoint.portFor transportPort resolveServerProtocol
  by_cases telnet : protocol = some .telnet
  · simp only [telnet, beq_self_eq_true, if_true] at selected ⊢
    cases chosen : selectTelnetEndpoint device with
    | none =>
      rw [chosen] at selected
      cases selected
    | some endpoint =>
      have fits := List.find?_some chosen
      simp only [chosen, Option.ite_none_right_eq_some, Option.some.injEq] at selected
      obtain ⟨_, rfl⟩ := selected
      refine ⟨List.mem_of_find?_eq_some chosen, ?_, ?_, rfl⟩ <;> simp_all
  · simp only [telnet, beq_eq_false_iff_ne.mpr telnet, Bool.false_eq_true, if_false] at selected ⊢
    cases chosen : selectSshEndpoint device with
    | none =>
      rw [chosen] at selected
      cases selected
    | some endpoint =>
      have fits := List.find?_some chosen
      simp only [chosen, Option.ite_none_right_eq_some, Option.some.injEq] at selected
      obtain ⟨_, rfl⟩ := selected
      refine ⟨List.mem_of_find?_eq_some chosen, ?_, ?_, rfl⟩ <;> simp_all

theorem telnet_iff_transportKind : protocol = some .telnet ↔ transportKind protocol = .telnet := by
  unfold transportKind resolveServerProtocol
  split <;> simp_all

theorem portFor_congr {other : Option ServerProtocol} (same : transportKind protocol = transportKind other)
    (endpoint : InventoryEndpoint) : endpoint.portFor protocol = endpoint.portFor other := by
  have telnet : protocol = some .telnet ↔ other = some .telnet := by
    rw [telnet_iff_transportKind, telnet_iff_transportKind, same]
  unfold InventoryEndpoint.portFor transportPort resolveServerProtocol
  simp [telnet]

section

variable (device owned) (deviceProtocol : Option ServerProtocol)

def effectiveProtocol : Option ServerProtocol :=
  if syncOwnsProtocol owned.protocol (owned.origin.bind ServerOrigin.syncedProtocol) deviceProtocol then deviceProtocol
  else owned.protocol

def consoleAt (found : OwnedEndpoint) : Console :=
  let takesHost := syncOwnsHost owned.host owned.console.syncedHost found.endpoint.host
  let takesPort := syncOwnsPort owned.port owned.console.syncedPort found.port
  { host := if takesHost then found.endpoint.host else owned.host
    port := if takesPort then found.port else owned.port
    protocol := if takesHost && takesPort then effectiveProtocol owned deviceProtocol else owned.protocol
    username := if takesHost && takesPort then found.endpoint.username <|> owned.username else owned.username
    syncedHost := if takesHost then some found.endpoint.host else owned.console.syncedHost
    syncedPort := if takesPort then some found.port else owned.console.syncedPort }

theorem console_updatedRecord (addresses : DeviceAddresses) (group : Option Text) (matrix : TemplateMatrixResult) :
    (updatedRecord input device deviceProtocol addresses group matrix owned).console =
      ((selectEndpointForProtocol device (effectiveProtocol owned deviceProtocol)).map
        (consoleAt owned deviceProtocol)).getD owned.console := by
  unfold updatedRecord decideEndpoint EndpointDecision.takesEndpoint
  dsimp only
  rw [show (if syncOwnsProtocol owned.protocol (owned.origin.bind ServerOrigin.syncedProtocol) deviceProtocol =
    true then
    deviceProtocol else owned.protocol) = effectiveProtocol owned deviceProtocol from rfl]
  cases selectEndpointForProtocol device (effectiveProtocol owned deviceProtocol) with
  | none => simp [ServerConfig.console]
  | some hit =>
    unfold consoleAt effectiveProtocol
    have username : (if hit.endpoint.username.isSome = true then hit.endpoint.username else owned.username) =
        hit.endpoint.username.or owned.username := by cases hit.endpoint.username <;> rfl
    by_cases protocol :
      syncOwnsProtocol owned.protocol (owned.origin.bind ServerOrigin.syncedProtocol) deviceProtocol <;>
      by_cases host : syncOwnsHost owned.host (owned.origin.bind ServerOrigin.syncedHost) hit.endpoint.host <;>
      by_cases port : syncOwnsPort owned.port (owned.origin.bind ServerOrigin.syncedPort) hit.port <;>
      simp [ServerConfig.console, host, port, username]

variable {device owned deviceProtocol}

theorem effectiveProtocol_of_moved (moved : transportKind owned.protocol ≠
      transportKind (effectiveProtocol owned deviceProtocol)) :
    syncOwnsProtocol owned.protocol (owned.origin.bind ServerOrigin.syncedProtocol) deviceProtocol = true ∧
      effectiveProtocol owned deviceProtocol = deviceProtocol := by
  unfold effectiveProtocol at moved ⊢
  split at moved
  · next owns => exact ⟨owns, by rw [if_pos owns]⟩
  · exact absurd rfl moved

theorem coherent_consoleAt {hit : OwnedEndpoint}
    (selected : selectEndpointForProtocol device (effectiveProtocol owned deviceProtocol) = some hit)
    (fits : transportKind (consoleAt owned deviceProtocol hit).protocol =
      transportKind (effectiveProtocol owned deviceProtocol)) :
    Coherent device owned.console (consoleAt owned deviceProtocol hit) := by
  obtain ⟨mem, kind, host, port⟩ := selectEndpointForProtocol_spec selected
  refine fun _ => ⟨hit.endpoint, mem, kind.trans fits.symm, host, ?_, ?_, ?_⟩
  · intro wrote
    unfold consoleAt at wrote ⊢
    dsimp only [Console.WroteHost] at wrote ⊢
    split at wrote
    · next takes => exact ⟨if_pos takes, if_pos takes⟩
    · exact absurd wrote (by simp [ServerConfig.console])
  · intro wrote
    rw [portFor_congr fits, ← port]
    unfold consoleAt at wrote ⊢
    dsimp only [Console.WrotePort] at wrote ⊢
    split at wrote
    · next takes => exact ⟨if_pos takes, if_pos takes⟩
    · exact absurd wrote (by simp [ServerConfig.console])
  · intro wrote
    unfold consoleAt at wrote ⊢
    dsimp only at wrote ⊢
    split at wrote
    · cases username : hit.endpoint.username with
      | none =>
        rw [username] at wrote
        exact absurd rfl wrote
      | some name =>
        refine ⟨rfl, ?_⟩
        split
        · rfl
        · next keeps => exact absurd ‹_› keeps
    · exact absurd rfl wrote

theorem coherent_host {console : Console} {host : Text} (named : host ≠ []) :
    Coherent device console { console with host, syncedHost := some host } ↔
      (host ≠ console.host ∨ some host ≠ console.syncedHost →
        ∃ endpoint ∈ device.endpoints, endpoint.kind = transportKind console.protocol ∧
          endpoint.host = host) := by
  constructor
  · intro coherent written
    obtain ⟨endpoint, mem, kind, _, follows⟩ := coherent (.inl written)
    exact ⟨endpoint, mem, kind, (follows.host written).1.symm⟩
  · rintro offered (written | (same | same) | same)
    · obtain ⟨endpoint, mem, kind, rfl⟩ := offered written
      refine ⟨endpoint, mem, kind, named, fun _ => ⟨rfl, rfl⟩, ?_, fun same => absurd rfl same⟩
      rintro (same | same) <;> exact absurd rfl same
    all_goals exact absurd rfl same

theorem coherent_port {console : Console} {port : ℚ} :
    Coherent device console { console with port, syncedPort := some port } ↔
      (port ≠ console.port ∨ some port ≠ console.syncedPort →
        ∃ endpoint ∈ device.endpoints, endpoint.kind = transportKind console.protocol ∧ endpoint.host ≠ [] ∧
          endpoint.portFor console.protocol = port) := by
  constructor
  · intro coherent written
    obtain ⟨endpoint, mem, kind, named, follows⟩ := coherent (.inr (.inl written))
    exact ⟨endpoint, mem, kind, named, (follows.port written).1.symm⟩
  · rintro offered ((same | same) | written | same)
    · exact absurd rfl same
    · exact absurd rfl same
    · obtain ⟨endpoint, mem, kind, named, rfl⟩ := offered written
      refine ⟨endpoint, mem, kind, named, ?_, fun _ => ⟨rfl, rfl⟩, fun same => absurd rfl same⟩
      rintro (same | same) <;> exact absurd rfl same
    · exact absurd rfl same

theorem coherent_iff_not_halfTaken :
    Coherent device owned.console
      (((selectEndpointForProtocol device (effectiveProtocol owned deviceProtocol)).map
        (consoleAt owned deviceProtocol)).getD owned.console) ↔ ¬HalfTaken device deviceProtocol owned := by
  cases selected : selectEndpointForProtocol device (effectiveProtocol owned deviceProtocol) with
  | none =>
    refine iff_of_true (Coherent.refl device _) ?_
    rintro ⟨owns, -, found, chosen, -⟩
    rw [effectiveProtocol, if_pos owns, chosen] at selected
    cases selected
  | some found =>
    rw [Option.map_some, Option.getD_some]
    by_cases stays : transportKind owned.protocol = transportKind (effectiveProtocol owned deviceProtocol)
    · refine iff_of_true (coherent_consoleAt selected ?_) ?_
      · unfold consoleAt
        dsimp only
        split
        · rfl
        · exact stays
      · rintro ⟨owns, moved, -⟩
        rw [effectiveProtocol, if_pos owns] at stays
        exact moved stays
    obtain ⟨owns, effective⟩ := effectiveProtocol_of_moved stays
    have only : HalfTaken device deviceProtocol owned ↔ HalfTakenAt device owned found := by
      rw [effective] at selected stays
      constructor
      · rintro ⟨-, -, found', chosen, half⟩
        obtain rfl := Option.mem_unique selected chosen
        exact half
      · exact fun half => ⟨owns, stays, found, selected, half⟩
    rw [only, HalfTakenAt]
    by_cases host : syncOwnsHost owned.host owned.console.syncedHost found.endpoint.host = true <;>
      by_cases port : syncOwnsPort owned.port owned.console.syncedPort found.port = true
    · refine iff_of_true (coherent_consoleAt selected ?_) ?_
      · simp [consoleAt, host, port]
      · simp [host, port]
    · have console : consoleAt owned deviceProtocol found = { owned.console with
          host := found.endpoint.host, syncedHost := some found.endpoint.host } := by
        simp only [consoleAt, host, port]
        rfl
      rw [console, coherent_host (selectEndpointForProtocol_spec selected).2.2.1]
      simp [host, port]
      exact Iff.rfl
    · have console : consoleAt owned deviceProtocol found = { owned.console with
          port := found.port, syncedPort := some found.port } := by
        simp only [consoleAt, host, port]
        rfl
      rw [console, coherent_port]
      simp [host, port]
      exact Iff.rfl
    · have console : consoleAt owned deviceProtocol found = owned.console := by
        simp only [consoleAt, host, port]
        rfl
      rw [console]
      exact iff_of_true (Coherent.refl device _) (by simp [host, port])

theorem HalfTaken.wrote (taken : HalfTaken device deviceProtocol owned) :
    owned.console.WroteHost (((selectEndpointForProtocol device (effectiveProtocol owned deviceProtocol)).map
        (consoleAt owned deviceProtocol)).getD owned.console) ∨
      owned.console.WrotePort (((selectEndpointForProtocol device (effectiveProtocol owned deviceProtocol)).map
        (consoleAt owned deviceProtocol)).getD owned.console) := by
  obtain ⟨owns, -, hit, selected, half⟩ := taken
  rw [effectiveProtocol, if_pos owns, selected, Option.map_some, Option.getD_some]
  rcases half with ⟨host, _, written, _⟩ | ⟨_, port, written, _⟩
  · left
    simp only [consoleAt, host]
    exact written
  · right
    simp only [consoleAt, port]
    exact written

end

theorem recordChanged_of_wrote {pre after : ServerConfig}
    (wrote : pre.console.WroteHost after.console ∨ pre.console.WrotePort after.console) :
    recordChanged pre after = true := by
  by_contra same
  rw [Bool.not_eq_true] at same
  simp only [recordChanged, Bool.or_eq_false_iff, bne_eq_false_iff_eq, Bool.not_eq_false'] at same
  have host : pre.host = after.host := by tauto
  have port : pre.port = after.port := by tauto
  have stamps : serverOriginStampsEqual pre.origin after.origin = true := by tauto
  have synced : pre.console.syncedHost = after.console.syncedHost ∧
      pre.console.syncedPort = after.console.syncedPort := by
    unfold serverOriginStampsEqual at stamps
    unfold ServerConfig.console
    cases held : pre.origin <;> cases held' : after.origin <;> simp_all
  rcases wrote with (wrote | wrote) | (wrote | wrote)
  · exact wrote host.symm
  · exact wrote synced.1.symm
  · exact wrote port.symm
  · exact wrote synced.2.symm

variable {primary : PrimaryEndpoint}

theorem selectEndpointForProtocol_primary
    (console : selectPrimaryEndpoint device = some primary) :
    selectEndpointForProtocol device primary.protocol =
      if isValidPort primary.port then some ⟨primary.endpoint, primary.port⟩ else none := by
  unfold selectPrimaryEndpoint at console
  unfold selectEndpointForProtocol
  cases ssh : selectSshEndpoint device with
  | some endpoint =>
    rw [ssh] at console
    obtain rfl := Option.some.inj console
    rfl
  | none =>
    cases telnet : selectTelnetEndpoint device with
    | none =>
      rw [ssh, telnet] at console
      cases console
    | some endpoint =>
      rw [ssh, telnet] at console
      obtain rfl := Option.some.inj console
      rfl

theorem console_ownedAfter (console : selectPrimaryEndpoint device = some primary) :
    (ownedAfter env input device owned).console =
      ((selectEndpointForProtocol device (effectiveProtocol owned primary.protocol)).map
        (consoleAt owned primary.protocol)).getD owned.console := by
  unfold ownedAfter
  rw [console]
  exact (console_updateAfter primary _ _ _).trans (console_updatedRecord device owned primary.protocol _ _ _)

theorem HalfTaken.usable (console : selectPrimaryEndpoint device = some primary)
    (taken : HalfTaken device primary.protocol owned) : isUsable device = true := by
  obtain ⟨-, -, endpoint, selected, -⟩ := taken
  rw [selectEndpointForProtocol_primary console] at selected
  unfold isUsable
  rw [console, Option.all_some]
  by_contra invalid
  rw [if_neg invalid] at selected
  cases selected

theorem HalfTaken.kept (decided : device ∈ decidedDevices input)
    (hit : input.ownedByExternalId.get? device.externalId = some owned)
    (console : selectPrimaryEndpoint device = some primary) (taken : HalfTaken device primary.protocol owned) :
    ⟨owned, ownedAfter env input device owned⟩ ∈ keptUpdates env input := by
  have wrote := taken.wrote
  rw [← @console_ownedAfter env input device owned primary console] at wrote
  have usable := taken.usable console
  have changed : ownedChanged env input device owned = true := by
    unfold ownedChanged
    rw [console]
    dsimp only
    rw [updateChanged, recordChanged_of_wrote wrote]
    rfl
  refine mem_keptUpdates.mpr ⟨mem_loopUpdates decided hit usable changed, not_collapsed fun record same => ?_⟩
  rw [← console_of_core same] at wrote
  rw [updateStillChanged, recordChanged_of_wrote wrote]
  rfl

/-- What a plan writes is one endpoint's of the server's transport, unless a half of the address is taken. -/
theorem update_coherent (distinct : DistinctIds input) {u : ServerUpdate} {primary : PrimaryEndpoint}
    (planned : u ∈ (computeSyncPlan env input).updates) (decided : device ∈ decidedDevices input)
    (found : input.ownedByExternalId.get? device.externalId = some u.before)
    (console : selectPrimaryEndpoint device = some primary) :
    Coherent device u.before.console u.after.console ↔ ¬HalfTaken device primary.protocol u.before := by
  have untouched : ∀ record : ServerConfig, record.core = u.before.core →
      u.before.id ∉ (keptUpdates env input).map (fun v => v.before.id) →
      (Coherent device u.before.console record.console ↔ ¬HalfTaken device primary.protocol u.before) := by
    intro record same absent
    rw [console_of_core same]
    refine iff_of_true (Coherent.refl device _) fun taken => absent ?_
    exact List.mem_map.mpr ⟨_, taken.kept decided found console, rfl⟩
  cases (mem_updates distinct).mp planned with
  | kept v member =>
    rw [console_of_core (core_settledAfter v)]
    have update := LoopUpdate.of_mem (mem_keptUpdates.mp member).1
    cases update with
    | owned device' owned decided' found' usable changed =>
      have key := (owned_key found').symm.trans (owned_key found)
      obtain rfl := eq_of_externalId decided' decided (Option.some.inj key)
      rw [console_ownedAfter console]
      exact coherent_iff_not_halfTaken
    | adopted device' primary' adoptee decided' adopts eligible =>
      obtain ⟨origin, held, _⟩ := owned_origin found
      rw [(eligible_spec eligible).2.1] at held
      cases held
    | unlinked externalId owned found' undecided present rollback =>
      have key := (owned_key found').symm.trans (owned_key found)
      obtain rfl := Option.some.inj key
      rw [console_withSourceLinkCleared]
      refine iff_of_true (Coherent.refl device _) fun taken => undecided ?_
      exact mem_decidedOwned.mpr ⟨device, decided, taken.usable console, rfl, by rw [found]; rfl⟩
  | proxy record member =>
    refine untouched _ ?_ (not_kept_of_unplanned (mem_unplannedProxies.mp member).2.1)
    rw [gatewayPass_keepsCore.dropIn, proxyPass_keepsCore.drop]
  | gateway record member =>
    refine untouched _ ?_ (not_kept_of_unplanned (mem_unplannedGateways.mp member).2.1.1)
    rw [gatewayPass_keepsCore.drop]

def dualStackDevice : TreeDevice where
  name := "edge".toList
  externalId := "7".toList
  endpoints := [⟨.ssh, "10.0.0.1".toList, none, none⟩, ⟨.telnet, "10.0.0.1".toList, none, none⟩]

def telnetServer (host : Text) : ServerConfig where
  id := "r".toList
  name := "edge".toList
  host
  port := 23
  protocol := some .telnet
  username := some "root".toList
  authType := .password
  origin := some
    { sourceId := "s".toList
      externalId := "7".toList
      syncedAt := 0
      syncedUsername := some "root".toList
      syncedProtocol := some .telnet
      syncedHost := some "10.0.0.1".toList
      syncedPort := some 23 }

def dualStackInput (host : Text) : ComputeSyncPlanInput where
  source :=
    { id := "s".toList
      providerId := "netbox".toList
      name := "Lab".toList
      targetFolder := []
      prunePolicy := .keep
      defaultUsername := "root".toList }
  tree := { devices := [dualStackDevice] }
  currentServers := [telnetServer host]
  now := 1

def ServerConfig.readdressed (server : ServerConfig) (syncedPort : ℚ) (protocol synced : Option ServerProtocol) :
    ServerConfig :=
  { server with
    port := syncedPort
    protocol
    origin := server.origin.map fun origin =>
      { origin with syncedAt := 1, syncedPort := some syncedPort, syncedProtocol := synced } }

theorem update_coherent_moved :
    Coherent dualStackDevice (telnetServer "10.0.0.1".toList).console
      ((telnetServer "10.0.0.1".toList).readdressed 22 none none).console := by
  refine (@update_coherent plainSyncPlatform (dualStackInput "10.0.0.1".toList) dualStackDevice
    (List.nodup_singleton _) ⟨telnetServer "10.0.0.1".toList,
      _⟩ ⟨⟨.ssh, "10.0.0.1".toList, none, none⟩, none, 22⟩
    (by decide +kernel) (List.mem_singleton_self _) (by decide +kernel) rfl).mpr ?_
  rintro ⟨-, -, found, -, ⟨-, port, -⟩ | ⟨host, -⟩⟩
  · exact absurd port (by simp [telnetServer, ServerConfig.console, syncOwnsPort, addresslessPort])
  · cases host

/-- A server whose host was edited stays with telnet, and gets the port of ssh. -/
theorem halfTaken_incoherent :
    ⟨telnetServer "10.9.9.9".toList,
      (telnetServer "10.9.9.9".toList).readdressed 22 (some .telnet) (some .telnet)⟩ ∈
        (computeSyncPlan plainSyncPlatform (dualStackInput "10.9.9.9".toList)).updates ∧
      (dualStackInput "10.9.9.9".toList).ownedByExternalId.get? dualStackDevice.externalId =
        some (telnetServer "10.9.9.9".toList) ∧
      ¬Coherent dualStackDevice (telnetServer "10.9.9.9".toList).console
        ((telnetServer "10.9.9.9".toList).readdressed 22 (some .telnet) (some .telnet)).console := by
  refine ⟨by decide +kernel, by decide +kernel, fun coherent => ?_⟩
  have wrote : (telnetServer "10.9.9.9".toList).console.WrotePort
      ((telnetServer "10.9.9.9".toList).readdressed 22 (some .telnet) (some .telnet)).console :=
    .inl (by decide)
  obtain ⟨endpoint, member, kind, _, follows⟩ := coherent (.inr (.inl wrote))
  have port := (follows.port wrote).1
  rcases List.mem_pair.mp member with rfl | rfl
  · cases kind
  · revert port
    decide

end NexTerminal.Inventory
