import NexTerminal.Inventory.TemplateApply

namespace NexTerminal.Inventory

open Library Exchange

structure InventoryTree where
  devices : List TreeDevice
  warnings : List Text := []
  truncated : Bool := false

inductive InventoryAdoptionChoice
  | adopt | decline
deriving DecidableEq

/-- What the engine takes from elsewhere: the text functions, the hash that makes a device's
server id, and which texts are addresses. -/
structure SyncPlatform extends TextPlatform where
  deterministicServerId : Text → Text → Text
  isAddressValue : Text → Bool

def plainSyncPlatform : SyncPlatform where
  toTextPlatform := asciiPlatform
  deterministicServerId sourceId externalId := sourceId ++ ':' :: externalId
  isAddressValue text := !text.isEmpty

structure ComputeSyncPlanInput where
  source : InventorySourceConfig
  tree : InventoryTree
  currentServers : List ServerConfig
  now : ℚ
  authProfile : Option AuthProfile := none
  adoptionChoice : Option InventoryAdoptionChoice := none
  providerInstanceKey : Option Text := none
  templatesById : Text → Option DeviceTemplateProfile := fun _ => none
  authProfilesById : Text → Option AuthProfile := fun _ => none

def ServerConfig.externalId (server : ServerConfig) : Option Text := server.origin.map ServerOrigin.externalId

namespace ComputeSyncPlanInput

variable (env : SyncPlatform) (input : ComputeSyncPlanInput)

def matchedProfile : Option AuthProfile :=
  input.authProfile.filter fun profile => input.source.authProfileId == some profile.id

def keylessKeyProfile : Bool := authProfileNeedsServerKeyPath input.matchedProfile

def resolvedProfileId : Option Text :=
  if input.keylessKeyProfile then none else input.matchedProfile.map AuthProfile.id

def emitAuthWarning : Bool := input.source.authProfileId.isSome && input.resolvedProfileId.isNone

def preparedRules : PrepareRulesResult :=
  prepareTemplateRules env.toTextPlatform (input.source.templateRules.getD []) input.templatesById
    input.source.name

def liveServer (id : Text) : Bool :=
  input.currentServers.any (·.id == id) ||
    input.tree.devices.any fun device => env.deterministicServerId input.source.id device.externalId == id

def resolveAuthProfileById (id : Text) : Option AuthProfile :=
  input.authProfilesById id <|> input.matchedProfile.filter fun profile => profile.id == id

def isLinked (server : ServerConfig) : Bool := server.origin.any fun origin => origin.sourceId == input.source.id

/-- The first server in the list for each of the source's devices. -/
def ownedByExternalId : SeqMap Text ServerConfig :=
  (input.currentServers.filter input.isLinked).foldl
    (fun owned server =>
      match server.externalId with
      | none => owned
      | some externalId => if owned.has externalId then owned else owned.set externalId server)
    .empty

def multipleOwnerWarnings : List SyncWarning :=
  (input.currentServers.filter input.isLinked).filterMap fun server =>
    server.externalId.bind fun externalId => (input.ownedByExternalId.get? externalId).bind fun owner =>
      if owner.id = server.id then none else some (.multipleOwners externalId owner.name)

/-- `new Map`: the last of an id counts. -/
def serversById (id : Text) : Option ServerConfig := (input.currentServers.filter (·.id == id)).getLast?

def manualByHostPort (host : Text) (port : ℚ) : Option ServerConfig :=
  (input.currentServers.filter fun server =>
    !input.isLinked server && env.toLowerCase server.host == env.toLowerCase host &&
      server.port == port).getLast?

/-- A server that a removed source of the provider left behind. -/
def isKept (server : ServerConfig) : Bool :=
  server.origin.isNone && server.formerlySynced.any fun kept => kept.providerId == input.source.providerId

def isOfThisInstance (server : ServerConfig) : Bool :=
  server.formerlySynced.any fun kept => sameProviderInstance kept input.providerInstanceKey

def keptServers : List ServerConfig :=
  input.currentServers.filter fun server => input.isKept server && input.isOfThisInstance server

def keptExternalId (server : ServerConfig) : Option Text := server.formerlySynced.map DetachedServerOrigin.externalId

def keptByExternalId (externalId : Text) : List ServerConfig :=
  input.keptServers.filter fun server => keptExternalId server == some externalId

def foreignInstanceByExternalId (externalId : Text) : List ServerConfig :=
  input.currentServers.filter fun server =>
    input.isKept server && !input.isOfThisInstance server && keptExternalId server == some externalId

/-- `Array.from(keptByExternalId.values()).flat()`. -/
def keptByGroups : List ServerConfig :=
  (input.keptServers.filterMap keptExternalId).eraseDups.flatMap input.keptByExternalId

def profilesNeedingServerKey : SeqMap Text ProfileReferrer :=
  computeProfilesNeedingServerKey input.source input.ownedByExternalId.values input.matchedProfile input.templatesById
    input.resolveAuthProfileById

def unusableProfile (id : Text) : Bool := input.profilesNeedingServerKey.has id

def presentExternalIds : List Text :=
  (input.tree.devices.map TreeDevice.externalId).filter fun externalId => !externalId.isEmpty

end ComputeSyncPlanInput

def joinTargetAndRel (targetFolder : Text) (rel : Option Text) : Option Text :=
  match rel.filter fun rel => !rel.isEmpty with
  | none => if targetFolder.isEmpty then none else some targetFolder
  | some rel => some (if targetFolder.isEmpty then rel else targetFolder ++ '/' :: rel)

/-- The folder of a device, with what is to be said about it. -/
def resolveDeviceGroup (source : InventorySourceConfig) (device : TreeDevice) : Option Text × List SyncWarning :=
  let folderPath := device.folderPath.filter fun path => !path.isEmpty
  let rel := folderPath.bind normalizeFolderPath
  let invalid := match folderPath with
    | some path => if rel.isNone then [SyncWarning.invalidFolder device.name device.externalId path] else []
    | none => []
  match joinTargetAndRel source.targetFolder rel with
  | none => (none, invalid)
  | some joined =>
    match normalizeFolderPath joined with
    | some normalized => (some normalized, invalid)
    | none =>
      (if source.targetFolder.isEmpty then none else some source.targetFolder,
        invalid ++ [.folderTooDeep device.name device.externalId])

structure DeviceTemplates where
  cascade : CascadeResult
  composed : ComposedDesiredFields
  winnerProfile : Option AuthProfile

namespace DeviceTemplates

variable (self : DeviceTemplates)

def gatewayTemplateName : Option Text :=
  (self.cascade.provenance .ipmiGatewayServerId).map FieldProvenance.templateName

def effectiveAuthWinner : Option AuthWinner :=
  (self.cascade.winners .authProfileId).filter fun _ => self.winnerProfile.isSome

def winnerResolvedId : Option Text :=
  if authProfileNeedsServerKeyPath self.winnerProfile then none
  else self.effectiveAuthWinner.map TemplateField.value

def danglingAuthWinner : Bool :=
  (self.cascade.winners .authProfileId).isSome && self.winnerProfile.isNone && !self.cascade.authFromImplicit

end DeviceTemplates

def ComputeSyncPlanInput.deviceTemplates (env : SyncPlatform) (input : ComputeSyncPlanInput)
    (device : InventoryDevice) : DeviceTemplates :=
  let cascade := selectFieldWinners env.toTextPlatform device (input.preparedRules env).prepared
    input.source.authProfileId
  { cascade
    composed := composeDesiredFields cascade.winners
      { hasAuthProfile := fun id => (input.resolveAuthProfileById id).isSome
        hasServer := input.liveServer env
        proxyTemplateName := cascade.proxyTemplateName
        ipmiAuthProfileTemplateName := (cascade.provenance .ipmiAuthProfileId).map FieldProvenance.templateName
        ipmiGatewayServerTemplateName := (cascade.provenance .ipmiGatewayServerId).map FieldProvenance.templateName
        sourceName := input.source.name }
    winnerProfile := (cascade.winners .authProfileId).bind fun won => input.resolveAuthProfileById won.value }

def DeviceTemplates.matrix (templates : DeviceTemplates) (server : Option ServerConfig) (serverId deviceName : Text) :
    TemplateMatrixResult :=
  applyTemplateMatrix server templates.composed.desired
    { targetServerId := serverId
      targetServerName := deviceName
      proxyTemplateName := templates.cascade.proxyTemplateName
      ipmiGatewayTemplateName := templates.gatewayTemplateName }

/-- The values of the matrix; a proxy to the server itself that a template owns goes. -/
def ServerConfig.withMatrix (server : ServerConfig) (matrix : TemplateMatrixResult) : ServerConfig :=
  { server.withTemplateValues matrix.values with
    proxy := if matrix.clearProxy then none else matrix.values.proxy <|> server.proxy }

def ServerConfig.withAuthDecision (server : ServerConfig) : TemplateAuthDecision → ServerConfig
  | .write profileId =>
    { server with
      authProfileId := some profileId
      origin := server.origin.map fun origin => { origin with syncedAuthProfileId := some profileId } }
  | _ => server

def ServerConfig.withRollback (server : ServerConfig) (unusableProfileIds : Text → Bool) : ServerConfig :=
  if decideSourceAuthRollback server unusableProfileIds = .unlink then withSourceLinkCleared server else server

/-- An alternate host of the sync's that has become the host is dropped. -/
def ServerConfig.withoutOwnAltHost (server : ServerConfig) : ServerConfig :=
  if server.altHost = some server.host ∧ server.origin.bind ServerOrigin.syncedAltHost = server.altHost then
    { server with
      altHost := none
      origin := server.origin.map fun origin => { origin with syncedAltHost := none } }
  else server

structure EndpointDecision where
  takesProtocol : Bool
  ownedEndpoint : Option OwnedEndpoint
  takesHost : Bool
  takesPort : Bool

def EndpointDecision.takesEndpoint (decision : EndpointDecision) : Bool := decision.takesHost && decision.takesPort

/-- The endpoint is chosen for the protocol the record is to have, if the sync owns that. -/
def decideEndpoint (device : TreeDevice) (deviceProtocol : Option ServerProtocol) (owned : ServerConfig) :
    EndpointDecision :=
  let takesProtocol := syncOwnsProtocol owned.protocol (owned.origin.bind ServerOrigin.syncedProtocol) deviceProtocol
  let effectiveProtocol := if takesProtocol then deviceProtocol else owned.protocol
  let ownedEndpoint := selectEndpointForProtocol device effectiveProtocol
  { takesProtocol
    ownedEndpoint
    takesHost := ownedEndpoint.any fun found =>
      syncOwnsHost owned.host (owned.origin.bind ServerOrigin.syncedHost) found.endpoint.host
    takesPort := ownedEndpoint.any fun found =>
      syncOwnsPort owned.port (owned.origin.bind ServerOrigin.syncedPort) found.port }

structure DeviceAddresses where
  mgmtHost : Option Text
  altHost : Option Text

/-- `after`, but for the auth profile. -/
def updatedRecord (input : ComputeSyncPlanInput) (device : TreeDevice) (deviceProtocol : Option ServerProtocol)
    (addresses : DeviceAddresses) (group : Option Text) (matrix : TemplateMatrixResult) (owned : ServerConfig) :
    ServerConfig :=
  let takesIpmiHost := addresses.mgmtHost.any fun host =>
    syncOwnsIpmiHost owned.ipmiHost (owned.origin.bind ServerOrigin.syncedIpmiHost) host
  let takesAltHost := addresses.altHost.any fun host =>
    syncOwnsAltHost owned.altHost (owned.origin.bind ServerOrigin.syncedAltHost) host
  let decision := decideEndpoint device deviceProtocol owned
  let ownedHost := decision.ownedEndpoint.map fun found => found.endpoint.host
  let ownedPort := decision.ownedEndpoint.map OwnedEndpoint.port
  let ownedEndpointUsername := decision.ownedEndpoint.bind fun found => found.endpoint.username
  let takesUsername := decision.takesEndpoint && ownedEndpointUsername.isSome
  let takesProtocol := decision.takesProtocol && decision.takesEndpoint
  { owned.withMatrix matrix with
    name := device.name
    group
    username := if takesUsername then ownedEndpointUsername else owned.username
    host := if decision.takesHost then ownedHost.getD owned.host else owned.host
    port := if decision.takesPort then ownedPort.getD owned.port else owned.port
    ipmiHost := if takesIpmiHost then addresses.mgmtHost else owned.ipmiHost
    altHost := if takesAltHost then addresses.altHost else owned.altHost
    protocol := if takesProtocol then deviceProtocol else owned.protocol
    addressless := if decision.ownedEndpoint.isSome then none else owned.addressless
    origin := some
      { sourceId := input.source.id
        externalId := device.externalId
        syncedAt := input.now
        syncedInstanceKey := input.providerInstanceKey
        syncedUsername :=
          if takesUsername then ownedEndpointUsername else owned.origin.bind ServerOrigin.syncedUsername
        syncedAuthProfileId := owned.origin.bind ServerOrigin.syncedAuthProfileId
        syncedIpmiHost :=
          if takesIpmiHost then addresses.mgmtHost else owned.origin.bind ServerOrigin.syncedIpmiHost
        syncedAltHost := if takesAltHost then addresses.altHost else owned.origin.bind ServerOrigin.syncedAltHost
        syncedProtocol := if takesProtocol then deviceProtocol else owned.origin.bind ServerOrigin.syncedProtocol
        syncedHost := if decision.takesHost then ownedHost else owned.origin.bind ServerOrigin.syncedHost
        syncedPort := if decision.takesPort then ownedPort else owned.origin.bind ServerOrigin.syncedPort
        templated := matrix.templated } }

def blanksAddress (owned : ServerConfig) : Bool :=
  syncOwnsHost owned.host (owned.origin.bind ServerOrigin.syncedHost) [] &&
    syncOwnsPort owned.port (owned.origin.bind ServerOrigin.syncedPort) addresslessPort

def downgradedRecord (input : ComputeSyncPlanInput) (device : TreeDevice) (mgmtHost group : Option Text)
    (matrix : TemplateMatrixResult) (owned : ServerConfig) : ServerConfig :=
  let takesIpmiHost := mgmtHost.any fun host =>
    syncOwnsIpmiHost owned.ipmiHost (owned.origin.bind ServerOrigin.syncedIpmiHost) host
  let clearsProtocol := blanksAddress owned &&
    syncOwnsProtocol owned.protocol (owned.origin.bind ServerOrigin.syncedProtocol) none
  { owned.withMatrix matrix with
    name := device.name
    group
    host := if blanksAddress owned then [] else owned.host
    port := if blanksAddress owned then addresslessPort else owned.port
    addressless := if blanksAddress owned then some true else none
    protocol := if clearsProtocol then none else owned.protocol
    ipmiHost := if takesIpmiHost then mgmtHost else owned.ipmiHost
    origin := some
      { sourceId := input.source.id
        externalId := device.externalId
        syncedAt := input.now
        syncedInstanceKey := input.providerInstanceKey
        syncedUsername := owned.origin.bind ServerOrigin.syncedUsername
        syncedAuthProfileId := owned.origin.bind ServerOrigin.syncedAuthProfileId
        syncedIpmiHost := if takesIpmiHost then mgmtHost else owned.origin.bind ServerOrigin.syncedIpmiHost
        syncedAltHost := owned.origin.bind ServerOrigin.syncedAltHost
        syncedProtocol := if clearsProtocol then none else owned.origin.bind ServerOrigin.syncedProtocol
        syncedHost := if blanksAddress owned then none else owned.origin.bind ServerOrigin.syncedHost
        syncedPort := if blanksAddress owned then none else owned.origin.bind ServerOrigin.syncedPort
        templated := matrix.templated } }

/-- The record of a new server of an endpoint, or of a placeholder without one. -/
def newRecord (input : ComputeSyncPlanInput) (device : TreeDevice) (id : Text) (primary : Option PrimaryEndpoint)
    (addresses : DeviceAddresses) (group : Option Text) (authProfileId : Option Text) (matrix : TemplateMatrixResult) :
    ServerConfig :=
  let username := (primary.bind fun found => found.endpoint.username).getD input.source.defaultUsername
  { id
    name := device.name
    host := (primary.map fun found => found.endpoint.host).getD []
    port := (primary.map PrimaryEndpoint.port).getD addresslessPort
    addressless := if primary.isNone then some true else none
    username := some username
    authType := .agent
    authProfileId
    isHidden := false
    group
    proxy := matrix.values.proxy
    multiplexing := matrix.values.multiplexing
    legacyAlgorithms := matrix.values.legacyAlgorithms
    logSession := matrix.values.logSession
    ipmiAuthProfileId := matrix.values.ipmiAuthProfileId
    ipmiGatewayServerId := matrix.values.ipmiGatewayServerId
    ipmiHost := addresses.mgmtHost
    altHost := addresses.altHost
    protocol := primary.bind PrimaryEndpoint.protocol
    origin := some
      { sourceId := input.source.id
        externalId := device.externalId
        syncedAt := input.now
        syncedInstanceKey := input.providerInstanceKey
        syncedUsername := some username
        syncedAuthProfileId := authProfileId
        syncedIpmiHost := addresses.mgmtHost
        syncedAltHost := addresses.altHost
        syncedProtocol := primary.bind PrimaryEndpoint.protocol
        syncedHost := primary.map fun found => found.endpoint.host
        syncedPort := primary.map PrimaryEndpoint.port
        templated := matrix.templated } }

/-- The adoptee as the matrix sees it: with the stamps it had before its source was removed. -/
def adopteeForMatrix (input : ComputeSyncPlanInput) (device : TreeDevice) (adoptee : ServerConfig) : ServerConfig :=
  match adoptee.formerlySynced with
  | none => adoptee
  | some kept =>
    if templatedHasAnyStamp kept.templated then
      { adoptee with
        origin := some
          { sourceId := input.source.id
            externalId := device.externalId
            syncedAt := input.now
            templated := kept.templated } }
    else adoptee

def adoptionOrigin (input : ComputeSyncPlanInput) (device : TreeDevice) (primary : PrimaryEndpoint)
    (addresses : DeviceAddresses) (matrix : TemplateMatrixResult) (adoptee : ServerConfig) : ServerOrigin :=
  let kept {α : Type} (stamp : DetachedServerOrigin → Option α) : Option α := adoptee.formerlySynced.bind stamp
  { sourceId := input.source.id
    externalId := device.externalId
    syncedAt := input.now
    syncedInstanceKey := input.providerInstanceKey
    syncedUsername := primary.endpoint.username
    syncedAuthProfileId := kept DetachedServerOrigin.syncedAuthProfileId
    syncedIpmiHost :=
      if addresses.mgmtHost.any fun host =>
          syncOwnsIpmiHost adoptee.ipmiHost (kept DetachedServerOrigin.syncedIpmiHost) host then addresses.mgmtHost
      else kept DetachedServerOrigin.syncedIpmiHost
    syncedAltHost :=
      if addresses.altHost.any fun host =>
          syncOwnsAltHost adoptee.altHost (kept DetachedServerOrigin.syncedAltHost) host then addresses.altHost
      else kept DetachedServerOrigin.syncedAltHost
    syncedProtocol :=
      if syncOwnsProtocol adoptee.protocol (kept DetachedServerOrigin.syncedProtocol) primary.protocol then
        primary.protocol
      else kept DetachedServerOrigin.syncedProtocol
    syncedHost := some primary.endpoint.host
    syncedPort := some primary.port
    templated := matrix.templated }

/-- `after` of an adoption, but for the auth profile. -/
def adoptedRecord (input : ComputeSyncPlanInput) (device : TreeDevice) (primary : PrimaryEndpoint)
    (addresses : DeviceAddresses) (group : Option Text) (matrix : TemplateMatrixResult) (adoptee : ServerConfig) :
    ServerConfig :=
  let kept {α : Type} (stamp : DetachedServerOrigin → Option α) : Option α := adoptee.formerlySynced.bind stamp
  { adoptee.withMatrix matrix with
    name := device.name
    host := primary.endpoint.host
    port := primary.port
    group
    username := primary.endpoint.username <|> adoptee.username
    ipmiHost :=
      if addresses.mgmtHost.any fun host =>
          syncOwnsIpmiHost adoptee.ipmiHost (kept DetachedServerOrigin.syncedIpmiHost) host then addresses.mgmtHost
      else adoptee.ipmiHost
    altHost :=
      if addresses.altHost.any fun host =>
          syncOwnsAltHost adoptee.altHost (kept DetachedServerOrigin.syncedAltHost) host then addresses.altHost
      else adoptee.altHost
    protocol :=
      if syncOwnsProtocol adoptee.protocol (kept DetachedServerOrigin.syncedProtocol) primary.protocol then
        primary.protocol
      else adoptee.protocol
    origin := some (adoptionOrigin input device primary addresses matrix adoptee)
    formerlySynced := none }

structure ServerUpdate where
  before : ServerConfig
  after : ServerConfig
deriving DecidableEq

def recordChanged (before after : ServerConfig) : Bool :=
  before.name != after.name || before.host != after.host || before.port != after.port || before.group != after.group
    || before.authProfileId != after.authProfileId || before.ipmiHost != after.ipmiHost
    || !proxyConfigsEqual before.proxy after.proxy || before.multiplexing != after.multiplexing
    || before.legacyAlgorithms != after.legacyAlgorithms || before.logSession != after.logSession
    || before.ipmiAuthProfileId != after.ipmiAuthProfileId || before.ipmiGatewayServerId != after.ipmiGatewayServerId
    || !serverOriginStampsEqual before.origin after.origin

def addresslessChanged (before after : ServerConfig) : Bool :=
  before.addressless.getD false != after.addressless.getD false

def updateChanged (endpointUsername : Option Text) (before after : ServerConfig) : Bool :=
  recordChanged before after || addresslessChanged before after || before.altHost != after.altHost
    || before.protocol != after.protocol || (endpointUsername.isSome && before.username != after.username)

def placeholderChanged (before after : ServerConfig) : Bool :=
  recordChanged before after || addresslessChanged before after || before.protocol != after.protocol

/-- Whether anything is left of an update from which a rejected value was taken. -/
def updateStillChanged (before after : ServerConfig) : Bool :=
  recordChanged before after || before.altHost != after.altHost || before.username != after.username

end NexTerminal.Inventory
