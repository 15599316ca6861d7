import NexTerminal.Inventory.SyncRecords

/-! `computeSyncPlan` (`syncEngine.ts`). -/

namespace NexTerminal.Inventory

open Library Exchange

structure InventoryAdoptionCandidate where
  deviceName : Text
  externalId : Text
  serverId : Text
  separateAddBlocked : Bool
deriving DecidableEq

/-- A server whose link an overriding rule would have moved to a profile that it cannot use. -/
structure RefusedOverride where
  profileId : Text
  server : ServerConfig
  name : Text

/-- What the loop over the devices puts in its lists, counts and maps. -/
structure Findings where
  warnings : List (Bool × SyncWarning) := []
  matchedRuleIds : List Text := []
  adds : List ServerConfig := []
  updates : List ServerUpdate := []
  unchanged : List ServerConfig := []
  /-- For each link that is taken away, or kept, the profile. -/
  unlinkedByProfile : List Text := []
  retainedByProfile : List Text := []
  overrideRefused : List RefusedOverride := []
  folders : List Text := []
  proxyTemplateNames : List (Text × Text) := []
  gatewayTemplateNames : List (Text × Text) := []
  decidedOwned : List Text := []
  manualDuplicates : List Text := []
  emptyNameSkipped : List Text := []
  invalidPortSkipped : List Text := []
  addresslessAdded : List Text := []
  addresslessAlreadyPlaceholder : List Text := []
  downgradedToAddressless : List Text := []
  adoptionCandidates : List InventoryAdoptionCandidate := []
  instanceMismatchDeviceNames : List Text := []
  noInstanceIdentityDeviceNames : List Text := []
  recordedForeignInstances : List (Option Text) := []

namespace Findings

instance : Append Findings where
  append first second :=
    { warnings := first.warnings ++ second.warnings
      matchedRuleIds := first.matchedRuleIds ++ second.matchedRuleIds
      adds := first.adds ++ second.adds
      updates := first.updates ++ second.updates
      unchanged := first.unchanged ++ second.unchanged
      unlinkedByProfile := first.unlinkedByProfile ++ second.unlinkedByProfile
      retainedByProfile := first.retainedByProfile ++ second.retainedByProfile
      overrideRefused := first.overrideRefused ++ second.overrideRefused
      folders := first.folders ++ second.folders
      proxyTemplateNames := first.proxyTemplateNames ++ second.proxyTemplateNames
      gatewayTemplateNames := first.gatewayTemplateNames ++ second.gatewayTemplateNames
      decidedOwned := first.decidedOwned ++ second.decidedOwned
      manualDuplicates := first.manualDuplicates ++ second.manualDuplicates
      emptyNameSkipped := first.emptyNameSkipped ++ second.emptyNameSkipped
      invalidPortSkipped := first.invalidPortSkipped ++ second.invalidPortSkipped
      addresslessAdded := first.addresslessAdded ++ second.addresslessAdded
      addresslessAlreadyPlaceholder := first.addresslessAlreadyPlaceholder ++ second.addresslessAlreadyPlaceholder
      downgradedToAddressless := first.downgradedToAddressless ++ second.downgradedToAddressless
      adoptionCandidates := first.adoptionCandidates ++ second.adoptionCandidates
      instanceMismatchDeviceNames := first.instanceMismatchDeviceNames ++ second.instanceMismatchDeviceNames
      noInstanceIdentityDeviceNames := first.noInstanceIdentityDeviceNames ++ second.noInstanceIdentityDeviceNames
      recordedForeignInstances := first.recordedForeignInstances ++ second.recordedForeignInstances }

def warn (warning : SyncWarning) : Findings := { warnings := [(false, warning)] }

def warnAll (warnings : List SyncWarning) : Findings := { warnings := warnings.map (false, ·) }

def warnOnce (warnings : List SyncWarning) : Findings := { warnings := warnings.map (true, ·) }

def templateNames (templates : DeviceTemplates) (matrix : TemplateMatrixResult) (serverId : Text) : Findings where
  proxyTemplateNames :=
    if matrix.values.proxy.isSome then (templates.cascade.proxyTemplateName.map (serverId, ·)).toList else []
  gatewayTemplateNames :=
    if matrix.values.ipmiGatewayServerId.isSome then (templates.gatewayTemplateName.map (serverId, ·)).toList else []

end Findings

def DeviceTemplates.findings (templates : DeviceTemplates) (sourceName : Text) : Findings :=
  { warnings := templates.cascade.warnings.map fun text => (false, .verbatim text)
    matchedRuleIds := templates.cascade.matchedRuleIds } ++
    .warnOnce (templates.composed.warnings ++
      if templates.danglingAuthWinner then [.danglingAuthProfile sourceName] else [])

section Device

variable (env : SyncPlatform) (input : ComputeSyncPlanInput) (device : TreeDevice)

def rollbackTally (record : ServerConfig) : Findings where
  unlinkedByProfile :=
    if decideSourceAuthRollback record input.unusableProfile = .unlink then record.authProfileId.toList else []
  retainedByProfile :=
    if decideSourceAuthRollback record input.unusableProfile = .retainOwnKey then record.authProfileId.toList else []

def settleOwned (changed : Bool) (owned after : ServerConfig) (group : Option Text) : Findings where
  updates := if changed then [⟨owned, after⟩] else []
  folders := if changed then group.toList else []
  unchanged := if changed then [] else [owned]

/-- An overriding rule whose profile the server cannot use. -/
def refusal (decision : TemplateAuthDecision) (server : ServerConfig) (name : Text) : Findings where
  overrideRefused := match decision with
    | .skipUsability profileId => [⟨profileId, server, name⟩]
    | _ => []

/-- The out-of-band address of the device, if it can be used. -/
def managementHost : Option Text × List SyncWarning :=
  match selectManagementEndpoint device with
  | none => (none, [])
  | some endpoint =>
    if env.isAddressValue endpoint.host then (some endpoint.host, [])
    else (none, [.unusableOutOfBandAddress device.name device.externalId endpoint.host])

def placeholderAfter (mgmtHost group : Option Text) (matrix : TemplateMatrixResult) (owned : ServerConfig) :
    ServerConfig :=
  (downgradedRecord input device mgmtHost group matrix owned).withRollback input.unusableProfile

def planAddresslessOwned (mgmtHost group : Option Text) (templates : DeviceTemplates) (owned : ServerConfig) :
    Findings :=
  let matrix := templates.matrix (some owned) owned.id device.name
  let after := placeholderAfter input device mgmtHost group matrix owned
  let placeholder := blanksAddress owned && owned.addressless == some true
  { decidedOwned := [device.externalId] } ++ .warnAll matrix.warnings ++ .templateNames templates matrix owned.id ++
    rollbackTally input (downgradedRecord input device mgmtHost group matrix owned) ++
    { addresslessAlreadyPlaceholder := if placeholder then [device.name] else []
      downgradedToAddressless :=
        if placeholderChanged owned after && blanksAddress owned && !placeholder then [device.name] else [] } ++
    settleOwned (placeholderChanged owned after) owned after group

def planAddresslessNew (mgmtHost group : Option Text) (templates : DeviceTemplates) : Findings :=
  let id := env.deterministicServerId input.source.id device.externalId
  if (input.serversById id).isSome then .warn (.addresslessCollision device.name device.externalId)
  else
    let kept := input.keptByExternalId device.externalId
    let matrix := templates.matrix none id device.name
    (if kept.isEmpty then {}
      else .warn (.addresslessKept device.name device.externalId (kept.map ServerConfig.name))) ++
      .warnAll matrix.warnings ++ .templateNames templates matrix id ++
      { addresslessAdded := [device.name]
        adds := [newRecord input device id none ⟨mgmtHost, none⟩ group templates.winnerResolvedId matrix]
        folders := group.toList }

def planAddressless (mgmtHost : Option Text) : Findings :=
  let group := resolveDeviceGroup input.source device
  let templates := input.deviceTemplates env device.toInventoryDevice
  .warnAll group.2 ++ templates.findings input.source.name ++
    match input.ownedByExternalId.get? device.externalId with
    | some owned => planAddresslessOwned input device mgmtHost group.1 templates owned
    | none => planAddresslessNew env input device mgmtHost group.1 templates

def authDecision (templates : DeviceTemplates) (server : ServerConfig) : TemplateAuthDecision :=
  decideTemplateAuthWrite server templates.effectiveAuthWinner templates.winnerProfile input.source.defaultUsername

/-- The record of an owned server with its auth profile decided. -/
def updateLinked (primary : PrimaryEndpoint) (addresses : DeviceAddresses) (group : Option Text)
    (templates : DeviceTemplates) (owned : ServerConfig) : ServerConfig :=
  (updatedRecord input device primary.protocol addresses group (templates.matrix (some owned) owned.id device.name)
    owned).withAuthDecision (authDecision input templates owned)

def updateAfter (primary : PrimaryEndpoint) (addresses : DeviceAddresses) (group : Option Text)
    (templates : DeviceTemplates) (owned : ServerConfig) : ServerConfig :=
  ((updateLinked input device primary addresses group templates owned).withRollback
    input.unusableProfile).withoutOwnAltHost

def planOwned (primary : PrimaryEndpoint) (addresses : DeviceAddresses) (group : Option Text)
    (templates : DeviceTemplates) (owned : ServerConfig) : Findings :=
  let matrix := templates.matrix (some owned) owned.id device.name
  let linked := updateLinked input device primary addresses group templates owned
  let after := updateAfter input device primary addresses group templates owned
  let endpointUsername := (decideEndpoint device primary.protocol owned).ownedEndpoint.bind fun found =>
    found.endpoint.username
  { decidedOwned := [device.externalId] } ++ .warnAll matrix.warnings ++ .templateNames templates matrix owned.id ++
    refusal (authDecision input templates owned) owned owned.name ++ rollbackTally input linked ++
    settleOwned (updateChanged endpointUsername owned after) owned after group

/-- A server as an adoption's auth profile is decided on it. -/
def adoptionAuthView (primary : PrimaryEndpoint) (addresses : DeviceAddresses) (matrix : TemplateMatrixResult)
    (adoptee : ServerConfig) : ServerConfig :=
  { adoptee with origin := some (adoptionOrigin input device primary addresses matrix adoptee) }

def adoptionAfter (primary : PrimaryEndpoint) (addresses : DeviceAddresses) (group : Option Text)
    (templates : DeviceTemplates) (adoptee : ServerConfig) : ServerConfig :=
  let matrix := templates.matrix (some (adopteeForMatrix input device adoptee)) adoptee.id device.name
  ((adoptedRecord input device primary addresses group matrix adoptee).withAuthDecision
    (authDecision input templates (adoptionAuthView input device primary addresses matrix adoptee))).withoutOwnAltHost

def planAdoption (primary : PrimaryEndpoint) (addresses : DeviceAddresses) (group : Option Text)
    (templates : DeviceTemplates) (adoptee : ServerConfig) : Findings :=
  let matrix := templates.matrix (some (adopteeForMatrix input device adoptee)) adoptee.id device.name
  .warnAll matrix.warnings ++ .templateNames templates matrix adoptee.id ++
    refusal (authDecision input templates (adoptionAuthView input device primary addresses matrix adoptee)) adoptee
      device.name ++
    { updates := [⟨adoptee, adoptionAfter input device primary addresses group templates adoptee⟩]
      folders := group.toList }

/-- The kept servers of the device that still are at its address. -/
def eligibleForAdoption (primary : PrimaryEndpoint) : List ServerConfig :=
  (input.keptByExternalId device.externalId).filter fun server =>
    env.toLowerCase server.host == env.toLowerCase primary.endpoint.host && server.port == primary.port

def collisionWarning (primary : PrimaryEndpoint) (colliding : ServerConfig) : SyncWarning :=
  if !(input.keptByExternalId device.externalId).any (·.id == colliding.id) then
    .unrelatedCollision device.name device.externalId colliding.name
  else
    match eligibleForAdoption env input device primary with
    | [] => .keptCollisionMoved device.name device.externalId colliding.name
    | [adoptee] => .keptCollisionOther device.name device.externalId adoptee.name colliding.name
    | eligible => .keptCollisionAmbiguous device.name device.externalId eligible.length colliding.name

def notAdopted (primary : PrimaryEndpoint) : Findings :=
  let kept := input.keptByExternalId device.externalId
  match eligibleForAdoption env input device primary with
  | [_] => {}
  | [] =>
    if !kept.isEmpty then .warn (.keptMoved device.name (kept.map ServerConfig.name))
    else
      let foreign := (input.foreignInstanceByExternalId device.externalId).filter fun server =>
        env.toLowerCase server.host == env.toLowerCase primary.endpoint.host && server.port == primary.port
      if foreign.isEmpty then {}
      else if input.providerInstanceKey.isNone then { noInstanceIdentityDeviceNames := [device.name] }
      else
        { instanceMismatchDeviceNames := [device.name]
          recordedForeignInstances := foreign.map fun server =>
            server.formerlySynced.bind DetachedServerOrigin.instanceKey }
  | eligible => .warn (.adoptionAmbiguous device.name eligible.length)

def planAdd (id : Text) (primary : PrimaryEndpoint) (addresses : DeviceAddresses) (group : Option Text)
    (templates : DeviceTemplates) : Findings :=
  let matrix := templates.matrix none id device.name
  (match input.manualByHostPort env primary.endpoint.host primary.port with
    | none => {}
    | some manual =>
      .warn (.manualDuplicate device.name manual.name) ++ { manualDuplicates := [device.name] }) ++
    .warnAll matrix.warnings ++ .templateNames templates matrix id ++
    { adds := [newRecord input device id (some primary) addresses group templates.winnerResolvedId matrix]
      folders := group.toList }

/-- A new server, unless its id is taken by the server that was not adopted. -/
def planSeparately (primary : PrimaryEndpoint) (addresses : DeviceAddresses) (group : Option Text)
    (templates : DeviceTemplates) : Findings :=
  let id := env.deterministicServerId input.source.id device.externalId
  match input.serversById id with
  | some server => .warn (.separateAddBlocked device.name device.externalId server.name)
  | none => planAdd env input device id primary addresses group templates

def planUnowned (primary : PrimaryEndpoint) (addresses : DeviceAddresses) (group : Option Text)
    (templates : DeviceTemplates) : Findings :=
  let eligible := eligibleForAdoption env input device primary
  let colliding := input.serversById (env.deterministicServerId input.source.id device.externalId)
  let adoptee := if eligible.length = 1 then eligible.head? else none
  let collisionIsTheAdoptee := colliding.any fun server => adoptee.any fun adoptee => adoptee.id == server.id
  match colliding.filter fun _ => !collisionIsTheAdoptee with
  | some server => .warn (collisionWarning env input device primary server)
  | none =>
    let candidate : Findings :=
      { adoptionCandidates := (adoptee.map fun server =>
          ⟨device.name, device.externalId, server.id, collisionIsTheAdoptee⟩).toList }
    match adoptee.filter fun _ => input.adoptionChoice == some .adopt with
    | some server => candidate ++ planAdoption input device primary addresses group templates server
    | none =>
      candidate ++ notAdopted env input device primary ++
        planSeparately env input device primary addresses group templates

def planAddressed (primary : PrimaryEndpoint) (mgmtHost : Option Text) : Findings :=
  let addresses : DeviceAddresses := ⟨mgmtHost, (selectAltEndpoint device).map InventoryEndpoint.host⟩
  let group := resolveDeviceGroup input.source device
  let templates := input.deviceTemplates env device.toInventoryDevice
  .warnAll group.2 ++ templates.findings input.source.name ++
    match input.ownedByExternalId.get? device.externalId with
    | some owned => planOwned input device primary addresses group.1 templates owned
    | none => planUnowned env input device primary addresses group.1 templates

def planDevice : Findings :=
  let primary := selectPrimaryEndpoint device
  let management := managementHost env device
  match primary with
  | none => .warnAll management.2 ++ planAddressless env input device management.1
  | some primary =>
    if !isValidPort primary.port then
      if input.ownedByExternalId.has device.externalId then
        .warn (.invalidPort device.name device.externalId primary.port)
      else { invalidPortSkipped := [device.name] }
    else .warnAll management.2 ++ planAddressed env input device primary management.1

end Device

/-- The devices in order, with the names under which their ids were seen first. -/
def planDevices (env : SyncPlatform) (input : ComputeSyncPlanInput) :
    List (Text × Text) → List TreeDevice → Findings
  | _, [] => {}
  | seen, device :: rest =>
    if device.externalId.isEmpty then
      .warn (.noExternalId device.name) ++ planDevices env input seen rest
    else
      let matching : Findings :=
        { matchedRuleIds := ((input.preparedRules env).prepared.filter
            (isCandidate env.toTextPlatform device.toInventoryDevice)).map fun p => p.rule.id }
      if device.name.isEmpty then
        matching ++
          (if input.ownedByExternalId.has device.externalId then .warn (.emptyName device.externalId)
            else { emptyNameSkipped := [device.externalId] }) ++
          planDevices env input seen rest
      else
        match seen.lookup device.externalId with
        | some firstName =>
          matching ++ .warn (.duplicateExternalId device.externalId firstName) ++
            planDevices env input seen rest
        | none =>
          matching ++ planDevice env input device ++
            planDevices env input ((device.externalId, device.name) :: seen) rest

end NexTerminal.Inventory
