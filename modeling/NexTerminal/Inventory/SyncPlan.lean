import NexTerminal.Inventory.SyncEngine

namespace NexTerminal.Inventory

open Library Exchange

inductive InventoryPrune
  | delete (server : ServerConfig)
  | orphan (server after : ServerConfig)
  | keep (server : ServerConfig)

def InventoryPrune.server : InventoryPrune → ServerConfig
  | delete server => server
  | orphan server _ => server
  | keep server => server

structure InventorySyncPlan where
  sourceId : Text
  syncedAt : ℚ
  adds : List ServerConfig
  updates : List ServerUpdate
  prunes : List InventoryPrune
  unchangedCount : Int
  folders : List Text
  warnings : List SyncWarning
  hiddenPruneCount : Nat
  manualDuplicateCount : Nat
  adoptionCandidates : List InventoryAdoptionCandidate

def ServerConfig.setTemplateProxy (record : ServerConfig) (proxy stamp : Option ProxyConfig) : ServerConfig :=
  { record with
    proxy
    origin := record.origin.map fun origin => { origin with templated := { origin.templated with proxy := stamp } } }

def ServerConfig.stampedProxy (record : ServerConfig) : Option ProxyConfig :=
  record.origin.bind fun origin => origin.templated.proxy

def templateJumpHost (record : ServerConfig) : Option Text :=
  match record.proxy with
  | some (.ssh jumpHostId) => if record.stampedProxy = some (.ssh jumpHostId) then some jumpHostId else none
  | _ => none

/-- The record without a written proxy whose jump host does not survive. -/
def rejectWrittenProxy (survives : Text → Bool) (after : ServerConfig) (before : Option ServerConfig) :
    Option (Text × ServerConfig) :=
  match templateJumpHost after with
  | none => none
  | some jumpHostId =>
    if jumpHostId = after.id ∨ survives jumpHostId then none
    else
      some (jumpHostId, after.setTemplateProxy (before.bind ServerConfig.proxy) (before.bind ServerConfig.stampedProxy))

/-- A template's proxy to the record itself, or to a jump host that does not survive. -/
def invalidTemplateProxy (survives : Text → Bool) (record : ServerConfig) : Option Text :=
  (templateJumpHost record).filter fun jumpHostId => jumpHostId == record.id || !survives jumpHostId

def dropTemplateProxy (record : ServerConfig) : ServerConfig := record.setTemplateProxy none none

/-- The gateway's stamp of an owned server, or of one that was. -/
def ServerConfig.stampedGateway (record : ServerConfig) : Option Text :=
  (record.origin.bind fun origin => origin.templated.ipmiGatewayServerId) <|>
    record.formerlySynced.bind fun kept => kept.templated.ipmiGatewayServerId

def rejectWrittenGateway (survives : Text → Bool) (after : ServerConfig) (before : Option ServerConfig) :
    Option (Text × ServerConfig) :=
  match after.ipmiGatewayServerId with
  | none => none
  | some gateway =>
    if (after.origin.bind fun origin => origin.templated.ipmiGatewayServerId) ≠ some gateway ∨
      gateway = after.id ∨ survives gateway then none
    else
      let restored := (before.bind ServerConfig.ipmiGatewayServerId).filter survives
      let stamp := if restored.isSome then before.bind ServerConfig.stampedGateway else none
      some (gateway,
        { after with
          ipmiGatewayServerId := restored
          origin := after.origin.map fun origin =>
            { origin with templated := { origin.templated with ipmiGatewayServerId := stamp } } })

def invalidTemplateGateway (survives : Text → Bool) (record : ServerConfig) : Option Text :=
  record.ipmiGatewayServerId.filter fun gateway => record.stampedGateway == some gateway && !survives gateway

def dropTemplateGateway (record : ServerConfig) : ServerConfig :=
  let cur := record.ipmiGatewayServerId
  { record with
    ipmiGatewayServerId := none
    origin := record.origin.map fun origin =>
      if cur.isSome ∧ origin.templated.ipmiGatewayServerId = cur then
        { origin with templated := { origin.templated with ipmiGatewayServerId := none } }
      else origin
    formerlySynced := record.formerlySynced.map fun kept =>
      if cur.isSome ∧ kept.templated.ipmiGatewayServerId = cur then
        { kept with templated := { kept.templated with ipmiGatewayServerId := none } }
      else kept }

structure ReferenceKey where
  gateway : Bool
  recordId : Text
  reference : Text
deriving DecidableEq

structure Draft where
  adds : List ServerConfig
  updates : List ServerUpdate
  unchangedIds : List Text
  unchangedCount : Int
  warnings : List (ReferenceKey × SyncWarning) := []

/-- One kind of reference: what is written by this run is taken back, what was there is dropped. -/
structure ReferencePass where
  gateway : Bool
  templateName : Text → Option Text
  reject : ServerConfig → Option ServerConfig → Option (Text × ServerConfig)
  invalid : ServerConfig → Option Text
  drop : ServerConfig → ServerConfig

namespace ReferencePass

variable (pass : ReferencePass)

/-- What is left of a record on which this run wrote a reference that is taken back. -/
def rejected (after : ServerConfig) (before : Option ServerConfig) : Option (Text × ServerConfig) :=
  if (pass.templateName after.id).isSome then pass.reject after before else none

def rejectedRecord (after : ServerConfig) (before : Option ServerConfig) : ServerConfig :=
  ((pass.rejected after before).map Prod.snd).getD after

def writtenWarning (after : ServerConfig) (before : Option ServerConfig) : Option (ReferenceKey × SyncWarning) :=
  (pass.rejected after before).map fun found =>
    let name := (pass.templateName after.id).getD "?".toList
    (⟨pass.gateway, after.id, found.1⟩,
      if pass.gateway then .writtenGatewayRejected name after.name else .writtenProxyRejected name after.name)

def retainedWarning (record : ServerConfig) : Option (ReferenceKey × SyncWarning) :=
  (pass.invalid record).map fun reference =>
    (⟨pass.gateway, record.id, reference⟩,
      if pass.gateway then .retainedGatewayRemoved record.name
      else .retainedProxyRemoved record.name (reference == record.id))

def collapses (u : ServerUpdate) : Bool :=
  (pass.rejected u.after (some u.before)).any fun found => !updateStillChanged u.before found.2

def rejectAll (draft : Draft) : Draft :=
  { draft with
    adds := draft.adds.map fun record => pass.rejectedRecord record none
    updates := draft.updates.map fun u => { u with after := pass.rejectedRecord u.after (some u.before) }
    warnings := draft.warnings ++ draft.adds.filterMap (pass.writtenWarning · none) ++
      draft.updates.filterMap fun u => pass.writtenWarning u.after (some u.before) }

def dropIn (record : ServerConfig) : ServerConfig :=
  if (pass.invalid record).isSome then pass.drop record else record

def dropRetained (draft : Draft) : Draft :=
  { draft with
    updates := draft.updates.map fun u => { u with after := pass.dropIn u.after }
    warnings := draft.warnings ++ draft.updates.filterMap fun u => pass.retainedWarning u.after }

def dropUnplanned (prunedIds : List Text) (candidates : List ServerConfig) (draft : Draft) : Draft :=
  let planned := draft.adds.map (·.id) ++ draft.updates.map (·.before.id) ++ prunedIds
  let found := candidates.filter fun record => !planned.contains record.id && (pass.invalid record).isSome
  { draft with
    updates := draft.updates ++ found.map fun record => ⟨record, pass.drop record⟩
    unchangedCount := draft.unchangedCount - found.countP fun record => draft.unchangedIds.contains record.id
    warnings := draft.warnings ++ found.filterMap pass.retainedWarning }

end ReferencePass

def Draft.collapse (draft : Draft) (collapsedIds : List Text) : Draft :=
  let removed := draft.updates.filter fun u => collapsedIds.contains u.before.id
  { draft with
    updates := draft.updates.filter fun u => !collapsedIds.contains u.before.id
    unchangedIds := draft.unchangedIds ++ removed.map (·.before.id)
    unchangedCount := draft.unchangedCount + removed.length }

section Plan

variable (env : SyncPlatform) (input : ComputeSyncPlanInput)

def deviceFindings : Findings := planDevices env input [] input.tree.devices

/-- The owned servers of devices that were fetched and not mapped. -/
def unmappedOwned : List ServerConfig :=
  (input.ownedByExternalId.entries.filter fun entry =>
    !(deviceFindings env input).decidedOwned.contains entry.1 && input.presentExternalIds.contains entry.1).map
    Prod.snd

def unmappedUnlinked : List ServerConfig :=
  (unmappedOwned env input).filter fun server =>
    decideSourceAuthRollback server input.unusableProfile = .unlink

def loopUpdates : List ServerUpdate :=
  (deviceFindings env input).updates ++
    (unmappedUnlinked env input).map fun server => ⟨server, withSourceLinkCleared server⟩

def unlinkedCount (profileId : Text) : Nat :=
  ((deviceFindings env input).unlinkedByProfile ++
    (unmappedUnlinked env input).filterMap ServerConfig.authProfileId).count profileId

def retainedCount (profileId : Text) : Nat :=
  ((deviceFindings env input).retainedByProfile ++
    ((unmappedOwned env input).filter fun server =>
      decideSourceAuthRollback server input.unusableProfile = .retainOwnKey).filterMap
        ServerConfig.authProfileId).count profileId

def sourceProfileWarnings : List SyncWarning :=
  if !input.emitAuthWarning then []
  else
    match input.matchedProfile.filter fun _ => input.keylessKeyProfile with
    | some profile => [.profileNeedsKey profile.id profile.name .source (unlinkedCount env input profile.id)
        (retainedCount env input profile.id)]
    | none => [.sourceProfileMissing input.source.name]

def profileName (profileId : Text) : Text :=
  ((input.resolveAuthProfileById profileId).map AuthProfile.name).getD profileId

def profileWarnings : List SyncWarning :=
  input.profilesNeedingServerKey.entries.filterMap fun entry =>
    let unlinked := unlinkedCount env input entry.1
    let retained := retainedCount env input entry.1
    if entry.2 = .source ∨ (unlinked = 0 ∧ retained = 0) then none
    else some (.profileNeedsKey entry.1 (profileName input entry.1) entry.2 unlinked retained)

def refusedWarnings : List SyncWarning :=
  let refused := (deviceFindings env input).overrideRefused
  (refused.map (·.profileId)).eraseDups.map fun profileId =>
    .overrideRefused (profileName input profileId) ((refused.filter (·.profileId == profileId)).map (·.name))

/-- Where orphans go: the folder, and the path that could not be made. -/
def orphanGroup : Option Text × Option Text :=
  let targetFolder := input.source.targetFolder
  let candidate := if targetFolder.isEmpty then "_orphaned".toList else targetFolder ++ "/_orphaned".toList
  match normalizeFolderPath candidate with
  | some group => (some group, none)
  | none => (if targetFolder.isEmpty then none else some targetFolder, some candidate)

def absentOwned : List ServerConfig :=
  (input.ownedByExternalId.entries.filter fun entry => !input.presentExternalIds.contains entry.1).map Prod.snd

def prunes : List InventoryPrune :=
  if input.tree.truncated then []
  else (absentOwned input).map fun server =>
    match input.source.prunePolicy with
    | .delete => .delete server
    | .orphan => .orphan server { server with group := (orphanGroup input).1 }
    | .keep => .keep server

def pruneWarnings : List SyncWarning :=
  if input.tree.truncated then [.truncated]
  else if input.source.prunePolicy = .orphan ∧ !(absentOwned input).isEmpty then
    (orphanGroup input).2.toList.map fun candidate => .orphanFolderFailed candidate (absentOwned input).length
  else []

def survives (id : Text) : Bool :=
  let deleted := (prunes input).filterMap fun prune => match prune with | .delete server => some server.id | _ => none
  (input.currentServers.any (·.id == id) && !deleted.contains id) ||
    (deviceFindings env input).adds.any (·.id == id)

/-- `Map.set`: the last name counts. -/
def lastName (names : List (Text × Text)) (serverId : Text) : Option Text :=
  ((names.filter fun entry => entry.1 == serverId).getLast?).map Prod.snd

def proxyPass : ReferencePass where
  gateway := false
  templateName := lastName (deviceFindings env input).proxyTemplateNames
  reject := rejectWrittenProxy (survives env input)
  invalid := invalidTemplateProxy (survives env input)
  drop := dropTemplateProxy

def gatewayPass : ReferencePass where
  gateway := true
  templateName := lastName (deviceFindings env input).gatewayTemplateNames
  reject := rejectWrittenGateway (survives env input)
  invalid := invalidTemplateGateway (survives env input)
  drop := dropTemplateGateway

def loopDraft : Draft where
  adds := (deviceFindings env input).adds
  updates := loopUpdates env input
  unchangedIds := (deviceFindings env input).unchanged.map (·.id)
  unchangedCount := (deviceFindings env input).unchanged.length

/-- What this run wrote and does not survive is taken back. -/
def rejectedDraft : Draft :=
  let proxies := (proxyPass env input).rejectAll (loopDraft env input)
  let collapsedByProxy := ((loopDraft env input).updates.filter (proxyPass env input).collapses).map
    (·.before.id)
  let collapsedByGateway := (proxies.updates.filter (gatewayPass env input).collapses).map (·.before.id)
  ((gatewayPass env input).rejectAll proxies).collapse (collapsedByProxy ++ collapsedByGateway)

def finalDraft : Draft :=
  let prunedIds := (prunes input).map (·.server.id)
  let candidates := input.ownedByExternalId.values ++ input.keptByGroups
  let proxies := (proxyPass env input).dropUnplanned prunedIds candidates
    ((proxyPass env input).dropRetained (rejectedDraft env input))
  (gatewayPass env input).dropUnplanned prunedIds candidates ((gatewayPass env input).dropRetained proxies)

/-- What the rules come to without a device, for the references that dangle. -/
def baselineWarnings : List SyncWarning :=
  let templates := input.deviceTemplates env { name := [] }
  templates.composed.warnings ++
    (if templates.danglingAuthWinner then [.danglingAuthProfile input.source.name] else [])

def unmatchedRules : List SyncWarning :=
  ((input.preparedRules env).prepared.filter fun p =>
    !(deviceFindings env input).matchedRuleIds.contains p.rule.id).map fun p => .ruleMatchedNothing p.rule.filter

def summaryWarnings : List SyncWarning :=
  let found := deviceFindings env input
  (if found.instanceMismatchDeviceNames.isEmpty then []
    else [.otherInstances found.instanceMismatchDeviceNames (found.recordedForeignInstances.reduceOption.eraseDups)
      (found.recordedForeignInstances.contains none)]) ++
    (if found.noInstanceIdentityDeviceNames.isEmpty then []
      else [.noInstanceIdentity found.noInstanceIdentityDeviceNames]) ++
    (if found.addresslessAdded.isEmpty && found.addresslessAlreadyPlaceholder.isEmpty then []
      else [.addressless found.addresslessAdded found.addresslessAlreadyPlaceholder]) ++
    (if found.downgradedToAddressless.isEmpty then [] else [.downgraded found.downgradedToAddressless]) ++
    (if found.emptyNameSkipped.isEmpty then [] else [.emptyNames found.emptyNameSkipped]) ++
    (if found.invalidPortSkipped.isEmpty then [] else [.invalidPorts found.invalidPortSkipped])

/-- The entries of which an earlier one is marked and says the same are left out, if they
are marked. -/
def settleOnce : List (Bool × SyncWarning) → List SyncWarning → List SyncWarning
  | [], _ => []
  | (once, warning) :: rest, said =>
    if once then
      if said.contains warning then settleOnce rest said else warning :: settleOnce rest (warning :: said)
    else warning :: settleOnce rest said

def settleReferences : List (ReferenceKey × SyncWarning) → List ReferenceKey → List SyncWarning
  | [], _ => []
  | (key, warning) :: rest, said =>
    if said.contains key then settleReferences rest said else warning :: settleReferences rest (key :: said)

/-- Which warnings there are, and what they name. Their wording, and the provenance lines behind them, are left out. -/
def planWarnings : List SyncWarning :=
  let plain (warnings : List SyncWarning) : List (Bool × SyncWarning) := warnings.map (false, ·)
  settleOnce
    (plain (input.tree.warnings.map .verbatim ++ sourceProfileWarnings env input ++
        (input.preparedRules env).warnings ++ input.multipleOwnerWarnings) ++
      (deviceFindings env input).warnings ++
      plain (profileWarnings env input ++ refusedWarnings env input ++ summaryWarnings env input ++
        pruneWarnings input ++ settleReferences (finalDraft env input).warnings []) ++
      (baselineWarnings env input).map (true, ·) ++ plain (unmatchedRules env input))
    []

def planFolders : List Text :=
  let orphans := (prunes input).filterMap fun prune => match prune with | .orphan _ after => after.group | _ => none
  ((deviceFindings env input).folders ++ orphans ++
    if input.source.targetFolder.isEmpty then [] else [input.source.targetFolder]).eraseDups

def computeSyncPlan : InventorySyncPlan where
  sourceId := input.source.id
  syncedAt := input.now
  adds := (finalDraft env input).adds
  updates := (finalDraft env input).updates
  prunes := prunes input
  unchangedCount := (finalDraft env input).unchangedCount
  folders := planFolders env input
  warnings := planWarnings env input
  hiddenPruneCount := (prunes input).countP fun prune => prune.server.isHidden
  manualDuplicateCount := (deviceFindings env input).manualDuplicates.length
  adoptionCandidates := (deviceFindings env input).adoptionCandidates

end Plan

end NexTerminal.Inventory
