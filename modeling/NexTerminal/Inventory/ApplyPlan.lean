import NexTerminal.Inventory.NexusCore

namespace NexTerminal.Inventory

open Library

inductive ExpectedSource
  | absent
  | config (source : InventorySourceConfig)

structure InventorySyncApplication where
  sourceId : Text
  syncedAt : ℚ
  upsertServers : List ServerConfig
  removeServerIds : List Text
  folders : List Text
  expectedSource : ExpectedSource
  expectedBeforeByServerId : Option (SeqMap Text ServerConfig) := none

inductive ApplyError
  | sourceExists (sourceId : Text)
  | unknownSource (sourceId : Text)
  | configurationChanged (sourceId : Text)
deriving DecidableEq

def ApplyError.message : ApplyError → String
  | .sourceExists sourceId =>
    let shown := String.ofList sourceId
    s!"Cannot apply inventory sync: inventory source \"{shown}\" exists (expected it to already be removed)."
  | .unknownSource sourceId =>
    let shown := String.ofList sourceId
    s!"Cannot apply inventory sync: unknown inventory source \"{shown}\"."
  | .configurationChanged sourceId =>
    let shown := String.ofList sourceId
    s!"Cannot apply inventory sync: inventory source \"{shown}\" configuration changed since "
      ++ "the sync was computed."

structure AcceptedApplication where
  removeServerIds : List Text
  upsertServers : List ServerConfig
  skippedCount : Nat

def acceptsRemoval (core : NexusCore) (apply : InventorySyncApplication) (id : Text) : Bool :=
  match core.servers.get? id with
  | none => false
  | some current =>
    (current.origin.map ServerOrigin.sourceId == some apply.sourceId) &&
      (apply.expectedBeforeByServerId.bind (·.get? id)).all fun expectedBefore =>
        serverConfigsEqual current expectedBefore

def acceptsUpsert (core : NexusCore) (apply : InventorySyncApplication) (server : ServerConfig) : Bool :=
  match core.servers.get? server.id, apply.expectedBeforeByServerId.bind (·.get? server.id) with
  | some current, some expectedBefore => serverConfigsEqual current expectedBefore
  | _, _ => false

def checkApplication (core : NexusCore) (apply : InventorySyncApplication) : Except ApplyError AcceptedApplication :=
  match apply.expectedSource, core.inventorySources.get? apply.sourceId with
  | .absent, some _ => .error (.sourceExists apply.sourceId)
  | .absent, none =>
    let removals := apply.removeServerIds.filter (acceptsRemoval core apply)
    let upserts := apply.upsertServers.filter (acceptsUpsert core apply)
    .ok {
      removeServerIds := removals
      upsertServers := upserts
      skippedCount := apply.removeServerIds.length - removals.length
        + (apply.upsertServers.length - upserts.length) }
  | .config _, none => .error (.unknownSource apply.sourceId)
  | .config expected, some source =>
    if !sourceConfigUnchanged source expected then .error (.configurationChanged apply.sourceId)
    else .ok {
      removeServerIds := apply.removeServerIds, upsertServers := apply.upsertServers, skippedCount := 0 }

/-- The core under mutation, and what the rollback will need. -/
structure Batch where
  core : NexusCore
  priorServers : SeqMap Text (Option ServerConfig) := .empty
  /-- What the batch left under each identifier; nothing where it deleted. -/
  batchWrittenServers : SeqMap Text (Option ServerConfig) := .empty
  priorFocusedSessionId : Option Text := none
  priorActiveSessions : List (Text × ActiveSession) := []
  priorActivitySessionIds : List Text := []
  applicationFolderSet : SeqSet Text := .empty
  addedExplicitGroups : SeqSet Text := .empty
  droppedServerStatus : SeqMap Text (ServerStatus × Option Text) := .empty
  removedEmptyGroups : List Text := []
  batchWrittenFocusedSessionId : Option Text := none
  /-- The source record before the batch, and the one it wrote. -/
  source : Option InventorySourceConfig := none
  writtenSourceRecord : Option InventorySourceConfig := none

namespace Batch

def captureServerPrior (batch : Batch) (id : Text) : Batch :=
  if batch.priorServers.has id then batch
  else { batch with priorServers := batch.priorServers.set id (batch.core.servers.get? id) }

/-- Captures the servers named by the batch, the focus, and the sessions of the
servers to delete. -/
def begin (core : NexusCore) (accepted : AcceptedApplication) : Batch :=
  let batch : Batch := { core := core }
  let batch := accepted.removeServerIds.foldl captureServerPrior batch
  let batch := (accepted.upsertServers.map ServerConfig.id).foldl captureServerPrior batch
  let sessions := accepted.removeServerIds.flatMap fun id =>
    core.activeSessions.entries.filter fun entry => entry.2.serverId == id
  { batch with
    priorFocusedSessionId := core.focusedSessionId
    priorActiveSessions := sessions
    priorActivitySessionIds := (sessions.map Prod.fst).filter fun sessionId => sessionId ∈ core.activitySessionIds }

def addFolder (batch : Batch) (ancestor : Text) : Batch :=
  let batch := { batch with applicationFolderSet := batch.applicationFolderSet.add ancestor }
  if ancestor ∈ batch.core.explicitGroups then batch
  else
    { batch with
      core := { batch.core with explicitGroups := batch.core.explicitGroups.add ancestor }
      addedExplicitGroups := batch.addedExplicitGroups.add ancestor }

/-- The folders an application names, each with its ancestors. -/
def namedFolders (folders : List Text) : List Text :=
  (folders.filterMap normalizeFolderPath).flatMap getAncestorPaths

def deleteServer (batch : Batch) (id : Text) : Batch :=
  let dropped := match batch.core.serverStatus.get? id with
    | some state => batch.droppedServerStatus.set id (state, batch.core.serverStatusSource.get? id)
    | none => batch.droppedServerStatus
  let core := { batch.core with servers := batch.core.servers.erase id }
  { batch with
    core := (core.removeServerSessions id).dropServerStatusEntry id
    droppedServerStatus := dropped
    batchWrittenServers := batch.batchWrittenServers.set id none }

def writeServer (batch : Batch) (id : Text) (server : ServerConfig) : Batch :=
  { batch with
    core := { batch.core with servers := batch.core.servers.set id server }
    batchWrittenServers := batch.batchWrittenServers.set id (some server) }

def upsertServer (batch : Batch) (server : ServerConfig) : Batch := batch.writeServer server.id server

def snapshotServer (batch : Batch) (id : Text) : Batch :=
  match batch.core.servers.get? id with
  | some left => { batch with batchWrittenServers := batch.batchWrittenServers.set id (some left) }
  | none => batch

def sweepGateways (batch : Batch) (deletedServerIds : List Text) : Batch :=
  let dependents := batch.core.gatewayDependents deletedServerIds
  let batch := dependents.foldl captureServerPrior batch
  dependents.foldl snapshotServer
    { batch with core := batch.core.clearGatewayReferencesTo deletedServerIds }

/-- Whether the template, and not the user, set the gateway link. -/
def templateOwnsGateway (live : ServerConfig) : Bool :=
  (live.origin.bind fun origin => origin.templated.ipmiGatewayServerId) == live.ipmiGatewayServerId
    || (live.formerlySynced.bind fun marker => marker.templated.ipmiGatewayServerId)
        == live.ipmiGatewayServerId

/-- Clears a template's link of a written server to a server that is gone. -/
def clearDanglingGateway (batch : Batch) (id : Text) : Batch :=
  match batch.core.servers.get? id with
  | none => batch
  | some live =>
    match live.ipmiGatewayServerId with
    | none => batch
    | some gateway =>
      if batch.core.servers.has gateway || !templateOwnsGateway live then batch
      else (batch.captureServerPrior id).writeServer id (clearGatewayLink live)

end Batch

def isGcCandidate (core : NexusCore) (targetFolder : Text) (keepFolders crossSourceProtectedPaths : List Text)
    (candidate : Text) : Bool :=
  !(candidate == targetFolder || keepFolders.contains candidate)
    && !crossSourceProtectedPaths.contains candidate && candidate.contains '/'
    && normalizeFolderPath candidate == some candidate && candidate ∈ core.explicitGroups

def isOccupied (core : NexusCore) (candidate : Text) : Bool :=
  let occupiesCandidate (group : Option Text) : Bool := group.any fun group => isDescendantOrSelf group candidate
  core.servers.values.any (fun server => occupiesCandidate server.group)
    || core.serialProfiles.values.any (fun profile => occupiesCandidate profile.group)
    || core.localShellProfiles.values.any (fun profile => occupiesCandidate profile.group)

def hasDescendant (core : NexusCore) (candidate : Text) : Bool :=
  core.explicitGroups.items.any fun group => group != candidate && (candidate ++ ['/']).isPrefixOf group

def collectFolder (state : NexusCore × List Text) (candidate : Text) : NexusCore × List Text :=
  let (core, removed) := state
  if candidate ∉ core.explicitGroups then state
  else if isOccupied core candidate then state
  else if hasDescendant core candidate then state
  else ({ core with explicitGroups := core.explicitGroups.erase candidate }, removed ++ [candidate])

def deepestFirst (folders : List Text) : List Text := folders.mergeSort fun a b => depth b ≤ depth a

def pruneEmptyFoldersUnderTarget (core : NexusCore) (targetFolder : Text) (keepFolders ownedCandidates
    crossSourceProtectedPaths : List Text) : NexusCore × List Text :=
  (deepestFirst (ownedCandidates.filter
    (isGcCandidate core targetFolder keepFolders crossSourceProtectedPaths))).foldl collectFolder (core, [])

def isUnderTarget (targetFolder path : Text) : Bool := targetFolder != [] && (targetFolder ++ ['/']).isPrefixOf path

/-- The folders under the target that hold servers of this source. -/
def sourceOwnedFootprint (core : NexusCore) (source : InventorySourceConfig) (sourceId : Text) : SeqSet Text :=
  .ofList ((core.servers.values.filter fun server =>
      server.origin.map ServerOrigin.sourceId == some sourceId).flatMap fun server =>
    match server.group with
    | some group =>
      if group.isEmpty then [] else (getAncestorPaths group).filter (isUnderTarget source.targetFolder)
    | none => [])

/-- The folders other sources manage or target, with their ancestors. -/
def otherSourcesProtectedPaths (core : NexusCore) (sourceId : Text) : SeqSet Text :=
  .ofList ((core.inventorySources.entries.filter fun entry => entry.1 != sourceId).flatMap fun entry =>
    (entry.2.managedFolders.getD []).flatMap getAncestorPaths
      ++ (if entry.2.targetFolder != [] then getAncestorPaths entry.2.targetFolder else []))

namespace Batch

/-- The managed folders that are still in use, and the ones this batch created. -/
def newManagedFolders (batch : Batch) (source : InventorySourceConfig) (sourceId : Text) : SeqSet Text :=
  let underTarget (folders : SeqSet Text) : SeqSet Text :=
    folders.filter (isUnderTarget source.targetFolder)
  let footprint := sourceOwnedFootprint batch.core source sourceId
  let named := underTarget batch.applicationFolderSet
  let createdThisApply := underTarget batch.addedExplicitGroups
  if source.targetFolder != [] then
    ((SeqSet.ofList (source.managedFolders.getD [])).filter fun f =>
      f ∈ footprint || f ∈ named).addAll createdThisApply.items
  else .empty

def gcOwnedCandidates (batch : Batch) (source : InventorySourceConfig) (sourceId : Text) : SeqSet Text :=
  (SeqSet.ofList (source.managedFolders.getD [])).filter fun f =>
    f ∉ batch.newManagedFolders source sourceId

/-- The collection; the removal of a source runs without it. -/
def collectFolders (batch : Batch) (apply : InventorySyncApplication) (source : InventorySourceConfig) :
    NexusCore × List Text :=
  match apply.expectedSource with
  | .absent => (batch.core, [])
  | .config _ =>
    pruneEmptyFoldersUnderTarget batch.core source.targetFolder batch.applicationFolderSet.items
      (batch.gcOwnedCandidates source apply.sourceId).items
      (otherSourcesProtectedPaths batch.core apply.sourceId).items

/-- Collects the empty folders and stamps the source record. -/
def settleFolders (batch : Batch) (apply : InventorySyncApplication) : Batch :=
  match batch.core.inventorySources.get? apply.sourceId with
  | none => { batch with batchWrittenFocusedSessionId := batch.core.focusedSessionId }
  | some source =>
    let (core, removedEmptyGroups) := batch.collectFolders apply source
    let retainedGcCandidates := (batch.gcOwnedCandidates source apply.sourceId).filter fun f =>
      !removedEmptyGroups.contains f && f ∈ core.explicitGroups
    let stampedManagedFolders := (batch.newManagedFolders source apply.sourceId).addAll retainedGcCandidates.items
    let written := { source with
      lastSyncAt := some apply.syncedAt, managedFolders := some stampedManagedFolders.items }
    { batch with
      core := { core with inventorySources := core.inventorySources.set apply.sourceId written }
      removedEmptyGroups := removedEmptyGroups
      batchWrittenFocusedSessionId := batch.core.focusedSessionId
      source := some source
      writtenSourceRecord := some written }

def mutate (core : NexusCore) (apply : InventorySyncApplication) (accepted : AcceptedApplication) : Batch :=
  let batch := begin core accepted
  let batch := (namedFolders apply.folders).foldl addFolder batch
  let batch := accepted.removeServerIds.foldl deleteServer batch
  let batch := accepted.upsertServers.foldl upsertServer batch
  let batch := batch.sweepGateways accepted.removeServerIds
  let batch := (accepted.upsertServers.map ServerConfig.id).foldl clearDanglingGateway batch
  batch.settleFolders apply

end Batch

structure Collation where
  le : Text → Text → Bool
  trans : ∀ a b c, le a b → le b c → le a c
  total : ∀ a b, le a b || le b a

namespace Batch

variable (batch : Batch)

/-- What becomes of one captured server, unless the batch deleted it. -/
def rollbackServer (core : NexusCore) (id : Text) (prior : Option ServerConfig) : NexusCore :=
  match (batch.batchWrittenServers.get? id).join, core.servers.get? id with
  | none, _ => core
  | some _, none => core
  | some batchSnapshot, some current =>
    if serverConfigsEqual current batchSnapshot then
      match prior with
      | some priorServer => { core with servers := core.servers.set id priorServer }
      | none => { core with servers := core.servers.erase id }
    else
      match prior with
      | none => core
      | some priorServer =>
        { core with
          servers := core.servers.set id (mergeServerConfigFields priorServer batchSnapshot current) }

/-- The deleted servers, whose restore has to wait for the folders. -/
def pendingRemovedServerRestores : List (Text × ServerConfig) :=
  batch.priorServers.entries.filterMap fun entry =>
    match (batch.batchWrittenServers.get? entry.1).join with
    | none => entry.2.map fun priorServer => (entry.1, priorServer)
    | some _ => none

def rollbackServers (core : NexusCore) : NexusCore :=
  batch.priorServers.entries.foldl (fun core entry => batch.rollbackServer core entry.1 entry.2) core

/-- Puts a collected folder back into a chain that still stands. -/
def restoreFolder (groups : SeqSet Text) (group : Text) : SeqSet Text :=
  if group ∈ groups then groups
  else if (parentPath group).any fun parent => parent ∉ groups then groups
  else groups.add group

def shallowestFirst (folders : List Text) : List Text := folders.mergeSort fun a b => depth a ≤ depth b

def rollbackFolders (core : NexusCore) : NexusCore :=
  let groups := core.explicitGroups.filter fun group => group ∉ batch.addedExplicitGroups
  { core with explicitGroups := (shallowestFirst batch.removedEmptyGroups).foldl restoreFolder groups }

end Batch

def folderChain (group : Option Text) : List Text :=
  match group with
  | some group => if group.isEmpty then [] else getAncestorPaths group
  | none => []

def survivingFolderPaths (core : NexusCore) : SeqSet Text :=
  .ofList (core.explicitGroups.items.flatMap (fun group => folderChain (some group))
    ++ core.servers.values.flatMap (fun server => folderChain server.group)
    ++ core.serialProfiles.values.flatMap (fun profile => folderChain profile.group)
    ++ core.localShellProfiles.values.flatMap fun profile => folderChain profile.group)

/-- The depth a deleted server is restored at; no folder is the shallowest. -/
def groupDepth (server : ServerConfig) : Nat :=
  match server.group with
  | some group => if group.isEmpty then 0 else depth group
  | none => 0

def restoreOrder (collation : Collation) (pending : List (Text × ServerConfig)) : List (Text × ServerConfig) :=
  pending.mergeSort fun a b =>
    if groupDepth a.2 ≠ groupDepth b.2 then decide (groupDepth a.2 < groupDepth b.2)
    else collation.le a.1 b.1

def remappedGroup (surviving : SeqSet Text) (group : Text) : Option Text :=
  (getAncestorPaths group).dropLast.reverse.find? fun ancestor => ancestor ∈ surviving

def restoredGroup (surviving : SeqSet Text) (group : Option Text) : Option Text :=
  match group with
  | none => none
  | some group =>
    match parentPath group with
    | none => some group
    | some parent => if parent ∈ surviving then some group else remappedGroup surviving group

namespace Batch

variable (batch : Batch)

def restoreDroppedStatus (core : NexusCore) (id : Text) : NexusCore :=
  match batch.droppedServerStatus.get? id with
  | none => core
  | some (state, source) =>
    { core with
      serverStatus := core.serverStatus.set id state
      serverStatusSource := match source with
        | some source => core.serverStatusSource.set id source
        | none => core.serverStatusSource }

/-- Puts one deleted server back, unless something has taken its place. -/
def restoreServer (state : NexusCore × SeqSet Text) (entry : Text × ServerConfig) :
    NexusCore × SeqSet Text :=
  let (core, surviving) := state
  if core.servers.has entry.1 then state
  else
    let group := restoredGroup surviving entry.2.group
    let core := { core with servers := core.servers.set entry.1 { entry.2 with group := group } }
    (batch.restoreDroppedStatus core entry.1, surviving.addAll (folderChain group))

def restoreRemovedServers (collation : Collation) (core : NexusCore) : NexusCore :=
  ((restoreOrder collation batch.pendingRemovedServerRestores).foldl batch.restoreServer
    (core, survivingFolderPaths core)).1

def restoreSessions (core : NexusCore) : NexusCore :=
  let tombstoned (sessionId : Text) : Bool := sessionId ∈ core.inventorySyncTombstonedSessionIds
  let kept := batch.priorActiveSessions.filter fun entry => !tombstoned entry.1
  { core with
    activeSessions := kept.foldl (fun sessions entry => sessions.set entry.1 entry.2) core.activeSessions
    activitySessionIds := core.activitySessionIds.addAll
      (batch.priorActivitySessionIds.filter fun sessionId => !tombstoned sessionId)
    focusedSessionId :=
      if core.focusedSessionId = batch.batchWrittenFocusedSessionId then
        batch.priorFocusedSessionId.filter fun sessionId => !tombstoned sessionId
      else core.focusedSessionId }

def restoreSource (core : NexusCore) (sourceId : Text) : NexusCore :=
  match batch.source, batch.writtenSourceRecord with
  | some source, some written =>
    if core.inventorySources.get? sourceId = some written then
      { core with inventorySources := core.inventorySources.set sourceId source }
    else core
  | _, _ => core

def rollback (collation : Collation) (sourceId : Text) (core : NexusCore) : NexusCore :=
  let core := batch.rollbackServers core
  let core := batch.rollbackFolders core
  let core := batch.restoreRemovedServers collation core
  let core := batch.restoreSessions core
  batch.restoreSource core sourceId

end Batch

def NexusCore.openWindow (core : NexusCore) : NexusCore :=
  { core with inventorySyncApplyInFlight := true, inventorySyncTombstonedSessionIds := .empty }

def NexusCore.closeWindow (core : NexusCore) : NexusCore :=
  { core with inventorySyncApplyInFlight := false, inventorySyncTombstonedSessionIds := .empty }

inductive ApplyOutcome
  | threw (error : ApplyError)
  | rejected
  | applied (skippedCount : Nat) (removedServerIds : List Text) (removedEmptyFolderCount : Nat)
deriving DecidableEq

/-- `applyInventorySyncPlan` with the operations that run while its saves are
pending, and whether one of these saves rejects. -/
def applyInventorySyncPlan (collation : Collation) (core : NexusCore) (apply : InventorySyncApplication)
    (meanwhile : List Operation) (rejects : Bool) : ApplyOutcome × NexusCore :=
  match checkApplication core apply with
  | .error error => (.threw error, core)
  | .ok accepted =>
    let batch := Batch.mutate core apply accepted
    let pending := batch.core.openWindow.runAll meanwhile
    if rejects then
      (.rejected, (batch.rollback collation apply.sourceId pending).closeWindow)
    else
      (.applied accepted.skippedCount accepted.removeServerIds batch.removedEmptyGroups.length, pending.closeWindow)

end NexTerminal.Inventory
