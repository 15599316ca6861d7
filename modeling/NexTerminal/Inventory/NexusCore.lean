import NexTerminal.Library.SeqMap
import NexTerminal.Inventory.FolderPaths

namespace NexTerminal.Inventory

open Library

inductive ServerStatus
  | running | stopped
deriving DecidableEq

/-- A serial profile, a local shell profile or a local server, as far as folders go. -/
structure FolderItem where
  group : Option Text := none
deriving DecidableEq

structure ActiveSession where
  serverId : Text
deriving DecidableEq

/-- A session of a serial profile, a local shell profile or a local server. -/
structure ItemSession where
  ownerId : Text
deriving DecidableEq

structure NexusCore where
  servers : SeqMap Text ServerConfig := .empty
  serialProfiles : SeqMap Text FolderItem := .empty
  localShellProfiles : SeqMap Text FolderItem := .empty
  localServers : SeqMap Text FolderItem := .empty
  explicitGroups : SeqSet Text := .empty
  inventorySources : SeqMap Text InventorySourceConfig := .empty
  activeSessions : SeqMap Text ActiveSession := .empty
  activeSerialSessions : SeqMap Text ItemSession := .empty
  activeLocalShellSessions : SeqMap Text ItemSession := .empty
  activeLocalServerSessions : SeqMap Text ItemSession := .empty
  activitySessionIds : SeqSet Text := .empty
  focusedSessionId : Option Text := none
  serverStatus : SeqMap Text ServerStatus := .empty
  serverStatusSource : SeqMap Text Text := .empty
  inventorySyncApplyInFlight : Bool := false
  inventorySyncTombstonedSessionIds : SeqSet Text := .empty

/-- Removes a gateway link, and the template's stamp of the same link. -/
def clearGatewayLink (server : ServerConfig) : ServerConfig :=
  let clearStamp (templated : Templated) : Templated :=
    if templated.ipmiGatewayServerId.isSome
        && templated.ipmiGatewayServerId == server.ipmiGatewayServerId then
      { templated with ipmiGatewayServerId := none }
    else templated
  { server with
    ipmiGatewayServerId := none
    origin := server.origin.map fun origin =>
      { origin with templated := clearStamp origin.templated }
    formerlySynced := server.formerlySynced.map fun marker =>
      { marker with templated := clearStamp marker.templated } }

def linksTo (deletedServerIds : List Text) (server : ServerConfig) : Bool :=
  server.ipmiGatewayServerId.any fun gateway => deletedServerIds.contains gateway

namespace NexusCore

def gatewayDependents (core : NexusCore) (deletedServerIds : List Text) : List Text :=
  (core.servers.entries.filter fun entry => linksTo deletedServerIds entry.2).map Prod.fst

def clearGatewayReferencesTo (core : NexusCore) (deletedServerIds : List Text) : NexusCore :=
  { core with
    servers := core.servers.mapValues fun server =>
      if linksTo deletedServerIds server then clearGatewayLink server else server }

/-- Closed sessions lose the focus and their activity marks. -/
def forgetSessions (core : NexusCore) (sessionIds : List Text) : NexusCore :=
  { core with
    focusedSessionId := core.focusedSessionId.filter fun id => !sessionIds.contains id
    activitySessionIds := core.activitySessionIds.filter fun id => !sessionIds.contains id }

def sessionIdsOf (sessions : SeqMap Text ItemSession) (ownerId : Text) : List Text :=
  (sessions.entries.filter fun entry => entry.2.ownerId == ownerId).map Prod.fst

def withoutOwner (sessions : SeqMap Text ItemSession) (ownerId : Text) : SeqMap Text ItemSession :=
  sessions.filterValues fun session => session.ownerId != ownerId

def removeServerSessions (core : NexusCore) (serverId : Text) : NexusCore :=
  let closed := (core.activeSessions.entries.filter fun entry =>
    entry.2.serverId == serverId).map Prod.fst
  { core.forgetSessions closed with
    activeSessions := core.activeSessions.filterValues fun session => session.serverId != serverId }

def removeSerialProfileSessions (core : NexusCore) (profileId : Text) : NexusCore :=
  { core.forgetSessions (sessionIdsOf core.activeSerialSessions profileId) with
    activeSerialSessions := withoutOwner core.activeSerialSessions profileId }

def removeLocalShellProfileSessions (core : NexusCore) (profileId : Text) : NexusCore :=
  { core.forgetSessions (sessionIdsOf core.activeLocalShellSessions profileId) with
    activeLocalShellSessions := withoutOwner core.activeLocalShellSessions profileId }

def removeLocalServerConfigSessions (core : NexusCore) (configId : Text) : NexusCore :=
  { core.forgetSessions (sessionIdsOf core.activeLocalServerSessions configId) with
    activeLocalServerSessions := withoutOwner core.activeLocalServerSessions configId }

def dropServerStatusEntry (core : NexusCore) (serverId : Text) : NexusCore :=
  { core with
    serverStatus := core.serverStatus.erase serverId
    serverStatusSource := core.serverStatusSource.erase serverId }

/-- At most one server opens the file explorer on its first connect. -/
def addOrUpdateServer (core : NexusCore) (server : ServerConfig) : NexusCore :=
  if server.openFileExplorerOnFirstConnect = some true then
    { core with
      servers := (core.servers.mapEntries fun id existing =>
        if id ≠ server.id ∧ existing.openFileExplorerOnFirstConnect = some true then
          { existing with openFileExplorerOnFirstConnect := none }
        else existing).set server.id server }
  else
    { core with
      servers := core.servers.set server.id { server with openFileExplorerOnFirstConnect := none } }

def removeServer (core : NexusCore) (serverId : Text) : NexusCore :=
  let core := { core with servers := core.servers.erase serverId }
  let core := core.dropServerStatusEntry serverId
  let core := core.clearGatewayReferencesTo [serverId]
  core.removeServerSessions serverId

def unregisterSession (core : NexusCore) (sessionId : Text) : NexusCore :=
  { core with
    focusedSessionId := if core.focusedSessionId = some sessionId then none else core.focusedSessionId
    activeSessions := core.activeSessions.erase sessionId
    activitySessionIds := core.activitySessionIds.erase sessionId
    inventorySyncTombstonedSessionIds :=
      if core.inventorySyncApplyInFlight then core.inventorySyncTombstonedSessionIds.add sessionId
      else core.inventorySyncTombstonedSessionIds }

def setFocusedSession (core : NexusCore) (sessionId : Option Text) : NexusCore :=
  { core with focusedSessionId := sessionId }

def addGroup (core : NexusCore) (path : Text) : NexusCore :=
  match normalizeFolderPath path with
  | none => core
  | some normalized =>
    { core with explicitGroups := core.explicitGroups.addAll (getAncestorPaths normalized) }

/-- The path with its leading `oldPath` replaced. -/
def rebase (oldPath newPath path : Text) : Text := newPath ++ path.drop oldPath.length

def moveItem (oldPath newPath : Text) (group : Option Text) : Option Text :=
  group.map fun path =>
    if !path.isEmpty && isDescendantOrSelf path oldPath then rebase oldPath newPath path else path

/-- `_renameFolderPath`. -/
def renameFolderPath (core : NexusCore) (oldPath newPath : Text) : NexusCore :=
  let moved := core.explicitGroups.items.filter fun path => isDescendantOrSelf path oldPath
  let kept := core.explicitGroups.filter fun path => !isDescendantOrSelf path oldPath
  let moveProfile (item : FolderItem) : FolderItem := { item with group := moveItem oldPath newPath item.group }
  { core with
    explicitGroups := (kept.addAll (moved.map (rebase oldPath newPath))).addAll (getAncestorPaths newPath)
    servers := core.servers.mapValues fun server =>
      { server with group := moveItem oldPath newPath server.group }
    serialProfiles := core.serialProfiles.mapValues moveProfile
    localShellProfiles := core.localShellProfiles.mapValues moveProfile
    localServers := core.localServers.mapValues moveProfile }

def moveFolder (core : NexusCore) (oldPath : Text) (newParentPath : Option Text) : NexusCore :=
  let leaf := folderDisplayName oldPath
  let newParentPath := newParentPath.filter fun parent => !parent.isEmpty
  let newPath := match newParentPath with
    | some parent => parent ++ ['/'] ++ leaf
    | none => leaf
  match normalizeFolderPath newPath with
  | none => core
  | some normalized =>
    if newParentPath.any fun parent => isDescendantOrSelf parent oldPath then core
    else core.renameFolderPath oldPath normalized

def renameFolder (core : NexusCore) (oldPath newName : Text) : NexusCore :=
  let newPath := match (parentPath oldPath).filter fun parent => !parent.isEmpty with
    | some parent => parent ++ ['/'] ++ newName
    | none => newName
  match normalizeFolderPath newPath with
  | none => core
  | some normalized => core.renameFolderPath oldPath normalized

def inFolder (path : Text) (group : Option Text) : Bool :=
  group.any fun group => !group.isEmpty && isDescendantOrSelf group path

/-- Where an item goes when its folder dissolves into the parent. -/
def liftItem (path : Text) (group : Option Text) : Option Text :=
  if inFolder path group then
    let suffix := (group.getD []).drop path.length
    match (parentPath path).filter fun parent => !parent.isEmpty with
    | some parent => some (parent ++ suffix)
    | none => (some (suffix.drop 1)).filter fun rest => !rest.isEmpty
  else group

def idsInFolder (items : SeqMap Text FolderItem) (path : Text) : List Text :=
  (items.entries.filter fun entry => inFolder path entry.2.group).map Prod.fst

def removeFolderCascade (core : NexusCore) (path : Text) (deleteContents : Bool) : NexusCore :=
  let deletedServerIds :=
    if deleteContents then
      (core.servers.entries.filter fun entry => inFolder path entry.2.group).map Prod.fst
    else []
  let outside (item : FolderItem) : Bool := !inFolder path item.group
  let lift (item : FolderItem) : FolderItem := { item with group := liftItem path item.group }
  let core :=
    if deleteContents then
      let core := deletedServerIds.foldl removeServerSessions
        { core with servers := core.servers.filterValues fun server => !inFolder path server.group }
      let core := (idsInFolder core.serialProfiles path).foldl removeSerialProfileSessions
        { core with serialProfiles := core.serialProfiles.filterValues outside }
      let core := (idsInFolder core.localShellProfiles path).foldl removeLocalShellProfileSessions
        { core with localShellProfiles := core.localShellProfiles.filterValues outside }
      (idsInFolder core.localServers path).foldl removeLocalServerConfigSessions
        { core with localServers := core.localServers.filterValues outside }
    else
      { core with
        servers := core.servers.mapValues fun server =>
          { server with group := liftItem path server.group }
        serialProfiles := core.serialProfiles.mapValues lift
        localShellProfiles := core.localShellProfiles.mapValues lift
        localServers := core.localServers.mapValues lift }
  let kept := core.explicitGroups.filter fun group => !isDescendantOrSelf group path
  let reparented :=
    if deleteContents then []
    else
      (core.explicitGroups.items.filter fun group => isDescendantOrSelf group path && group != path)
        |>.filterMap fun group => liftItem path (some group)
  { core with explicitGroups := kept.addAll reparented }.clearGatewayReferencesTo deletedServerIds

end NexusCore

inductive Operation
  | addOrUpdateServer (server : ServerConfig)
  | removeServer (serverId : Text)
  | moveFolder (oldPath : Text) (newParentPath : Option Text)
  | renameFolder (oldPath newName : Text)
  | removeFolderCascade (path : Text) (deleteContents : Bool)
  | addGroup (path : Text)
  | unregisterSession (sessionId : Text)
  | setFocusedSession (sessionId : Option Text)

def NexusCore.run (core : NexusCore) : Operation → NexusCore
  | .addOrUpdateServer server => core.addOrUpdateServer server
  | .removeServer serverId => core.removeServer serverId
  | .moveFolder oldPath newParentPath => core.moveFolder oldPath newParentPath
  | .renameFolder oldPath newName => core.renameFolder oldPath newName
  | .removeFolderCascade path deleteContents => core.removeFolderCascade path deleteContents
  | .addGroup path => core.addGroup path
  | .unregisterSession sessionId => core.unregisterSession sessionId
  | .setFocusedSession sessionId => core.setFocusedSession sessionId

def NexusCore.runAll (core : NexusCore) (operations : List Operation) : NexusCore :=
  operations.foldl NexusCore.run core

end NexTerminal.Inventory
