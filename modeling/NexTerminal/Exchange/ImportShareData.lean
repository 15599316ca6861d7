import NexTerminal.Exchange.Validation
import NexTerminal.Library.FreshIds

namespace NexTerminal.Exchange

open Host Library

/-- The records of `NexusCore` that an import can reach. -/
structure RecordStore where
  servers : SeqMap JsString JsRecord := .empty
  tunnels : SeqMap JsString JsRecord := .empty
  serialProfiles : SeqMap JsString JsRecord := .empty
  localShellProfiles : SeqMap JsString JsRecord := .empty
  authProfiles : SeqMap JsString JsRecord := .empty

def idOf (r : JsRecord) : JsString := (r.get "id").asString.getD []

abbrev Bucket := SeqMap JsString JsRecord

/-- `bucket.set(record.id, record)`. -/
def put (bucket : Bucket) (r : JsRecord) : Bucket := bucket.set (idOf r) r

def opensExplorer (r : JsRecord) : Bool := (r.get "openFileExplorerOnFirstConnect").truthy

def withoutExplorer (r : JsRecord) : JsRecord := r.set "openFileExplorerOnFirstConnect" .undefined

/-- Only one server opens the file explorer: the one that was stored last. -/
def addOrUpdateServer (servers : Bucket) (server : JsRecord) : Bucket :=
  let next := if opensExplorer server then server else withoutExplorer server
  let others :=
    if opensExplorer next then
      servers.mapEntries fun id existing =>
        if id ≠ idOf next ∧ opensExplorer existing then withoutExplorer existing else existing
    else servers
  put others next

def originMalformed (server : JsRecord) : Bool :=
  !(server.get "origin").isUndefined && !isValidServerOrigin (server.get "origin")

def stripOrigin (server : JsRecord) : JsRecord := if originMalformed server then server.remove "origin" else server

/-- The marker goes when it is malformed, and when the origin beside it was stripped. -/
def stripMarker (originWasStripped : Bool) (server : JsRecord) : JsRecord :=
  if !(server.get "formerlySynced").isUndefined &&
      (!isValidDetachedServerOrigin (server.get "formerlySynced") || originWasStripped) then
    server.remove "formerlySynced"
  else server

def sanitizeOrigin (server : JsRecord) : JsRecord := stripMarker (originMalformed server) (stripOrigin server)

/-- `addServerSanitizingOrigin` with `core.addOrUpdateServer`. -/
def addServerSanitizingOrigin (servers : Bucket) (server : JsRecord) : Bucket :=
  addOrUpdateServer servers (sanitizeOrigin server)

structure ShareData where
  servers : List JsRecord := []
  tunnels : List JsRecord := []
  serialProfiles : List JsRecord := []
  localShellProfiles : List JsRecord := []
  authProfiles : List JsRecord := []

section

variable (uuid : Nat → JsString)

def ensureId (drawn : Nat) (item : JsRecord) : JsRecord × Nat :=
  if ((item.get "id").asString.map trim).any (· ≠ []) then (item, drawn)
  else (item.set "id" (.string (uuid drawn)), drawn + 1)

/-- The first pass: each record with its id, and the new id it gets. -/
def assignIds (given : Minting JsString) : List JsRecord → List JsRecord × Minting JsString
  | [] => ([], given)
  | item :: rest =>
    let ensured := ensureId uuid given.drawn item
    let others := assignIds (Minting.mint uuid { given with drawn := ensured.2 } (idOf ensured.1)) rest
    (ensured.1 :: others.1, others.2)

def importEach (remap : JsRecord → JsRecord) (validate : JsRecord → Bool) (bucket : Bucket) (drawn : Nat) :
    List JsRecord → Bucket × Nat
  | [] => (bucket, drawn)
  | item :: rest =>
    let ensured := ensureId uuid drawn item
    let remapped := (remap ensured.1).set "id" (.string (uuid ensured.2))
    importEach remap validate (if validate remapped then put bucket remapped else bucket) (ensured.2 + 1) rest

end

section Remap

variable (idMap : SeqMap JsString JsString)

/-- `idMap.get(value)`. -/
def mapped (value : JsValue) : Option JsString := value.asString.bind idMap.get?

def remapAuthProfile (profile : JsRecord) : JsRecord :=
  profile.set "id" (.ofOption (mapped idMap (profile.get "id")))

def linkToImportedProfile (importedProfileIds : List JsString) (id : JsValue) : Option JsString :=
  if id.truthy then (mapped idMap id).filter (· ∈ importedProfileIds) else none

def rawLink (id : JsValue) : Option JsString := if id.truthy then mapped idMap id else none

def templatedHasAnyStamp (templated : JsValue) : Bool :=
  ["proxy", "multiplexing", "legacyAlgorithms", "logSession", "ipmiAuthProfileId", "ipmiGatewayServerId"].any
    fun key => !(templated.get key).isUndefined

def collapsed (templated : JsValue) : JsValue := if templatedHasAnyStamp templated then templated else .undefined

def remapOriginStamp (importedProfileIds : List JsString) (origin : JsValue) : JsValue :=
  if !isValidServerOrigin origin ||
      ((origin.get "syncedAuthProfileId").isUndefined && !templatedHasAnyStamp (origin.get "templated")) then
    origin
  else
    let next := origin.set "syncedAuthProfileId"
      (.ofOption (linkToImportedProfile idMap importedProfileIds (origin.get "syncedAuthProfileId")))
    let templated := origin.get "templated"
    if templated.isUndefined then next
    else
      let remapped := (templated.set "ipmiAuthProfileId"
          (.ofOption (linkToImportedProfile idMap importedProfileIds (templated.get "ipmiAuthProfileId")))).set
        "ipmiGatewayServerId" (.ofOption (rawLink idMap (templated.get "ipmiGatewayServerId")))
      next.set "templated" (collapsed remapped)

def remapJumpHost (proxy : JsValue) : JsValue :=
  if (proxy.get "type").isText "ssh" then
    match (mapped idMap (proxy.get "jumpHostId")).filter (· ≠ []) with
    | some remapped => proxy.set "jumpHostId" (.string remapped)
    | none => .undefined -- the jump host is not in the export
  else proxy

def remapServer (importedProfileIds : List JsString) (server : JsRecord) : JsRecord :=
  ((((((server.set "id" (.ofOption (mapped idMap (server.get "id")))).set
    "proxy" (remapJumpHost idMap (server.get "proxy"))).set
    "authProfileId" (.ofOption (linkToImportedProfile idMap importedProfileIds (server.get "authProfileId")))).set
    "ipmiAuthProfileId"
      (.ofOption (linkToImportedProfile idMap importedProfileIds (server.get "ipmiAuthProfileId")))).set
    "ipmiGatewayServerId" (.ofOption (rawLink idMap (server.get "ipmiGatewayServerId")))).set
    "origin" (remapOriginStamp idMap importedProfileIds (server.get "origin"))).set
    "formerlySynced" .undefined

def linkToImportedServer (importedServerIds : List JsString) (remapped : JsValue) : Option JsString :=
  remapped.asString.filter (· ∈ importedServerIds)

def finalizeOrigin (importedServerIds : List JsString) (origin : JsValue) : JsValue :=
  let templated := origin.get "templated"
  if (templated.get "ipmiGatewayServerId").isUndefined then origin
  else origin.set "templated" (collapsed (templated.set "ipmiGatewayServerId"
    (.ofOption (linkToImportedServer importedServerIds (templated.get "ipmiGatewayServerId")))))

def finalizeServer (importedServerIds : List JsString) (server : JsRecord) : JsRecord :=
  (server.set "ipmiGatewayServerId"
    (.ofOption (linkToImportedServer importedServerIds (server.get "ipmiGatewayServerId")))).set
    "origin" (finalizeOrigin importedServerIds (server.get "origin"))

def remapTunnel (tunnel : JsRecord) : JsRecord :=
  tunnel.set "defaultServerId" (.ofOption (rawLink idMap (tunnel.get "defaultServerId")))

end Remap

section

variable (uuid : Nat → JsString) (data : ShareData)

def profilePass : List JsRecord × Minting JsString := assignIds uuid .empty data.authProfiles

def serverPass : List JsRecord × Minting JsString := assignIds uuid (profilePass uuid data).2 data.servers

def shareIds : SeqMap JsString JsString := (serverPass uuid data).2.idMap

def landedProfiles : List JsRecord :=
  ((profilePass uuid data).1.map (remapAuthProfile (shareIds uuid data))).filter validateAuthProfile

def importedProfileIds : List JsString := (landedProfiles uuid data).map idOf

def remappedServers : List JsRecord :=
  (serverPass uuid data).1.map (remapServer (shareIds uuid data) (importedProfileIds uuid data))

def importedServerIds : List JsString := ((remappedServers uuid data).filter validateServerConfig).map idOf

/-- The servers that pass validation, with their gateways finalized. -/
def landedServers : List JsRecord :=
  ((remappedServers uuid data).map (finalizeServer (importedServerIds uuid data))).filter validateServerConfig

def importShareData (store : RecordStore) : RecordStore :=
  let tunnels := importEach uuid (remapTunnel (shareIds uuid data)) validateTunnelProfile store.tunnels
    (serverPass uuid data).2.drawn data.tunnels
  let serials := importEach uuid id validateSerialProfile store.serialProfiles tunnels.2 data.serialProfiles
  let shells := importEach uuid id validateLocalShellProfile store.localShellProfiles serials.2 data.localShellProfiles
  { servers := (landedServers uuid data).foldl addServerSanitizingOrigin store.servers
    tunnels := tunnels.1
    serialProfiles := serials.1
    localShellProfiles := shells.1
    authProfiles := (landedProfiles uuid data).foldl put store.authProfiles }

end

end NexTerminal.Exchange
