import Mathlib.Data.Rat.Floor
import NexTerminal.Exchange.Records
import NexTerminal.Inventory.SyncWarnings

namespace NexTerminal.Inventory

open Library Exchange

structure PrepareRulesResult where
  prepared : List PreparedRule
  warnings : List SyncWarning

def prepareTemplateRules (env : TextPlatform) (rules : List TemplateRule)
    (templatesById : Text → Option DeviceTemplateProfile) (sourceName : Text) : PrepareRulesResult where
  prepared := rules.filterMap fun rule => (templatesById rule.templateId).map fun template =>
    { rule, template, parsed := parseTemplateFilter env rule.filter, isCatchAll := isCatchAllFilter rule.filter }
  warnings := rules.filterMap fun rule =>
    if (templatesById rule.templateId).isNone then some (.danglingTemplate sourceName) else none

structure DesiredNonAuthFields where
  proxy : Option (TemplateField ProxyConfig) := none
  multiplexing : Option (TemplateField Bool) := none
  legacyAlgorithms : Option (TemplateField Bool) := none
  logSession : Option (TemplateField Bool) := none
  ipmiAuthProfileId : Option (TemplateField Text) := none
  ipmiGatewayServerId : Option (TemplateField Text) := none

/-- What references are checked against, and who is named when one dangles. -/
structure ReferenceContext where
  hasAuthProfile : Text → Bool
  hasServer : Text → Bool
  proxyTemplateName : Option Text
  ipmiAuthProfileTemplateName : Option Text
  ipmiGatewayServerTemplateName : Option Text
  sourceName : Text

structure ComposedDesiredFields where
  desired : DesiredNonAuthFields
  warnings : List SyncWarning

def ReferenceContext.proxyValid (refs : ReferenceContext) : ProxyConfig → Bool
  | .ssh jumpHostId => refs.hasServer jumpHostId
  | _ => true

def composeDesiredFields (winners : (field : TemplatableField) → Option (TemplateField field.Value))
    (refs : ReferenceContext) : ComposedDesiredFields where
  desired :=
    { proxy := (winners .proxy).filter fun won => refs.proxyValid won.value
      multiplexing := winners .multiplexing
      legacyAlgorithms := winners .legacyAlgorithms
      logSession := winners .logSession
      ipmiAuthProfileId := (winners .ipmiAuthProfileId).filter fun won => refs.hasAuthProfile won.value
      ipmiGatewayServerId := (winners .ipmiGatewayServerId).filter fun won => refs.hasServer won.value }
  warnings :=
    (if (winners .proxy).any fun won => !refs.proxyValid won.value then
        [.danglingJumpHost refs.proxyTemplateName refs.sourceName] else []) ++
      (if (winners .ipmiAuthProfileId).any fun won => !refs.hasAuthProfile won.value then
        [.danglingIpmiAuthProfile refs.ipmiAuthProfileTemplateName refs.sourceName] else []) ++
      (if (winners .ipmiGatewayServerId).any fun won => !refs.hasServer won.value then
        [.danglingIpmiGateway refs.ipmiGatewayServerTemplateName refs.sourceName] else [])

/-- A field without value and stamp is filled; one that has its stamp's value follows an overriding rule. -/
def matrixWrites (field : TemplatableField) (cur stamp : Option field.Value) (desired : TemplateField field.Value) :
    Bool :=
  match cur, stamp with
  | none, stamp => stamp.isNone
  | some _, none => false
  | some cur, some stamp =>
    if !valuesEqual field cur stamp then false
    else if valuesEqual field desired.value cur then false
    else desired.mode == .override

/-- The value the matrix writes. A new server takes whatever is wanted. -/
def matrixValue (field : TemplatableField) (isNew : Bool) (cur stamp : Option field.Value)
    (desired : Option (TemplateField field.Value)) : Option field.Value :=
  (desired.filter fun wanted => isNew || matrixWrites field cur stamp wanted).map TemplateField.value

/-- The server that is written to, and who is named where it would refer to itself. -/
structure ProxySelfReferenceContext where
  targetServerId : Text
  targetServerName : Text
  proxyTemplateName : Option Text
  ipmiGatewayTemplateName : Option Text

structure TemplateMatrixResult where
  values : Templated
  templated : Templated
  warnings : List SyncWarning
  clearProxy : Bool

def applyTemplateMatrix (ownedServer : Option ServerConfig) (desired : DesiredNonAuthFields)
    (proxyRef : ProxySelfReferenceContext) : TemplateMatrixResult :=
  let isNew := ownedServer.isNone
  let carried : Templated := ((ownedServer.bind ServerConfig.origin).map ServerOrigin.templated).getD {}
  let selfProxy := desired.proxy.any fun wanted => wanted.value == .ssh proxyRef.targetServerId
  let curProxy := ownedServer.bind ServerConfig.proxy
  let clearProxy := selfProxy && curProxy == some (.ssh proxyRef.targetServerId) && carried.proxy == curProxy
  let selfGateway := desired.ipmiGatewayServerId.any fun wanted => wanted.value == proxyRef.targetServerId
  let values : Templated :=
    { proxy :=
        if selfProxy then none
        else matrixValue .proxy isNew curProxy carried.proxy desired.proxy
      multiplexing := matrixValue .multiplexing isNew (ownedServer.bind ServerConfig.multiplexing)
        carried.multiplexing desired.multiplexing
      legacyAlgorithms := matrixValue .legacyAlgorithms isNew (ownedServer.bind ServerConfig.legacyAlgorithms)
        carried.legacyAlgorithms desired.legacyAlgorithms
      logSession := matrixValue .logSession isNew (ownedServer.bind ServerConfig.logSession)
        carried.logSession desired.logSession
      ipmiAuthProfileId := matrixValue .ipmiAuthProfileId isNew (ownedServer.bind ServerConfig.ipmiAuthProfileId)
        carried.ipmiAuthProfileId desired.ipmiAuthProfileId
      ipmiGatewayServerId :=
        if selfGateway then none
        else matrixValue .ipmiGatewayServerId isNew (ownedServer.bind ServerConfig.ipmiGatewayServerId)
          carried.ipmiGatewayServerId desired.ipmiGatewayServerId }
  { values
    templated :=
      { proxy := if clearProxy then none else values.proxy <|> carried.proxy
        multiplexing := values.multiplexing <|> carried.multiplexing
        legacyAlgorithms := values.legacyAlgorithms <|> carried.legacyAlgorithms
        logSession := values.logSession <|> carried.logSession
        ipmiAuthProfileId := values.ipmiAuthProfileId <|> carried.ipmiAuthProfileId
        ipmiGatewayServerId := values.ipmiGatewayServerId <|> carried.ipmiGatewayServerId }
    warnings :=
      (if clearProxy then [.selfProxyCleared proxyRef.proxyTemplateName proxyRef.targetServerName]
        else if selfProxy then [.selfProxySkipped proxyRef.proxyTemplateName proxyRef.targetServerName] else []) ++
      (if selfGateway then [.selfGatewaySkipped proxyRef.ipmiGatewayTemplateName proxyRef.targetServerName] else [])
    clearProxy }

/-- `{ ...server, ...values }`. -/
def ServerConfig.withTemplateValues (server : ServerConfig) (values : Templated) : ServerConfig :=
  { server with
    proxy := values.proxy <|> server.proxy
    multiplexing := values.multiplexing <|> server.multiplexing
    legacyAlgorithms := values.legacyAlgorithms <|> server.legacyAlgorithms
    logSession := values.logSession <|> server.logSession
    ipmiAuthProfileId := values.ipmiAuthProfileId <|> server.ipmiAuthProfileId
    ipmiGatewayServerId := values.ipmiGatewayServerId <|> server.ipmiGatewayServerId }

def authProfileNeedsServerKeyPath (profile : Option AuthProfile) : Bool :=
  profile.any fun profile => profile.authType == .key && (trim (profile.keyPath.getD [])).isEmpty

def hasOwnKeyPath (server : ServerConfig) : Bool := server.keyPath.any fun path => !(trim path).isEmpty

/-- What the last sync linked, or the one before the source was removed. -/
def lastSyncApplied (server : ServerConfig) : Option Text :=
  match server.origin with
  | some origin => origin.syncedAuthProfileId
  | none => server.formerlySynced.bind DetachedServerOrigin.syncedAuthProfileId

def authFillEligible (server : ServerConfig) (desiredProfileId : Option Text) (baselineUsername : Text) : Bool :=
  let stampedUsername := (server.origin.bind ServerOrigin.syncedUsername).getD baselineUsername
  desiredProfileId.isSome && server.authProfileId.isNone && (lastSyncApplied server).isNone
    && server.authType == .agent && !hasOwnKeyPath server && server.username == some stampedUsername

def authLinkUsableForTarget (profile : Option AuthProfile) (server : ServerConfig) : Bool :=
  !authProfileNeedsServerKeyPath profile || hasOwnKeyPath server

inductive TemplateAuthDecision
  | write (profileId : Text)
  | leave
  | skipUsability (profileId : Text)
deriving DecidableEq

/-- The rule that sets the auth profile: how, and to which. -/
abbrev AuthWinner := TemplateField Text

def decideTemplateAuthWrite (server : ServerConfig) (winner : Option AuthWinner)
    (winnerProfile : Option AuthProfile) (baselineUsername : Text) : TemplateAuthDecision :=
  match winner with
  | none => .leave
  | some winner =>
    let fillId := if authProfileNeedsServerKeyPath winnerProfile then none else some winner.value
    if authFillEligible server fillId baselineUsername then .write winner.value
    else if winner.mode = .override ∧ server.authProfileId.isSome ∧
        server.authProfileId = server.origin.bind ServerOrigin.syncedAuthProfileId then
      if authLinkUsableForTarget winnerProfile server then .write winner.value else .skipUsability winner.value
    else .leave

def ProfileReferrer.outranks : ProfileReferrer → ProfileReferrer → Bool
  | .source, .template _ => true
  | .source, .retainedLink => true
  | .template _, .retainedLink => true
  | _, _ => false

/-- The profiles that need a server's key, each with the reason for which it is looked at. -/
def flagProfile (resolveProfile : Text → Option AuthProfile) (referrers : SeqMap Text ProfileReferrer)
    (flagged : Text × ProfileReferrer) : SeqMap Text ProfileReferrer :=
  if !authProfileNeedsServerKeyPath (resolveProfile flagged.1) then referrers
  else
    match referrers.get? flagged.1 with
    | none => referrers.set flagged.1 flagged.2
    | some existing => if flagged.2.outranks existing then referrers.set flagged.1 flagged.2 else referrers

def syncOwnedLink (server : ServerConfig) : Option Text :=
  server.authProfileId.filter fun id => server.origin.bind ServerOrigin.syncedAuthProfileId == some id

def computeProfilesNeedingServerKey (source : InventorySourceConfig) (ownedServers : List ServerConfig)
    (sourceProfile : Option AuthProfile) (templatesById : Text → Option DeviceTemplateProfile)
    (resolveProfile : Text → Option AuthProfile) : SeqMap Text ProfileReferrer :=
  let ofSource := sourceProfile.toList.map fun profile => (profile.id, ProfileReferrer.source)
  let ofTemplates := (source.templateRules.getD []).filterMap fun rule =>
    (templatesById rule.templateId).bind fun template =>
      template.fields.authProfileId.map fun field => (field.value, ProfileReferrer.template template.name)
  let ofLinks := ownedServers.filterMap fun server =>
    (syncOwnedLink server).map fun id => (id, ProfileReferrer.retainedLink)
  (ofSource ++ ofTemplates ++ ofLinks).foldl (flagProfile resolveProfile) .empty

open Library

inductive InventoryEndpointKind
  | ssh | telnet | redfish | url | ipmiSol
deriving DecidableEq

structure InventoryEndpoint where
  kind : InventoryEndpointKind
  host : Text
  port : Option ℚ := none
  username : Option Text := none
deriving DecidableEq

structure TreeDevice extends InventoryDevice where
  externalId : Text
  folderPath : Option Text := none
  endpoints : List InventoryEndpoint

def addresslessPort : ℚ := 0

def selectSshEndpoint (device : TreeDevice) : Option InventoryEndpoint :=
  device.endpoints.find? fun e => e.kind == .ssh && !e.host.isEmpty

/-- The first ssh endpoint at another host than the first one's. -/
def selectAltEndpoint (device : TreeDevice) : Option InventoryEndpoint :=
  device.endpoints.find? fun e =>
    e.kind == .ssh && !e.host.isEmpty && some e.host != (selectSshEndpoint device).map InventoryEndpoint.host

def selectTelnetEndpoint (device : TreeDevice) : Option InventoryEndpoint :=
  device.endpoints.find? fun e => e.kind == .telnet && !e.host.isEmpty

structure PrimaryEndpoint where
  endpoint : InventoryEndpoint
  protocol : Option ServerProtocol
  defaultPort : ℚ

def PrimaryEndpoint.port (primary : PrimaryEndpoint) : ℚ := primary.endpoint.port.getD primary.defaultPort

def selectPrimaryEndpoint (device : TreeDevice) : Option PrimaryEndpoint :=
  match selectSshEndpoint device with
  | some endpoint => some { endpoint, protocol := none, defaultPort := 22 }
  | none => (selectTelnetEndpoint device).map fun endpoint =>
    { endpoint, protocol := some .telnet, defaultPort := 23 }

def isValidPort (port : ℚ) : Bool := (⌊port⌋ : ℚ) == port && 1 ≤ port && port ≤ 65535

/-- An endpoint of a record's transport, with the port to use. -/
structure OwnedEndpoint where
  endpoint : InventoryEndpoint
  port : ℚ

def selectEndpointForProtocol (device : TreeDevice) (protocol : Option ServerProtocol) : Option OwnedEndpoint :=
  let wantTelnet := protocol == some .telnet
  match if wantTelnet then selectTelnetEndpoint device else selectSshEndpoint device with
  | none => none
  | some endpoint =>
    let port := endpoint.port.getD (if wantTelnet then 23 else 22)
    if isValidPort port then some { endpoint, port } else none

def selectManagementEndpoint (device : TreeDevice) : Option InventoryEndpoint :=
  device.endpoints.find? fun e => (e.kind == .redfish || e.kind == .ipmiSol) && !e.host.isEmpty

def syncOwnsProtocol (current stamp dev : Option ServerProtocol) : Bool :=
  let cur := resolveServerProtocol current
  cur == resolveServerProtocol stamp || cur == resolveServerProtocol dev

def unlessBlank (current : Option Text) : Option Text := current.filter fun text => !(trim text).isEmpty

def syncOwnsIpmiHost (current stamp : Option Text) (oob : Text) : Bool :=
  unlessBlank current == stamp || unlessBlank current == some oob

def syncOwnsAltHost (current stamp : Option Text) (alt : Text) : Bool :=
  unlessBlank current == stamp || unlessBlank current == some alt

def syncOwnsHost (current : Text) (stamp : Option Text) (dev : Text) : Bool :=
  unlessBlank (some current) == stamp || unlessBlank (some current) == some dev

def syncOwnsPort (current : ℚ) (stamp : Option ℚ) (dev : ℚ) : Bool :=
  let cur := if current = addresslessPort then none else some current
  cur == stamp || cur == some dev

inductive SourceAuthRollback
  | unlink | retainOwnKey | none
deriving DecidableEq

def decideSourceAuthRollback (server : ServerConfig) (unusableProfileIds : Text → Bool) : SourceAuthRollback :=
  match server.authProfileId with
  | .none => .none
  | some id =>
    if !unusableProfileIds id || server.origin.bind ServerOrigin.syncedAuthProfileId ≠ some id then .none
    else if hasOwnKeyPath server then .retainOwnKey
    else .unlink

def withSourceLinkCleared (server : ServerConfig) : ServerConfig :=
  { server with
    authProfileId := none
    origin := server.origin.map fun origin => { origin with syncedAuthProfileId := none } }

def sameProviderInstance (kept : DetachedServerOrigin) (providerInstanceKey : Option Text) : Bool :=
  providerInstanceKey.isSome && kept.instanceKey == providerInstanceKey

end NexTerminal.Inventory
