import Mathlib.Data.Rat.Defs
import NexTerminal.Library.Text

/-! Server records and their comparison (`models/config.ts`). Text is a list of
characters; a finite number is a rational. -/

namespace NexTerminal.Inventory

abbrev Text := List Char

inductive AuthType
  | password | key | agent
deriving DecidableEq

inductive ServerProtocol
  | ssh | telnet
deriving DecidableEq

inductive BmcWebProtocol
  | https | http
deriving DecidableEq

inductive ProxyConfig
  | ssh (jumpHostId : Text)
  | socks5 (host : Text) (port : ℚ) (username : Option Text)
  | http (host : Text) (port : ℚ) (username : Option Text)
deriving DecidableEq

/-- The template's own stamps. An absent record carries no stamp, as an empty
one does. -/
structure Templated where
  proxy : Option ProxyConfig := none
  multiplexing : Option Bool := none
  legacyAlgorithms : Option Bool := none
  logSession : Option Bool := none
  ipmiAuthProfileId : Option Text := none
  ipmiGatewayServerId : Option Text := none
deriving DecidableEq

/-- The ownership key of a synced server, and the values its sync last wrote. -/
structure ServerOrigin where
  sourceId : Text
  externalId : Text
  syncedAt : ℚ
  syncedInstanceKey : Option Text := none
  syncedUsername : Option Text := none
  syncedAuthProfileId : Option Text := none
  syncedIpmiHost : Option Text := none
  syncedAltHost : Option Text := none
  syncedProtocol : Option ServerProtocol := none
  syncedHost : Option Text := none
  syncedPort : Option ℚ := none
  templated : Templated := {}
deriving DecidableEq

/-- What a server kept of its origin when its source was removed. -/
structure DetachedServerOrigin where
  sourceId : Text
  sourceName : Text
  providerId : Text
  instanceKey : Option Text := none
  externalId : Text
  syncedAuthProfileId : Option Text := none
  syncedIpmiHost : Option Text := none
  syncedAltHost : Option Text := none
  syncedProtocol : Option ServerProtocol := none
  templated : Templated := {}
  detachedAt : ℚ
deriving DecidableEq

structure ServerConfig where
  id : Text
  name : Text
  group : Option Text := none
  host : Text
  port : ℚ
  addressless : Option Bool := none
  protocol : Option ServerProtocol := none
  altHost : Option Text := none
  username : Option Text
  authType : AuthType
  keyPath : Option Text := none
  isHidden : Bool := false
  logSession : Option Bool := none
  multiplexing : Option Bool := none
  legacyAlgorithms : Option Bool := none
  ipmiHost : Option Text := none
  ipmiAuthProfileId : Option Text := none
  bmcWebProtocol : Option BmcWebProtocol := none
  ipmiGatewayServerId : Option Text := none
  openFileExplorerOnFirstConnect : Option Bool := none
  proxy : Option ProxyConfig := none
  authProfileId : Option Text := none
  origin : Option ServerOrigin := none
  formerlySynced : Option DetachedServerOrigin := none
deriving DecidableEq

def resolveServerProtocol (protocol : Option ServerProtocol) : ServerProtocol :=
  if protocol = some .telnet then .telnet else .ssh

def proxyConfigsEqual (a b : Option ProxyConfig) : Bool :=
  match a, b with
  | none, none => true
  | some (.ssh jumpHostId), some (.ssh other) => jumpHostId == other
  | some (.socks5 host port username), some (.socks5 host' port' username') =>
    host == host' && port == port' && username == username'
  | some (.http host port username), some (.http host' port' username') =>
    host == host' && port == port' && username == username'
  | _, _ => false

def templatedStampsEqual (a b : Templated) : Bool :=
  proxyConfigsEqual a.proxy b.proxy && a.multiplexing == b.multiplexing
    && a.legacyAlgorithms == b.legacyAlgorithms && a.logSession == b.logSession
    && a.ipmiAuthProfileId == b.ipmiAuthProfileId && a.ipmiGatewayServerId == b.ipmiGatewayServerId

def templatedHasAnyStamp (templated : Templated) : Bool :=
  templated.proxy.isSome || templated.multiplexing.isSome || templated.legacyAlgorithms.isSome
    || templated.logSession.isSome || templated.ipmiAuthProfileId.isSome
    || templated.ipmiGatewayServerId.isSome

def serverOriginStampsEqual (a b : Option ServerOrigin) : Bool :=
  match a, b with
  | none, none => true
  | some a, some b =>
    a.sourceId == b.sourceId && a.externalId == b.externalId
      && a.syncedInstanceKey == b.syncedInstanceKey && a.syncedUsername == b.syncedUsername
      && a.syncedAuthProfileId == b.syncedAuthProfileId && a.syncedIpmiHost == b.syncedIpmiHost
      && a.syncedAltHost == b.syncedAltHost && a.syncedProtocol == b.syncedProtocol
      && a.syncedHost == b.syncedHost && a.syncedPort == b.syncedPort
      && templatedStampsEqual a.templated b.templated
  | _, _ => false

def serverOriginsEqual (a b : Option ServerOrigin) : Bool :=
  match a, b with
  | none, none => true
  | some x, some y => serverOriginStampsEqual a b && x.syncedAt == y.syncedAt
  | _, _ => false

def detachedOriginsEqual (a b : Option DetachedServerOrigin) : Bool :=
  match a, b with
  | none, none => true
  | some a, some b =>
    a.sourceId == b.sourceId && a.sourceName == b.sourceName && a.providerId == b.providerId
      && a.instanceKey == b.instanceKey && a.externalId == b.externalId
      && a.syncedAuthProfileId == b.syncedAuthProfileId && a.syncedIpmiHost == b.syncedIpmiHost
      && a.syncedAltHost == b.syncedAltHost && a.syncedProtocol == b.syncedProtocol
      && templatedStampsEqual a.templated b.templated && a.detachedAt == b.detachedAt
  | _, _ => false

def serverConfigsEqual (a b : ServerConfig) : Bool :=
  a.id == b.id && a.name == b.name && a.group == b.group && a.host == b.host && a.port == b.port
    && a.addressless.getD false == b.addressless.getD false && a.protocol == b.protocol
    && a.altHost == b.altHost && a.username == b.username && a.authType == b.authType
    && a.keyPath == b.keyPath && a.isHidden == b.isHidden && a.logSession == b.logSession
    && a.multiplexing == b.multiplexing && a.legacyAlgorithms == b.legacyAlgorithms
    && a.ipmiHost == b.ipmiHost && a.ipmiAuthProfileId == b.ipmiAuthProfileId
    && a.bmcWebProtocol == b.bmcWebProtocol && a.ipmiGatewayServerId == b.ipmiGatewayServerId
    && a.openFileExplorerOnFirstConnect == b.openFileExplorerOnFirstConnect
    && a.authProfileId == b.authProfileId && proxyConfigsEqual a.proxy b.proxy
    && serverOriginsEqual a.origin b.origin && detachedOriginsEqual a.formerlySynced b.formerlySynced

@[simp] theorem proxyConfigsEqual_iff {a b : Option ProxyConfig} : proxyConfigsEqual a b = true ↔ a = b := by
  rcases a with _ | ⟨_⟩ | ⟨_, _, _⟩ | ⟨_, _, _⟩ <;> rcases b with _ | ⟨_⟩ |
    ⟨_, _, _⟩ | ⟨_, _, _⟩ <;>
    simp [proxyConfigsEqual, and_assoc]

@[simp] theorem templatedStampsEqual_iff {a b : Templated} : templatedStampsEqual a b = true ↔ a = b := by
  cases a
  cases b
  simp [templatedStampsEqual, and_assoc]

@[simp] theorem serverOriginsEqual_iff {a b : Option ServerOrigin} : serverOriginsEqual a b = true ↔ a = b := by
  cases a with
  | none => cases b <;> simp [serverOriginsEqual]
  | some x =>
    cases b with
    | none => simp [serverOriginsEqual]
    | some y =>
      cases x
      cases y
      simp only [serverOriginsEqual, serverOriginStampsEqual, Bool.and_eq_true, beq_iff_eq,
        templatedStampsEqual_iff, Option.some.injEq, ServerOrigin.mk.injEq]
      tauto

@[simp] theorem detachedOriginsEqual_iff {a b : Option DetachedServerOrigin} :
    detachedOriginsEqual a b = true ↔ a = b := by
  cases a with
  | none => cases b <;> simp [detachedOriginsEqual]
  | some x =>
    cases b with
    | none => simp [detachedOriginsEqual]
    | some y =>
      cases x
      cases y
      simp [detachedOriginsEqual, and_assoc]

/-- The comparison takes an absent `addressless` for false, and is exact otherwise. -/
theorem serverConfigsEqual_iff {a b : ServerConfig} :
    serverConfigsEqual a b = true ↔
      a.addressless.getD false = b.addressless.getD false ∧ { a with addressless := b.addressless } = b := by
  cases b
  simp only [serverConfigsEqual, Bool.and_eq_true, beq_iff_eq, proxyConfigsEqual_iff,
    serverOriginsEqual_iff, detachedOriginsEqual_iff, ServerConfig.mk.injEq]
  tauto

theorem serverConfigsEqual_refl (server : ServerConfig) : serverConfigsEqual server server = true :=
  serverConfigsEqual_iff.mpr ⟨rfl, rfl⟩

/-- Keeps what was changed since the snapshot, and falls back to the prior record
for every other field. -/
def mergeServerConfigFields (prior batchSnapshot current : ServerConfig) : ServerConfig :=
  let pick {α : Type} [DecidableEq α] (field : ServerConfig → α) : α :=
    if field current ≠ field batchSnapshot then field current else field prior
  { prior with
    name := pick (·.name)
    group := pick (·.group)
    host := pick (·.host)
    port := pick (·.port)
    addressless := pick (·.addressless)
    protocol := pick (·.protocol)
    altHost := pick (·.altHost)
    username := pick (·.username)
    authType := pick (·.authType)
    keyPath := pick (·.keyPath)
    isHidden := pick (·.isHidden)
    logSession := pick (·.logSession)
    multiplexing := pick (·.multiplexing)
    legacyAlgorithms := pick (·.legacyAlgorithms)
    ipmiHost := pick (·.ipmiHost)
    ipmiAuthProfileId := pick (·.ipmiAuthProfileId)
    bmcWebProtocol := pick (·.bmcWebProtocol)
    ipmiGatewayServerId := pick (·.ipmiGatewayServerId)
    openFileExplorerOnFirstConnect := pick (·.openFileExplorerOnFirstConnect)
    authProfileId := pick (·.authProfileId)
    proxy := if !proxyConfigsEqual current.proxy batchSnapshot.proxy then current.proxy else prior.proxy
    origin :=
      if !serverOriginsEqual current.origin batchSnapshot.origin then current.origin else prior.origin
    formerlySynced :=
      if !detachedOriginsEqual current.formerlySynced batchSnapshot.formerlySynced then
        current.formerlySynced
      else prior.formerlySynced }

end NexTerminal.Inventory

/-! Inventory source records (`models/inventory.ts`). -/

namespace NexTerminal.Inventory

inductive InventoryPrunePolicy
  | delete | orphan | keep
deriving DecidableEq

inductive SourceValue
  | string (text : Text)
  | number (value : ℚ)
  | boolean (flag : Bool)
deriving DecidableEq

structure TemplateRule where
  id : Text
  filter : Option Text := none
  templateId : Text
deriving DecidableEq

structure InventorySourceConfig where
  id : Text
  providerId : Text
  name : Text
  targetFolder : Text
  prunePolicy : InventoryPrunePolicy
  defaultUsername : Text
  config : List (Text × SourceValue) := []
  secretFieldIds : List Text := []
  lastSyncAt : Option ℚ := none
  revision : Option Text := none
  managedFolders : Option (List Text) := none
  authProfileId : Option Text := none
  templateRules : Option (List TemplateRule) := none
deriving DecidableEq

def templateRulesEqual (a b : Option (List TemplateRule)) : Bool := a.getD [] == b.getD []

def inventorySourceValuesEqual (a b : List (Text × SourceValue)) : Bool :=
  a.length == b.length && a.all fun entry => b.lookup entry.1 == some entry.2

def secretFieldIdsEqual (a b : List Text) : Bool := a.isPerm b

/-- Whether two values are the same incarnation of a source. Two revisions decide
alone. -/
def sourceConfigUnchanged (a b : InventorySourceConfig) : Bool :=
  match a.revision, b.revision with
  | some revision, some other => revision == other
  | _, _ =>
    a.providerId == b.providerId && a.targetFolder == b.targetFolder && a.prunePolicy == b.prunePolicy
      && a.defaultUsername == b.defaultUsername && a.authProfileId == b.authProfileId
      && inventorySourceValuesEqual a.config b.config
      && secretFieldIdsEqual a.secretFieldIds b.secretFieldIds
      && templateRulesEqual a.templateRules b.templateRules

end NexTerminal.Inventory
