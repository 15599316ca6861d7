import NexTerminal.Exchange.Records
import NexTerminal.Library.FreshIds

namespace NexTerminal.Exchange

open Inventory Library

abbrev IdMap := SeqMap Text Text

/-- An ssh proxy goes without its jump host, the others without their credentials. -/
def remapProxy (proxy : Option ProxyConfig) (idMap : IdMap) : Option ProxyConfig :=
  match proxy with
  | none => none
  | some (.ssh jumpHostId) =>
    match present (idMap.get? jumpHostId) with
    | none => none -- the jump host is not in the export
    | some newJumpHostId => some (.ssh newJumpHostId)
  | some (.socks5 host port _) => some (.socks5 host port none)
  | some (.http host port _) => some (.http host port none)

def redactEntry : MacroVariableEntry → MacroVariableEntry
  | .stray value => .stray value
  | .declared v =>
    if v.secret ≠ some true then .declared v
    else if v.default = none ∧ v.remember = none then .declared v
    else .declared { v with «default» := none, remember := none }

def withRedactedVariables (entry : TerminalMacro) : TerminalMacro :=
  match entry.«variables» with
  | none => entry
  | some (.notArray _) => { entry with «variables» := none }
  | some (.entries entries) => { entry with «variables» := some (.entries (entries.map redactEntry)) }

def remapLink (idMap : IdMap) (link : Option Text) : Option Text := (present link).bind idMap.get?

def referencedProfileIds (servers : List ServerConfig) : List Text :=
  servers.flatMap fun s => [s.authProfileId, s.ipmiAuthProfileId].filterMap present

def sanitizeAuthProfile (idMap : IdMap) (p : AuthProfile) : AuthProfile :=
  { p with id := (idMap.get? p.id).getD [], username := "user".toList, keyPath := none }

def sanitizeServer (idMap : IdMap) (s : ServerConfig) : ServerConfig :=
  { s with
    id := (idMap.get? s.id).getD []
    username := some "user".toList
    keyPath := some []
    proxy := remapProxy s.proxy idMap
    authProfileId := remapLink idMap s.authProfileId
    ipmiAuthProfileId := remapLink idMap s.ipmiAuthProfileId
    ipmiGatewayServerId := remapLink idMap s.ipmiGatewayServerId
    origin := none
    formerlySynced := none }

def sanitizeTunnel (idMap : IdMap) (newId : Text) (t : TunnelProfile) : TunnelProfile :=
  { t with
    id := newId
    defaultServerId :=
      if (present t.defaultServerId).isSome then t.defaultServerId.bind idMap.get? else t.defaultServerId }

def sanitizeSerial (_ : IdMap) (newId : Text) (p : SerialProfile) : SerialProfile :=
  { p with id := newId, deviceHint := none }

def sanitizeLocalShell (_ : IdMap) (newId : Text) (p : LocalShellProfile) : LocalShellProfile :=
  { p with id := newId, cwd := none, startupCommand := none }

def sanitizeMacros (uuid : Nat → Text) (drawn : Nat) (entries : List TerminalMacro) : List TerminalMacro :=
  (entries.filter (·.secret ≠ some true)).mapIdx fun k entry =>
    withRedactedVariables { entry with id := some (uuid (drawn + k)) }

def sessionLogDirectory : Text := "nexus.logging.sessionLogDirectory".toList

def sanitizeSettings (settings : SeqMap Text Json) : SeqMap Text Json :=
  if (settings.get? sessionLogDirectory).any truthy then settings.set sessionLogDirectory (.string [])
  else settings

/-- The servers that travel: a record without an address stays at home. -/
def travelling (servers : List ServerConfig) : List ServerConfig := servers.filter (·.addressless ≠ some true)

def firstIds (uuid : Nat → Text) (records : SharedRecords) : Minting Text :=
  (Minting.empty.mintAll uuid (records.authProfiles.map (·.id))).mintAll uuid
    ((travelling records.servers).map (·.id))

local instance : LawfulBEq Text := inferInstance

def sanitizeForSharing (uuid : Nat → Text) (records : SharedRecords) : SharedRecords :=
  let servers := travelling records.servers
  let assigned := firstIds uuid records
  let referenced := referencedProfileIds servers
  let newAuthProfiles :=
    (records.authProfiles.filter fun p => p.id ∈ referenced).map (sanitizeAuthProfile assigned.idMap)
  let newServers := servers.map (sanitizeServer assigned.idMap)
  let tunnels := assigned.copyEach uuid (·.id) sanitizeTunnel records.tunnels
  let serials := tunnels.2.copyEach uuid (·.id) sanitizeSerial records.serialProfiles
  let shells := serials.2.copyEach uuid (·.id) sanitizeLocalShell records.localShellProfiles
  { servers := newServers
    tunnels := tunnels.1
    serialProfiles := serials.1
    localShellProfiles := shells.1
    authProfiles := newAuthProfiles
    macros := sanitizeMacros uuid shells.2.drawn records.macros
    settings := sanitizeSettings records.settings }

def jumpHost : Option ProxyConfig → Option Text
  | some (.ssh jumpHostId) => some jumpHostId
  | _ => none

def serverLinks (s : ServerConfig) : List (Option Text) :=
  [s.authProfileId, s.ipmiAuthProfileId, s.ipmiGatewayServerId, jumpHost s.proxy]

def syncedLinks (s : ServerConfig) : List (Option Text) :=
  (s.origin.elim [] fun origin =>
    [some origin.sourceId, origin.syncedAuthProfileId, origin.templated.ipmiAuthProfileId,
      origin.templated.ipmiGatewayServerId, jumpHost origin.templated.proxy]) ++
  (s.formerlySynced.elim [] fun marker =>
    [some marker.sourceId, marker.syncedAuthProfileId, marker.templated.ipmiAuthProfileId,
      marker.templated.ipmiGatewayServerId, jumpHost marker.templated.proxy])

namespace SharedRecords

def ids (records : SharedRecords) : List Text :=
  records.servers.map (·.id) ++ records.tunnels.map (·.id) ++ records.serialProfiles.map (·.id) ++
    records.localShellProfiles.map (·.id) ++ records.authProfiles.map (·.id) ++ records.macros.filterMap (·.id)

/-- The references that the records carry. An empty one names nothing. -/
def references (records : SharedRecords) : List Text :=
  (records.servers.flatMap (fun s => serverLinks s ++ syncedLinks s) ++ records.tunnels.map (·.defaultServerId) ++
    records.macros.map (·.triggerProfileId)).filterMap present

def travellingProfiles (records : SharedRecords) : List AuthProfile :=
  records.authProfiles.filter fun p => p.id ∈ referencedProfileIds (travelling records.servers)

def openMacros (records : SharedRecords) : List TerminalMacro := records.macros.filter (·.secret ≠ some true)

/-- Each record that travels, by its id, with the id of the record of the export that is its
image. -/
def images (records shared : SharedRecords) : List (Text × Text) :=
  ((travelling records.servers).map (·.id)).zip (shared.servers.map (·.id)) ++
    (records.tunnels.map (·.id)).zip (shared.tunnels.map (·.id)) ++
    (records.serialProfiles.map (·.id)).zip (shared.serialProfiles.map (·.id)) ++
    (records.localShellProfiles.map (·.id)).zip (shared.localShellProfiles.map (·.id)) ++
    (records.travellingProfiles.map (·.id)).zip (shared.authProfiles.map (·.id))

end SharedRecords

/-- A reference of the export: absent, or the image of what the original named. -/
def Follows (images : List (Text × Text)) (original copied : Option Text) : Prop :=
  ∀ id, present copied = some id → ∃ named, original = some named ∧ (named, id) ∈ images

/-- Every reference of the export is absent or leads to the image, in the export, of what the
original reference named. -/
structure Closed (records shared : SharedRecords) : Prop where
  servers :
    List.Forall₂ (fun s s' => List.Forall₂ (Follows (records.images shared)) (serverLinks s) (serverLinks s'))
    (travelling records.servers) shared.servers
  tunnels : List.Forall₂ (fun t t' => Follows (records.images shared) t.defaultServerId t'.defaultServerId)
    records.tunnels shared.tunnels
  macros : List.Forall₂ (fun m m' => m'.triggerScope = some .profile →
    Follows (records.images shared) m.triggerProfileId m'.triggerProfileId) records.openMacros shared.macros

def Unoriginal (records shared : SharedRecords) : Prop := ∀ id ∈ shared.ids ++ shared.references, id ∉ records.ids

/-- What the ids that `randomUUID` gives are: all different, and new. -/
structure Fresh (uuid : Nat → Text) (records : SharedRecords) : Prop where
  injective : Function.Injective uuid
  nonempty : ∀ k, uuid k ≠ []
  unused : ∀ k, uuid k ∉ records.ids ++ records.references

def maskProxy : Option ProxyConfig → Option ProxyConfig
  | some (.socks5 host port _) => some (.socks5 host port none)
  | some (.http host port _) => some (.http host port none)
  | proxy => proxy

def maskServer (s : ServerConfig) : ServerConfig :=
  { s with username := none, keyPath := none, proxy := maskProxy s.proxy, origin := none, formerlySynced := none }

def maskAuthProfile (p : AuthProfile) : AuthProfile := { p with username := [], keyPath := none }

def maskLocalShell (p : LocalShellProfile) : LocalShellProfile := { p with cwd := none, startupCommand := none }

def maskEntry : MacroVariableEntry → MacroVariableEntry
  | .declared v => if v.secret = some true then .declared { v with «default» := none } else .declared v
  | .stray value => .stray value

def maskVariables : MacroVariables → MacroVariables
  | .entries entries => .entries (entries.map maskEntry)
  | .notArray value => .notArray value

def maskMacro (m : TerminalMacro) : TerminalMacro :=
  if m.secret = some true then { name := [], text := [], secret := some true }
  else { m with «variables» := m.«variables».map maskVariables }

def SharedRecords.masked (records : SharedRecords) : SharedRecords :=
  { records with
    servers := records.servers.map maskServer
    localShellProfiles := records.localShellProfiles.map maskLocalShell
    authProfiles := records.authProfiles.map maskAuthProfile
    macros := records.macros.map maskMacro }

def AlikeInPublic (records other : SharedRecords) : Prop := records.masked = other.masked

def renameProxy (ρ : Text → Text) : Option ProxyConfig → Option ProxyConfig
  | some (.ssh jumpHostId) => some (.ssh (ρ jumpHostId))
  | proxy => proxy

def renameServer (ρ : Text → Text) (s : ServerConfig) : ServerConfig :=
  { s with
    id := ρ s.id
    proxy := renameProxy ρ s.proxy
    authProfileId := s.authProfileId.map ρ
    ipmiAuthProfileId := s.ipmiAuthProfileId.map ρ
    ipmiGatewayServerId := s.ipmiGatewayServerId.map ρ }

def SharedRecords.rename (ρ : Text → Text) (shared : SharedRecords) : SharedRecords :=
  { shared with
    servers := shared.servers.map (renameServer ρ)
    tunnels := shared.tunnels.map fun t => { t with id := ρ t.id, defaultServerId := t.defaultServerId.map ρ }
    serialProfiles := shared.serialProfiles.map fun p => { p with id := ρ p.id }
    localShellProfiles := shared.localShellProfiles.map fun p => { p with id := ρ p.id }
    authProfiles := shared.authProfiles.map fun p => { p with id := ρ p.id }
    macros := shared.macros.map fun m => { m with id := m.id.map ρ, triggerProfileId := m.triggerProfileId.map ρ } }

/-- Records that differ in secrets only give exports that differ in the fresh ids only. -/
def SecretFree (uuid : Nat → Text) (records : SharedRecords) : Prop :=
  ∀ other uuid', AlikeInPublic records other → Fresh uuid' other →
    ∃ ρ : Text → Text, (∀ k, ρ (uuid k) = uuid' k) ∧
      sanitizeForSharing uuid' other = (sanitizeForSharing uuid records).rename ρ

/-- The references that lead to a host: jump hosts, gateways and the servers of tunnels. -/
def hostLinks (records : SharedRecords) : List Text :=
  ((travelling records.servers).flatMap fun s => [present s.ipmiGatewayServerId, jumpHost s.proxy]).filterMap id ++
    records.tunnels.filterMap fun t => present t.defaultServerId

/-- No travelling macro is bound, and no host reference names a profile that stays at home. -/
structure Sheltered (records : SharedRecords) : Prop where
  macros : ∀ m ∈ records.openMacros, ∀ id, present m.triggerProfileId = some id →
    m.triggerScope ≠ some .profile ∧ id ∉ records.ids
  hosts : ∀ id ∈ hostLinks records, id ∈ records.authProfiles.map (·.id) →
    id ∈ records.travellingProfiles.map (·.id)

end NexTerminal.Exchange
