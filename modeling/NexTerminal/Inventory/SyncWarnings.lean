import NexTerminal.Inventory.TemplateCascade

/-! What a sync plan tells the user (`syncEngine.ts`, `templateApply.ts`). -/

namespace NexTerminal.Inventory

open Library

inductive ProfileReferrer
  | source
  | template (templateName : Text)
  | retainedLink
deriving DecidableEq

inductive SyncWarning
  | verbatim (text : Text)
  | danglingTemplate (sourceName : Text)
  | danglingJumpHost (templateName : Option Text) (sourceName : Text)
  | danglingIpmiAuthProfile (templateName : Option Text) (sourceName : Text)
  | danglingIpmiGateway (templateName : Option Text) (sourceName : Text)
  | danglingAuthProfile (sourceName : Text)
  | selfProxyCleared (templateName : Option Text) (serverName : Text)
  | selfProxySkipped (templateName : Option Text) (serverName : Text)
  | selfGatewaySkipped (templateName : Option Text) (serverName : Text)
  | multipleOwners (externalId ownerName : Text)
  | invalidFolder (deviceName externalId folderPath : Text)
  | folderTooDeep (deviceName externalId : Text)
  | noExternalId (deviceName : Text)
  | emptyName (externalId : Text)
  | duplicateExternalId (externalId firstName : Text)
  | invalidPort (deviceName externalId : Text) (port : ℚ)
  | unusableOutOfBandAddress (deviceName externalId host : Text)
  | addresslessCollision (deviceName externalId : Text)
  | addresslessKept (deviceName externalId : Text) (keptNames : List Text)
  | unrelatedCollision (deviceName externalId serverName : Text)
  | keptCollisionMoved (deviceName externalId serverName : Text)
  | keptCollisionOther (deviceName externalId adopteeName serverName : Text)
  | keptCollisionAmbiguous (deviceName externalId : Text) (eligible : Nat) (serverName : Text)
  | adoptionAmbiguous (deviceName : Text) (eligible : Nat)
  | keptMoved (deviceName : Text) (keptNames : List Text)
  | separateAddBlocked (deviceName externalId serverName : Text)
  | manualDuplicate (deviceName serverName : Text)
  | sourceProfileMissing (sourceName : Text)
  /-- An auth profile that needs a server's key, with the links to it taken away and kept. -/
  | profileNeedsKey (profileId profileName : Text) (referrer : ProfileReferrer) (unlinked retained : Nat)
  | overrideRefused (profileName : Text) (serverNames : List Text)
  | otherInstances (deviceNames : List Text) (instances : List Text) (unrecorded : Bool)
  | noInstanceIdentity (deviceNames : List Text)
  | addressless (added placeholders : List Text)
  | downgraded (deviceNames : List Text)
  | emptyNames (externalIds : List Text)
  | invalidPorts (deviceNames : List Text)
  | truncated
  | orphanFolderFailed (candidate : Text) (count : Nat)
  | writtenProxyRejected (templateName : Text) (serverName : Text)
  | writtenGatewayRejected (templateName : Text) (serverName : Text)
  | retainedProxyRemoved (serverName : Text) (circular : Bool)
  | retainedGatewayRemoved (serverName : Text)
  | ruleMatchedNothing (filter : Option Text)
deriving DecidableEq

end NexTerminal.Inventory
