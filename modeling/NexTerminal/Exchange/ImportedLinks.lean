import NexTerminal.Exchange.ShareImport

namespace NexTerminal.Exchange

open Host Library

variable {uuid : Nat → JsString} {data : ShareData} {store : RecordStore} {id : JsString} {r row : JsRecord}

/-- A link: absent, or the id of a record of that kind that was imported in the same run. -/
def Leads (before after : Bucket) (link : JsValue) : Prop :=
  link = .undefined ∨ ∃ new r, link = .string new ∧ Imported before after new r

def syncedProfile (r : JsRecord) : JsValue := (r.get "origin").get "syncedAuthProfileId"

def templatedProfile (r : JsRecord) : JsValue := ((r.get "origin").get "templated").get "ipmiAuthProfileId"

def templatedGateway (r : JsRecord) : JsValue := ((r.get "origin").get "templated").get "ipmiGatewayServerId"

def Accepted (uuid : Nat → JsString) (data : ShareData) (named : JsString) : Prop :=
  ∃ s ∈ (serverPass uuid data).1, s.get "id" = .string named ∧
    validateServerConfig (remapServer (shareIds uuid data) (importedProfileIds uuid data) s) = true

/-- A link to a host: absent, or the id this run gave to what the file named. -/
def HostLeads (uuid : Nat → JsString) (data : ShareData) (store : RecordStore) (original link : JsValue) : Prop :=
  link = .undefined ∨ ∃ named new, original = .string named ∧ link = .string new ∧
    (shareIds uuid data).get? named = some new ∧
    (Accepted uuid data named → ∃ s, Imported store.servers (importShareData uuid data store).servers new s)

def rewritten : List String :=
  ["id", "proxy", "authProfileId", "ipmiAuthProfileId", "ipmiGatewayServerId", "origin", "formerlySynced",
    "openFileExplorerOnFirstConnect"]

/-- A server of the file and the record that was imported for it. -/
structure ServerArrived (uuid : Nat → JsString) (data : ShareData) (store : RecordStore) (row r : JsRecord) :
    Prop where
  same : SameBut rewritten row r
  authProfile : Leads store.authProfiles (importShareData uuid data store).authProfiles (r.get "authProfileId")
  ipmiAuthProfile : Leads store.authProfiles (importShareData uuid data store).authProfiles (r.get "ipmiAuthProfileId")
  gateway : Leads store.servers (importShareData uuid data store).servers (r.get "ipmiGatewayServerId")
  jumpHost : ((r.get "proxy").get "type").isText "ssh" = true →
    HostLeads uuid data store ((row.get "proxy").get "jumpHostId") ((r.get "proxy").get "jumpHostId")
  marker : r.get "formerlySynced" = .undefined
  synced : isValidServerOrigin (row.get "origin") = true →
    Leads store.authProfiles (importShareData uuid data store).authProfiles (syncedProfile r) ∧
      Leads store.authProfiles (importShareData uuid data store).authProfiles (templatedProfile r) ∧
      Leads store.servers (importShareData uuid data store).servers (templatedGateway r)
  equal : isValidServerOrigin (row.get "origin") = true →
    (row.get "authProfileId" = syncedProfile row → r.get "authProfileId" = syncedProfile r) ∧
      (row.get "ipmiAuthProfileId" = templatedProfile row → r.get "ipmiAuthProfileId" = templatedProfile r) ∧
      (row.get "ipmiGatewayServerId" = templatedGateway row → r.get "ipmiGatewayServerId" = templatedGateway r)

/-- What was there before is there after, save that an imported server with the file-explorer flag takes it over. -/
structure Undisturbed (uuid : Nat → JsString) (data : ShareData) (store : RecordStore) : Prop where
  servers : ∀ id r, store.servers.get? id = some r →
    (importShareData uuid data store).servers.get? id = some r ∨
      opensExplorer r = true ∧ (∃ row ∈ data.servers, opensExplorer row = true ∧
        ∃ s ∈ landedServers uuid data,
        SameBut rewritten row s ∧
          ∃ r, Imported store.servers (importShareData uuid data store).servers (idOf s) r) ∧
        (importShareData uuid data store).servers.get? id = some (withoutExplorer r)
  tunnels : ∀ id r, store.tunnels.get? id = some r → (importShareData uuid data store).tunnels.get? id = some r
  serialProfiles : ∀ id r, store.serialProfiles.get? id = some r →
    (importShareData uuid data store).serialProfiles.get? id = some r
  localShellProfiles : ∀ id r, store.localShellProfiles.get? id = some r →
    (importShareData uuid data store).localShellProfiles.get? id = some r
  authProfiles : ∀ id r, store.authProfiles.get? id = some r →
    (importShareData uuid data store).authProfiles.get? id = some r

section

variable (unused : Unused uuid store)
include unused

theorem leads_profile (value : JsValue) : Leads store.authProfiles (importShareData uuid data store).authProfiles
      (.ofOption (linkToImportedProfile (shareIds uuid data) (importedProfileIds uuid data) value)) := by
  cases link : linkToImportedProfile (shareIds uuid data) (importedProfileIds uuid data) value with
  | none => exact .inl rfl
  | some new =>
    obtain ⟨p, imported⟩ := profile_imported unused (mem_of_linkToImportedProfile link).2
    exact .inr ⟨new, p, rfl, imported⟩

theorem leads_server (value : JsValue) : Leads store.servers (importShareData uuid data store).servers
      (.ofOption (linkToImportedServer (importedServerIds uuid data) value)) := by
  cases link : linkToImportedServer (importedServerIds uuid data) value with
  | none => exact .inl rfl
  | some new =>
    obtain ⟨s, imported⟩ := server_imported unused (mem_of_linkToImportedServer link)
    exact .inr ⟨new, s, rfl, imported⟩

theorem host_imported {named new : JsString} (hit : (shareIds uuid data).get? named = some new)
    (ok : Accepted uuid data named) :
    ∃ s, Imported store.servers (importShareData uuid data store).servers new s := by
  obtain ⟨s, mem, own, valid⟩ := ok
  refine server_imported unused (List.mem_map.mpr
    ⟨_, List.mem_filter.mpr ⟨List.mem_map_of_mem mem, valid⟩, ?_⟩)
  have text : (JsValue.string named).asString = some named := rfl
  simp [idOf, remapServer, own, mapped, text, hit]

theorem hostLeads_of_mapped {value : JsValue} {new : JsString} (hit : mapped (shareIds uuid data) value = some new) :
    HostLeads uuid data store value (.string new) := by
  obtain ⟨named, text, got⟩ := Option.bind_eq_some_iff.mp hit
  exact .inr ⟨named, new, JsValue.asString_eq_some.mp text, rfl, got, host_imported unused got⟩

theorem hostLeads_rawLink (value : JsValue) :
    HostLeads uuid data store value (.ofOption (rawLink (shareIds uuid data) value)) := by
  cases link : rawLink (shareIds uuid data) value with
  | none => exact .inl rfl
  | some new =>
    unfold rawLink at link
    split at link
    · exact hostLeads_of_mapped unused link
    · cases link

theorem hostLeads_jumpHost {proxy : JsValue}
    (ssh : ((remapJumpHost (shareIds uuid data) proxy).get "type").isText "ssh" = true) :
    HostLeads uuid data store (proxy.get "jumpHostId")
      ((remapJumpHost (shareIds uuid data) proxy).get "jumpHostId") := by
  unfold remapJumpHost at ssh ⊢
  split
  · cases hit : (mapped (shareIds uuid data) (proxy.get "jumpHostId")).filter (· ≠ []) with
    | none => exact .inl rfl
    | some new =>
      rw [Option.filter_eq_some_iff] at hit
      rw [JsValue.get_set, if_pos rfl]
      exact hostLeads_of_mapped unused hit.1
  · rename_i ne
    rw [if_neg ne] at ssh
    exact absurd ssh ne

end

theorem landed_row {s : JsRecord} (mem : s ∈ landedServers uuid data) : ∃ row ∈ data.servers, ∃ ensured,
    SameBut ["id"] row ensured ∧ s = finalizeServer (importedServerIds uuid data)
      (remapServer (shareIds uuid data) (importedProfileIds uuid data) ensured) := by
  obtain ⟨copied, -⟩ := List.mem_filter.mp mem
  obtain ⟨_, remapped, rfl⟩ := List.mem_map.mp copied
  obtain ⟨ensured, listed, rfl⟩ := List.mem_map.mp remapped
  obtain ⟨row, present, same⟩ := assignIds_rows _ listed
  exact ⟨row, present, ensured, same, rfl⟩

theorem landed_same {ensured : JsRecord} (ensures : SameBut ["id"] row ensured) :
    SameBut rewritten row (finalizeServer (importedServerIds uuid data)
      (remapServer (shareIds uuid data) (importedProfileIds uuid data) ensured)) := by
  refine ((ensures.mono ?_).trans ((remapServer_same _ _ _).mono ?_)).trans ((finalizeServer_same _ _).mono ?_)
  all_goals simp [rewritten]

theorem serverArrived (unused : Unused uuid store) {ensured : JsRecord} (ensures : SameBut ["id"] row ensured)
    (stored : SameBut explorerKey (sanitizeOrigin (finalizeServer (importedServerIds uuid data)
      (remapServer (shareIds uuid data) (importedProfileIds uuid data) ensured))) r) :
    ServerArrived uuid data store row r := by
  have kept : ∀ key, key ∉ ["origin", "formerlySynced"] → key ∉ explorerKey → r.get key =
      (finalizeServer (importedServerIds uuid data)
        (remapServer (shareIds uuid data) (importedProfileIds uuid data) ensured)).get key :=
    fun key other open' => (stored key open').trans (sanitizeOrigin_same _ key other)
  have authProfile : r.get "authProfileId" = .ofOption (linkToImportedProfile (shareIds uuid data)
      (importedProfileIds uuid data) (row.get "authProfileId")) := by
    rw [kept _ (by decide) (by decide), finalizeServer_same _ _ _ (by decide), ← ensures "authProfileId" (by decide)]
    simp [remapServer]
  have ipmiAuthProfile : r.get "ipmiAuthProfileId" = .ofOption (linkToImportedProfile (shareIds uuid data)
      (importedProfileIds uuid data) (row.get "ipmiAuthProfileId")) := by
    rw [kept _ (by decide) (by decide), finalizeServer_same _ _ _ (by decide),
      ← ensures "ipmiAuthProfileId" (by decide)]
    simp [remapServer]
  have gateway : r.get "ipmiGatewayServerId" = .ofOption (linkToImportedServer (importedServerIds uuid data)
      (.ofOption (rawLink (shareIds uuid data) (row.get "ipmiGatewayServerId")))) := by
    rw [kept _ (by decide) (by decide), ← ensures "ipmiGatewayServerId" (by decide)]
    simp [finalizeServer, remapServer]
  have proxy : r.get "proxy" = remapJumpHost (shareIds uuid data) (row.get "proxy") := by
    rw [kept _ (by decide) (by decide), finalizeServer_same _ _ _ (by decide), ← ensures "proxy" (by decide)]
    simp [remapServer]
  have origin (valid : isValidServerOrigin (row.get "origin") = true) :
      r.get "origin" = finalizeOrigin (importedServerIds uuid data)
        (remapOriginStamp (shareIds uuid data) (importedProfileIds uuid data) (row.get "origin")) := by
    have pre : (finalizeServer (importedServerIds uuid data)
        (remapServer (shareIds uuid data) (importedProfileIds uuid data) ensured)).get "origin" =
        finalizeOrigin (importedServerIds uuid data)
          (remapOriginStamp (shareIds uuid data) (importedProfileIds uuid data) (row.get "origin")) := by
      rw [← ensures "origin" (by decide)]
      simp [finalizeServer, remapServer]
    rw [stored _ (by decide), sanitizeOrigin_valid, pre]
    rw [pre]
    exact valid_remapped valid (fun _ => importedProfileIds_named) fun _ => importedServerIds_named
  refine ⟨?_, ?_, ?_, ?_, ?_, ?_, fun valid => ?_, fun valid => ?_⟩
  · refine (landed_same ensures).trans (((sanitizeOrigin_same _).mono ?_).trans (stored.mono ?_))
    all_goals simp [rewritten, explorerKey]
  · exact authProfile ▸ leads_profile unused _
  · exact ipmiAuthProfile ▸ leads_profile unused _
  · exact gateway ▸ leads_server unused _
  · rw [proxy]
    exact hostLeads_jumpHost unused
  · rw [stored _ (by decide)]
    refine sanitizeOrigin_unmarked ?_
    rw [finalizeServer_same _ _ _ (by decide)]
    simp [remapServer]
  · rw [syncedProfile, templatedProfile, templatedGateway, origin valid, synced_remapped valid, ipmi_remapped valid,
      gateway_remapped valid]
    exact ⟨leads_profile unused _, leads_profile unused _, leads_server unused _⟩
  · rw [syncedProfile, templatedProfile, templatedGateway, syncedProfile, templatedProfile,
      templatedGateway, origin valid,
      synced_remapped valid, ipmi_remapped valid, gateway_remapped valid, authProfile, ipmiAuthProfile, gateway]
    exact ⟨fun same => by rw [same], fun same => by rw [same], fun same => by rw [same]⟩

theorem undisturbed (unused : Unused uuid store) : Undisturbed uuid data store where
  servers := by
    intro id r hit
    have unwritten : id ∉ (landedServers uuid data).map idOf := by
      intro written
      obtain ⟨s, mem, rfl⟩ := List.mem_map.mp written
      obtain ⟨k, fresh⟩ := (landedServer_id mem).1
      rw [fresh, unused.servers k] at hit
      cases hit
    refine (servers_kept unwritten hit).imp_right ?_
    rintro ⟨opens, ⟨s, mem, opener⟩, cleared⟩
    have imported := landed_imported unused mem
    obtain ⟨row, present, ensured, same, rfl⟩ := landed_row mem
    refine ⟨opens, ⟨row, present, ?_, _, mem, ?_, imported⟩, cleared⟩
    · rw [opensExplorer, finalizeServer_same _ _ _ (by decide), remapServer_same _ _ _ _ (by decide),
        same _ (by decide)] at opener
      exact opener
    · exact landed_same same
  tunnels := fun id r hit => by
    rw [← hit]
    refine importEach_kept fun k same => ?_
    rw [← same, unused.tunnels k] at hit
    cases hit
  serialProfiles := fun id r hit => by
    rw [← hit]
    refine importEach_kept fun k same => ?_
    rw [← same, unused.serialProfiles k] at hit
    cases hit
  localShellProfiles := fun id r hit => by
    rw [← hit]
    refine importEach_kept fun k same => ?_
    rw [← same, unused.localShellProfiles k] at hit
    cases hit
  authProfiles := fun id r hit => by
    rw [← hit]
    refine get?_foldl_put fun written => ?_
    obtain ⟨p, mem, rfl⟩ := List.mem_map.mp written
    obtain ⟨k, fresh⟩ := (landedProfile_id mem).1
    rw [fresh, unused.authProfiles k] at hit
    cases hit

/-- The imported links lead to records of the same import, and what was in the store stays. -/
theorem share_import_linked (uuid : Nat → JsString) (data : ShareData) (store : RecordStore)
    (unused : Unused uuid store) :
    (∀ id r, Imported store.servers (importShareData uuid data store).servers id r →
      ∃ row ∈ data.servers, ServerArrived uuid data store row r) ∧
    (∀ id r, Imported store.tunnels (importShareData uuid data store).tunnels id r →
      ∃ row ∈ data.tunnels, SameBut ["id", "defaultServerId"] row r ∧
        HostLeads uuid data store (row.get "defaultServerId") (r.get "defaultServerId")) ∧
    Undisturbed uuid data store := by
  refine ⟨?_, ?_, undisturbed unused⟩
  · rintro id r ⟨found, new⟩
    rcases servers_rows found with ⟨r₀, earlier, -⟩ | ⟨s, member, stored⟩
    · rw [new] at earlier
      cases earlier
    · obtain ⟨row, present, ensured, same, rfl⟩ := landed_row member
      exact ⟨row, present, serverArrived unused same stored⟩
  · rintro id r ⟨found, new⟩
    rcases importEach_rows found with earlier | ⟨row, present, ensured, same, copy⟩
    · rw [new] at earlier
      cases earlier
    · refine ⟨row, present, ?_, ?_⟩
      · exact ((same.mono (by simp)).trans (sameBut_set (by simp) _ _)).trans (copy.mono (by simp))
      · rw [copy _ (by decide), remapTunnel, JsRecord.get_set, if_pos rfl, same _ (by decide)]
        exact hostLeads_rawLink unused _

def countedIds (k : Nat) : JsString := List.replicate (k + 1) 117

def textField (key value : String) : JsString × JsValue := (js key, .string (js value))

def numberField (key : String) (n : Nat) : JsString × JsValue := (js key, .number (.finite n))

def plainServer (id : String) (more : JsRecord) : JsRecord :=
  [textField "id" id, textField "name" id, textField "host" "10.0.0.1", numberField "port" 22,
    textField "username" "root", textField "authType" "password"] ++ more

def sharedFile : ShareData where
  servers :=
    [plainServer "gate" [(js "openFileExplorerOnFirstConnect", .boolean true), textField "authProfileId" "ops",
       (js "origin", .record [textField "sourceId" "lab", textField "externalId" "7", numberField "syncedAt" 0,
         textField "syncedAuthProfileId" "ops"])],
     plainServer "rack" [(js "proxy", .record [textField "type" "ssh", textField "jumpHostId" "bare"]),
                         textField "ipmiGatewayServerId" "gate"],
     [textField "id" "bare"]]
  tunnels :=
    [[textField "id" "web", textField "name" "web", numberField "localPort" 80, textField "remoteIP" "10.0.0.2",
      numberField "remotePort" 80, textField "defaultServerId" "gate"]]
  authProfiles :=
    [[textField "id" "ops", textField "name" "ops", textField "username" "root", textField "authType" "key"]]

def homeStore : RecordStore where
  servers := put .empty (plainServer "home" [(js "openFileExplorerOnFirstConnect", .boolean true)])

theorem unused_homeStore : Unused countedIds homeStore where
  servers := by
    intro k
    rw [homeStore, get?_put, if_neg]
    · rfl
    · intro same
      have ne : (104 : UInt16) ∈ countedIds k := same ▸ (by decide)
      exact absurd (List.eq_of_mem_replicate ne) (by decide)
  tunnels := fun _ => rfl
  serialProfiles := fun _ => rfl
  localShellProfiles := fun _ => rfl
  authProfiles := fun _ => rfl

def landed : RecordStore := importShareData countedIds sharedFile homeStore

theorem landed_records :
    ((landed.servers.get? (countedIds 1)).map
        (fun r => [(r.get "authProfileId").asString, (syncedProfile r).asString]) =
          some [some (countedIds 0), some (countedIds 0)] ∧
      (landed.tunnels.get? (countedIds 4)).map (fun r => (r.get "defaultServerId").asString) =
        some (some (countedIds 1))) ∧
    (landed.servers.get? (js "home")).map opensExplorer = some false ∧
    (landed.servers.get? (countedIds 2)).map (fun r => ((r.get "proxy").get "jumpHostId").asString) =
      some (some (countedIds 3)) ∧
    (landed.servers.get? (countedIds 3)).isNone = true := by
  decide +kernel

theorem share_import_linked_home :
    (∀ id r, Imported homeStore.servers (importShareData countedIds sharedFile homeStore).servers id r →
      ∃ row ∈ sharedFile.servers, ServerArrived countedIds sharedFile homeStore row r) ∧
    (∀ id r, Imported homeStore.tunnels (importShareData countedIds sharedFile homeStore).tunnels id r →
      ∃ row ∈ sharedFile.tunnels, SameBut ["id", "defaultServerId"] row r ∧
        HostLeads countedIds sharedFile homeStore (row.get "defaultServerId") (r.get "defaultServerId")) ∧
    Undisturbed countedIds sharedFile homeStore ∧
    ((importShareData countedIds sharedFile homeStore).servers.get? (countedIds 1)).map
      (fun r => [(r.get "authProfileId").asString, (syncedProfile r).asString]) =
        some [some (countedIds 0), some (countedIds 0)] ∧
    ((importShareData countedIds sharedFile homeStore).tunnels.get? (countedIds 4)).map
      (fun r => (r.get "defaultServerId").asString) = some (some (countedIds 1)) := by
  obtain ⟨servers, tunnels, kept⟩ := share_import_linked countedIds sharedFile homeStore unused_homeStore
  exact ⟨servers, tunnels, kept, landed_records.1⟩

/-- The server at home no longer opens the file explorer, and `rack` goes through a host that is not there. -/
theorem share_import_disturbs : Unused countedIds homeStore ∧
    ¬ (∀ id r, homeStore.servers.get? id = some r →
      (importShareData countedIds sharedFile homeStore).servers.get? id = some r) ∧
    ∃ id r jump, Imported homeStore.servers (importShareData countedIds sharedFile homeStore).servers id r ∧
      (r.get "proxy").get "jumpHostId" = .string jump ∧
      (importShareData countedIds sharedFile homeStore).servers.get? jump = none := by
  obtain ⟨closed, jump, absent⟩ := landed_records.2
  refine ⟨unused_homeStore, fun kept => ?_, ?_⟩
  · have held := kept (js "home") _ (show homeStore.servers.get? (js "home") = some _ from rfl)
    rw [landed, held] at closed
    revert closed
    decide
  · obtain ⟨r, found, jumped⟩ := Option.map_eq_some_iff.mp jump
    rw [JsValue.asString_eq_some] at jumped
    exact ⟨countedIds 2, r, countedIds 3, ⟨found, unused_homeStore.servers 1⟩, jumped,
      Option.isNone_iff_eq_none.mp absent⟩

end NexTerminal.Exchange
