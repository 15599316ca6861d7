import NexTerminal.Library.Sequences
import NexTerminal.Exchange.SanitizeForSharing

namespace NexTerminal.Exchange

open Inventory Library Minting

variable {uuid uuid' : Nat → Text} {records : SharedRecords} {id : Text}

namespace SharedRecords

def profileIds (records : SharedRecords) : List Text := records.authProfiles.map (·.id)

def hostIds (records : SharedRecords) : List Text := (travelling records.servers).map (·.id)

def tunnelIds (records : SharedRecords) : List Text := records.tunnels.map (·.id)

def serialIds (records : SharedRecords) : List Text := records.serialProfiles.map (·.id)

def shellIds (records : SharedRecords) : List Text := records.localShellProfiles.map (·.id)

end SharedRecords

open SharedRecords

def tunnelMinting (uuid : Nat → Text) (records : SharedRecords) : Minting Text :=
  (firstIds uuid records).mintAll uuid records.tunnelIds

def serialMinting (uuid : Nat → Text) (records : SharedRecords) : Minting Text :=
  (tunnelMinting uuid records).mintAll uuid records.serialIds

def lastMinting (uuid : Nat → Text) (records : SharedRecords) : Minting Text :=
  (serialMinting uuid records).mintAll uuid records.shellIds

theorem tunnels_copied : (sanitizeForSharing uuid records).tunnels =
    ((firstIds uuid records).copyEach uuid (·.id) sanitizeTunnel records.tunnels).1 := rfl

theorem serials_copied : (sanitizeForSharing uuid records).serialProfiles =
    ((tunnelMinting uuid records).copyEach uuid (·.id) sanitizeSerial records.serialProfiles).1 := by
  simp only [sanitizeForSharing, copyEach_snd]
  rfl

theorem shells_copied : (sanitizeForSharing uuid records).localShellProfiles =
    ((serialMinting uuid records).copyEach uuid (·.id) sanitizeLocalShell records.localShellProfiles).1 := by
  simp only [sanitizeForSharing, copyEach_snd]
  rfl

theorem macros_copied : (sanitizeForSharing uuid records).macros =
    sanitizeMacros uuid (lastMinting uuid records).drawn records.macros := by
  simp only [sanitizeForSharing, copyEach_snd]
  rfl

theorem firstIds_eq : firstIds uuid records = Minting.empty.mintAll uuid (records.profileIds ++ records.hostIds) :=
  (mintAll_append _ _ _).symm

theorem firstIds_drawn : Drawn uuid (firstIds uuid records).idMap := (drawn_empty.mintAll _).mintAll _

theorem tunnelMinting_drawn : Drawn uuid (tunnelMinting uuid records).idMap := firstIds_drawn.mintAll _

theorem serialMinting_drawn : Drawn uuid (serialMinting uuid records).idMap := tunnelMinting_drawn.mintAll _

theorem isSome_firstIds : ((firstIds uuid records).idMap.get? id).isSome ↔
    id ∈ records.profileIds ∨ id ∈ records.hostIds := by
  rw [firstIds_eq, isSome_mintAll, List.mem_append]
  exact or_iff_left (by simp [Minting.empty, SeqMap.get?_empty])

theorem distinct_travelling (nodup : records.ids.Nodup) :
    (records.profileIds ++ records.hostIds ++ records.tunnelIds ++ records.serialIds ++ records.shellIds).Nodup := by
  have hosts : records.hostIds.Sublist (records.servers.map (·.id)) := List.filter_sublist.map _
  have known : (records.hostIds ++ records.tunnelIds ++ records.serialIds ++ records.shellIds ++
      records.profileIds).Sublist records.ids :=
    ((((hosts.append_right _).append_right _).append_right _).append_right _).trans (List.sublist_append_left _ _)
  refine (List.Perm.nodup_iff ?_).mp (nodup.sublist known)
  simpa only [List.append_assoc] using @List.perm_append_comm _
    (records.hostIds ++ records.tunnelIds ++ records.serialIds ++ records.shellIds) records.profileIds

theorem unknown_of_nodup {pre next after : List Text} (nodup : (pre ++ next ++ after).Nodup) :
    ∀ id ∈ next, ((Minting.empty : Minting Text).mintAll uuid pre).idMap.get? id = none := by
  intro id mem
  rw [List.append_assoc, List.nodup_append] at nodup
  refine Option.not_isSome_iff_eq_none.mp fun given => ?_
  rcases isSome_mintAll.mp given with earlier | initial
  · exact nodup.2.2 id earlier id (List.mem_append_left _ mem) rfl
  · cases initial

theorem tunnelMinting_eq : tunnelMinting uuid records =
    Minting.empty.mintAll uuid (records.profileIds ++ records.hostIds ++ records.tunnelIds) := by
  rw [tunnelMinting, firstIds_eq, ← mintAll_append]

theorem serialMinting_eq : serialMinting uuid records =
    Minting.empty.mintAll uuid (records.profileIds ++ records.hostIds ++ records.tunnelIds ++ records.serialIds) := by
  rw [serialMinting, tunnelMinting_eq, ← mintAll_append]

section Distinct

variable (nodup : records.ids.Nodup)
include nodup

theorem tunnels_unknown : ∀ id ∈ records.tunnelIds, (firstIds uuid records).idMap.get? id = none := by
  have ne := distinct_travelling nodup
  rw [List.append_assoc] at ne
  rw [firstIds_eq]
  exact unknown_of_nodup ne

theorem serials_unknown : ∀ id ∈ records.serialIds, (tunnelMinting uuid records).idMap.get? id = none := by
  rw [tunnelMinting_eq]
  exact unknown_of_nodup (distinct_travelling nodup)

theorem shells_unknown : ∀ id ∈ records.shellIds, (serialMinting uuid records).idMap.get? id = none := by
  have ne := distinct_travelling nodup
  rw [← List.append_nil (_ ++ _)] at ne
  rw [serialMinting_eq]
  exact unknown_of_nodup ne

theorem within_tunnels : Within (firstIds uuid records).idMap (tunnelMinting uuid records).idMap :=
  within_mintAll (tunnels_unknown nodup)

theorem within_serials : Within (tunnelMinting uuid records).idMap (serialMinting uuid records).idMap :=
  within_mintAll (serials_unknown nodup)

theorem within_shells : Within (serialMinting uuid records).idMap (lastMinting uuid records).idMap :=
  within_mintAll (shells_unknown nodup)

theorem within_tunnels_last : Within (tunnelMinting uuid records).idMap (lastMinting uuid records).idMap :=
  (within_serials nodup).trans (within_shells nodup)

theorem within_last : Within (firstIds uuid records).idMap (lastMinting uuid records).idMap :=
  (within_tunnels nodup).trans (within_tunnels_last nodup)

theorem tunnels_copies : List.Forall₂ (CopyOf uuid (·.id) sanitizeTunnel (firstIds uuid records).idMap
    (tunnelMinting uuid records).idMap) records.tunnels (sanitizeForSharing uuid records).tunnels := by
  have ne := (distinct_travelling nodup).of_append_left.of_append_left.of_append_right
  exact copyEach_spec ne (fun t mem => tunnels_unknown nodup t.id (List.mem_map_of_mem mem)) firstIds_drawn

theorem serials_copies : List.Forall₂ (CopyOf uuid (·.id) sanitizeSerial (tunnelMinting uuid records).idMap
    (serialMinting uuid records).idMap) records.serialProfiles (sanitizeForSharing uuid records).serialProfiles := by
  have ne := (distinct_travelling nodup).of_append_left.of_append_right
  rw [serials_copied]
  exact copyEach_spec ne (fun p mem => serials_unknown nodup p.id (List.mem_map_of_mem mem)) tunnelMinting_drawn

theorem shells_copies : List.Forall₂ (CopyOf uuid (·.id) sanitizeLocalShell (serialMinting uuid records).idMap
    (lastMinting uuid records).idMap) records.localShellProfiles
      (sanitizeForSharing uuid records).localShellProfiles := by
  have ne := (distinct_travelling nodup).of_append_right
  rw [shells_copied]
  exact copyEach_spec ne (fun p mem => shells_unknown nodup p.id (List.mem_map_of_mem mem)) serialMinting_drawn

end Distinct

theorem exchanged {uuid : Nat → Text} (known : id ∈ records.profileIds ∨ id ∈ records.hostIds) :
    ∃ k, (firstIds uuid records).idMap.get? id = some (uuid k) := by
  obtain ⟨new, hit⟩ := Option.isSome_iff_exists.mp ((@isSome_firstIds uuid records id).mpr known)
  obtain ⟨k, rfl⟩ := firstIds_drawn id new hit
  exact ⟨k, hit⟩

def imagedIds (records : SharedRecords) : List Text :=
  records.hostIds ++ records.tunnelIds ++ records.serialIds ++ records.shellIds ++
    records.travellingProfiles.map (·.id)

variable {new : Text}

theorem mem_imagedIds_of_image {shared : SharedRecords} (image : (id, new) ∈ records.images shared) :
    id ∈ imagedIds records := by
  simp only [images, List.mem_append] at image
  simp only [imagedIds, List.mem_append]
  rcases image with (((host | tunnel) | serial) | shell) | profile
  · exact .inl (.inl (.inl (.inl (List.of_mem_zip host).1)))
  · exact .inl (.inl (.inl (.inr (List.of_mem_zip tunnel).1)))
  · exact .inl (.inl (.inr (List.of_mem_zip serial).1))
  · exact .inl (.inr (List.of_mem_zip shell).1)
  · exact .inr (List.of_mem_zip profile).1

theorem image_of_mem (nodup : records.ids.Nodup) (mem : id ∈ imagedIds records)
    (hit : (lastMinting uuid records).idMap.get? id = some new) :
    (id, new) ∈ records.images (sanitizeForSharing uuid records) := by
  have hosts : List.Forall₂ (fun s s' => (lastMinting uuid records).idMap.get? s.id = some s'.id)
      (travelling records.servers) (sanitizeForSharing uuid records).servers := by
    refine List.forall₂_map_right_iff.mpr (List.forall₂_same.mpr fun s present => ?_)
    obtain ⟨k, own⟩ := @exchanged records s.id uuid (.inr (List.mem_map_of_mem present))
    exact (within_last nodup _ _ own).trans (by simp [sanitizeServer, own])
  have profiles : List.Forall₂ (fun p p' => (lastMinting uuid records).idMap.get? p.id = some p'.id)
      records.travellingProfiles (sanitizeForSharing uuid records).authProfiles := by
    refine List.forall₂_map_right_iff.mpr (List.forall₂_same.mpr fun p present => ?_)
    obtain ⟨k, own⟩ := @exchanged records p.id uuid (.inl (List.mem_map_of_mem (List.mem_of_mem_filter present)))
    exact (within_last nodup _ _ own).trans (by simp [sanitizeAuthProfile, own])
  have tunnels : List.Forall₂ (fun t t' => (lastMinting uuid records).idMap.get? t.id = some t'.id)
      records.tunnels (sanitizeForSharing uuid records).tunnels := by
    refine (tunnels_copies nodup).imp ?_
    rintro t _ ⟨seen, k, rfl, own, -, later, -⟩
    exact within_tunnels_last nodup _ _ (later _ _ own)
  have serials : List.Forall₂ (fun p p' => (lastMinting uuid records).idMap.get? p.id = some p'.id)
      records.serialProfiles (sanitizeForSharing uuid records).serialProfiles := by
    refine (serials_copies nodup).imp ?_
    rintro p _ ⟨seen, k, rfl, own, -, later, -⟩
    exact within_shells nodup _ _ (later _ _ own)
  have shells : List.Forall₂ (fun p p' => (lastMinting uuid records).idMap.get? p.id = some p'.id)
      records.localShellProfiles (sanitizeForSharing uuid records).localShellProfiles := by
    refine (shells_copies nodup).imp ?_
    rintro p _ ⟨seen, k, rfl, own, -, later, -⟩
    exact later _ _ own
  simp only [imagedIds, List.mem_append] at mem
  simp only [images, List.mem_append]
  rcases mem with (((host | tunnel) | serial) | shell) | profile
  · exact .inl (.inl (.inl (.inl (mem_zip_of_forall₂ hosts host hit))))
  · exact .inl (.inl (.inl (.inr (mem_zip_of_forall₂ tunnels tunnel hit))))
  · exact .inl (.inl (.inr (mem_zip_of_forall₂ serials serial hit)))
  · exact .inl (.inr (mem_zip_of_forall₂ shells shell hit))
  · exact .inr (mem_zip_of_forall₂ profiles profile hit)

variable {link : Option Text}

theorem remapLink_eq_some {idMap : IdMap} : remapLink idMap link = some new ↔
    ∃ named, present link = some named ∧ idMap.get? named = some new := by
  simp [remapLink, Option.bind_eq_some_iff]

theorem jumpHost_remapProxy {proxy : Option ProxyConfig} {idMap : IdMap} :
    jumpHost (remapProxy proxy idMap) = (jumpHost proxy).bind fun named => present (idMap.get? named) := by
  rcases proxy with _ | ⟨named⟩ | ⟨_, _, _⟩ | ⟨_, _, _⟩ <;> try rfl
  simp only [remapProxy, jumpHost, Option.bind_some]
  cases present (idMap.get? named) <;> rfl

theorem defaultServerId_sanitizeTunnel {idMap : IdMap} {t : TunnelProfile} :
    present (sanitizeTunnel idMap new t).defaultServerId =
      (present t.defaultServerId).bind fun named => present (idMap.get? named) := by
  simp only [sanitizeTunnel]
  cases held : t.defaultServerId with
  | none => rfl
  | some named =>
    by_cases empty : named = []
    · subst empty
      rfl
    · rw [present_some empty]
      rfl

theorem withRedactedVariables_id (m : TerminalMacro) : (withRedactedVariables m).id = m.id := by
  unfold withRedactedVariables
  split <;> rfl

theorem withRedactedVariables_scope (m : TerminalMacro) :
    (withRedactedVariables m).triggerScope = m.triggerScope := by
  unfold withRedactedVariables
  split <;> rfl

theorem withRedactedVariables_profile (m : TerminalMacro) :
    (withRedactedVariables m).triggerProfileId = m.triggerProfileId := by
  unfold withRedactedVariables
  split <;> rfl

/-- A macro of the export has a fresh id and the trigger it had. -/
structure MacroCopy (uuid : Nat → Text) (m m' : TerminalMacro) : Prop where
  id : ∃ k, m'.id = some (uuid k)
  scope : m'.triggerScope = m.triggerScope
  profile : m'.triggerProfileId = m.triggerProfileId

theorem macros_copies (uuid : Nat → Text) (records : SharedRecords) :
    List.Forall₂ (MacroCopy uuid) records.openMacros (sanitizeForSharing uuid records).macros := by
  refine forall₂_mapIdx (fun k m => ?_) _
  exact ⟨⟨_, withRedactedVariables_id _⟩, withRedactedVariables_scope _, withRedactedVariables_profile _⟩

theorem ids_fresh (nodup : records.ids.Nodup) (mem : new ∈ (sanitizeForSharing uuid records).ids) :
    ∃ k, new = uuid k := by
  simp only [SharedRecords.ids, List.mem_append, List.mem_map, List.mem_filterMap] at mem
  rcases mem with ((((⟨_, server, rfl⟩ | ⟨t', tunnel, rfl⟩) | ⟨p', serial, rfl⟩) | ⟨p', shell, rfl⟩) |
    ⟨_, profile, rfl⟩) | ⟨m', entry, own⟩
  · obtain ⟨s, present, rfl⟩ := List.mem_map.mp server
    obtain ⟨k, own⟩ := @exchanged records s.id uuid (.inr (List.mem_map_of_mem present))
    exact ⟨k, by simp [sanitizeServer, own]⟩
  · obtain ⟨t, -, -, k, rfl, -⟩ := exists_of_forall₂_right (tunnels_copies nodup) tunnel
    exact ⟨k, rfl⟩
  · obtain ⟨p, -, -, k, rfl, -⟩ := exists_of_forall₂_right (serials_copies nodup) serial
    exact ⟨k, rfl⟩
  · obtain ⟨p, -, -, k, rfl, -⟩ := exists_of_forall₂_right (shells_copies nodup) shell
    exact ⟨k, rfl⟩
  · obtain ⟨p, present, rfl⟩ := List.mem_map.mp profile
    obtain ⟨k, own⟩ := @exchanged records p.id uuid (.inl (List.mem_map_of_mem (List.mem_of_mem_filter present)))
    exact ⟨k, by simp [sanitizeAuthProfile, own]⟩
  · obtain ⟨m, -, copy⟩ := exists_of_forall₂_right (macros_copies uuid records) entry
    obtain ⟨k, fresh⟩ := copy.id
    exact ⟨k, Option.mem_unique own fresh⟩

theorem fresh_of_image (nodup : records.ids.Nodup)
    (image : (id, new) ∈ records.images (sanitizeForSharing uuid records)) : ∃ k, new = uuid k := by
  refine ids_fresh nodup ?_
  simp only [images, List.mem_append] at image
  simp only [SharedRecords.ids, List.mem_append]
  rcases image with (((host | tunnel) | serial) | shell) | profile
  · exact .inl (.inl (.inl (.inl (.inl (List.of_mem_zip host).2))))
  · exact .inl (.inl (.inl (.inl (.inr (List.of_mem_zip tunnel).2))))
  · exact .inl (.inl (.inl (.inr (List.of_mem_zip serial).2)))
  · exact .inl (.inl (.inr (List.of_mem_zip shell).2))
  · exact .inl (.inr (List.of_mem_zip profile).2)

theorem link_fresh {s : ServerConfig}
    (mem : some new ∈ serverLinks (sanitizeServer (firstIds uuid records).idMap s)) : ∃ k, new = uuid k := by
  simp only [serverLinks, sanitizeServer, List.mem_cons, List.not_mem_nil, or_false] at mem
  rcases mem with link | link | link | link
  · obtain ⟨named, -, hit⟩ := remapLink_eq_some.mp link.symm
    exact firstIds_drawn _ _ hit
  · obtain ⟨named, -, hit⟩ := remapLink_eq_some.mp link.symm
    exact firstIds_drawn _ _ hit
  · obtain ⟨named, -, hit⟩ := remapLink_eq_some.mp link.symm
    exact firstIds_drawn _ _ hit
  · rw [jumpHost_remapProxy, eq_comm, Option.bind_eq_some_iff] at link
    obtain ⟨named, -, hit⟩ := link
    exact firstIds_drawn _ _ (present_eq_some.mp hit).1

theorem references_fresh (nodup : records.ids.Nodup) (mem : new ∈ (sanitizeForSharing uuid records).references) :
    (∃ k, new = uuid k) ∨ ∃ m ∈ records.openMacros, present m.triggerProfileId = some new := by
  simp only [references, List.mem_filterMap, List.mem_append, List.mem_flatMap, List.mem_map] at mem
  obtain ⟨link, (⟨_, server, own⟩ | ⟨t', tunnel, rfl⟩) | ⟨m', entry, rfl⟩, held⟩ := mem
  · obtain ⟨s, -, rfl⟩ := List.mem_map.mp server
    obtain rfl := (present_eq_some.mp held).1
    rcases own with link | link
    · exact .inl (link_fresh link)
    · cases link
  · obtain ⟨t, -, seen, k, rfl, -, -, -, drawn⟩ := exists_of_forall₂_right (tunnels_copies nodup) tunnel
    rw [defaultServerId_sanitizeTunnel, Option.bind_eq_some_iff] at held
    obtain ⟨named, -, hit⟩ := held
    exact .inl (drawn _ _ (present_eq_some.mp hit).1)
  · obtain ⟨m, present, copy⟩ := exists_of_forall₂_right (macros_copies uuid records) entry
    exact .inr ⟨m, present, copy.profile ▸ held⟩

theorem trigger_mentioned {m : TerminalMacro} {named : Text} (mem : m ∈ records.openMacros)
    (held : present m.triggerProfileId = some named) : named ∈ (sanitizeForSharing uuid records).references := by
  obtain ⟨m', entry, copy⟩ := exists_of_forall₂ (macros_copies uuid records) mem
  simp only [references, List.mem_filterMap, List.mem_append, List.mem_map]
  exact ⟨m'.triggerProfileId, .inr ⟨m', entry, rfl⟩, copy.profile ▸ held⟩

theorem linked_travels (linked : id ∈ referencedProfileIds (travelling records.servers))
    (known : id ∈ records.profileIds) :
    id ∈ records.travellingProfiles.map (·.id) := by
  obtain ⟨p, mem, rfl⟩ := List.mem_map.mp known
  exact List.mem_map_of_mem (List.mem_filter.mpr ⟨mem, decide_eq_true linked⟩)

theorem travels_of_imaged (nodup : records.ids.Nodup) (imaged : id ∈ imagedIds records)
    (known : id ∈ records.profileIds) : id ∈ records.travellingProfiles.map (·.id) := by
  have ne := distinct_travelling nodup
  simp only [List.append_assoc] at ne
  have elsewhere := (List.nodup_append.mp ne).2.2 id known
  simp only [imagedIds, List.append_assoc, List.mem_append] at imaged elsewhere
  rcases imaged with host | tunnel | serial | shell | profile
  · exact absurd rfl (elsewhere id (.inl host))
  · exact absurd rfl (elsewhere id (.inr (.inl tunnel)))
  · exact absurd rfl (elsewhere id (.inr (.inr (.inl serial))))
  · exact absurd rfl (elsewhere id (.inr (.inr (.inr shell))))
  · exact profile

theorem imaged_of_first (hit : (firstIds uuid records).idMap.get? id = some new)
    (travels : id ∈ records.profileIds → id ∈ records.travellingProfiles.map (·.id)) :
    id ∈ imagedIds records := by
  simp only [imagedIds, List.mem_append]
  rcases isSome_firstIds.mp (Option.isSome_of_eq_some hit) with profile | host
  · exact .inr (travels profile)
  · exact .inl (.inl (.inl (.inl host)))

theorem follows_of_found (nodup : records.ids.Nodup) {original copied : Option Text}
    (leads : ∀ new, present copied = some new → ∃ named, original = some named ∧
      (lastMinting uuid records).idMap.get? named = some new ∧ named ∈ imagedIds records) :
    Follows (records.images (sanitizeForSharing uuid records)) original copied := by
  intro new held
  obtain ⟨named, link, hit, imaged⟩ := leads new held
  exact ⟨named, link, image_of_mem nodup imaged hit⟩

theorem follows_link (nodup : records.ids.Nodup)
    (travels : ∀ named, present link = some named → named ∈ records.profileIds →
      named ∈ records.travellingProfiles.map (·.id)) :
    Follows (records.images (sanitizeForSharing uuid records)) link (remapLink (firstIds uuid records).idMap link) := by
  refine follows_of_found nodup fun new held => ?_
  obtain ⟨named, shown, hit⟩ := remapLink_eq_some.mp (present_eq_some.mp held).1
  exact ⟨named, (present_eq_some.mp shown).1, within_last nodup _ _ hit,
    imaged_of_first hit (travels named shown)⟩

theorem mem_referencedProfileIds {servers : List ServerConfig} {s : ServerConfig} (mem : s ∈ servers)
    (own : link ∈ [s.authProfileId, s.ipmiAuthProfileId]) (shown : present link = some id) :
    id ∈ referencedProfileIds servers :=
  List.mem_flatMap.mpr ⟨s, mem, List.mem_filterMap.mpr ⟨link, own, shown⟩⟩

theorem mem_hostLinks : id ∈ hostLinks records ↔
    (∃ s ∈ travelling records.servers, present s.ipmiGatewayServerId = some id ∨ jumpHost s.proxy = some id) ∨
      ∃ t ∈ records.tunnels, present t.defaultServerId = some id := by
  simp only [hostLinks, List.mem_append, List.mem_filterMap, List.mem_flatMap, List.mem_cons,
    List.not_mem_nil, or_false, id_eq, exists_eq_right]
  refine or_congr (exists_congr fun s => and_congr_right fun _ => ?_) Iff.rfl
  exact or_congr eq_comm eq_comm

/-- Where hosts and macros are sheltered, every link of the export leads inside it. -/
theorem Sheltered.closed (sheltered : Sheltered records) (nodup : records.ids.Nodup) :
    Closed records (sanitizeForSharing uuid records) where
  servers := by
    refine List.forall₂_map_right_iff.mpr (List.forall₂_same.mpr fun s mem => ?_)
    refine .cons (follows_link nodup fun named shown known => ?_)
      (.cons (follows_link nodup fun named shown known => ?_)
        (.cons (follows_link nodup fun named shown known => ?_) (.cons ?_ .nil)))
    · exact linked_travels (mem_referencedProfileIds mem (by simp) shown) known
    · exact linked_travels (mem_referencedProfileIds mem (by simp) shown) known
    · exact sheltered.hosts named (mem_hostLinks.mpr (.inl ⟨s, mem, .inl shown⟩)) known
    · refine follows_of_found nodup fun new held => ?_
      have link := (present_eq_some.mp held).1
      rw [sanitizeServer, jumpHost_remapProxy, Option.bind_eq_some_iff] at link
      obtain ⟨named, shown, hit⟩ := link
      have first := (present_eq_some.mp hit).1
      exact ⟨named, shown, within_last nodup _ _ first, imaged_of_first first fun known =>
        sheltered.hosts named (mem_hostLinks.mpr (.inl ⟨s, mem, .inr shown⟩)) known⟩
  tunnels := by
    have each : ∀ t ∈ records.tunnels, ∀ seen k, Within seen (tunnelMinting uuid records).idMap →
        Follows (records.images (sanitizeForSharing uuid records)) t.defaultServerId
          (sanitizeTunnel seen (uuid k) t).defaultServerId := by
      intro t mem seen k later
      refine follows_of_found nodup fun new held => ?_
      rw [defaultServerId_sanitizeTunnel, Option.bind_eq_some_iff] at held
      obtain ⟨named, shown, hit⟩ := held
      have second := later _ _ (present_eq_some.mp hit).1
      refine ⟨named, (present_eq_some.mp shown).1, within_tunnels_last nodup _ _ second, ?_⟩
      rcases isSome_mintAll.mp (Option.isSome_of_eq_some second) with tunnel | first
      · simp only [imagedIds, List.mem_append]
        exact .inl (.inl (.inl (.inr tunnel)))
      · obtain ⟨_, first⟩ := Option.isSome_iff_exists.mp first
        exact imaged_of_first first fun known =>
          sheltered.hosts named (mem_hostLinks.mpr (.inr ⟨t, mem, shown⟩)) known
    have members : List.Forall₂ (fun t t' => t ∈ records.tunnels) records.tunnels
        (sanitizeForSharing uuid records).tunnels :=
      List.forall₂_iff_get.mpr ⟨(tunnels_copies nodup).length_eq, fun k low high => List.get_mem _ _⟩
    refine (forall₂_and members (tunnels_copies nodup)).imp ?_
    rintro t _ ⟨mem, seen, k, rfl, -, -, later, -⟩
    exact each t mem seen k later
  macros := by
    have members : List.Forall₂ (fun m m' => m ∈ records.openMacros) records.openMacros
        (sanitizeForSharing uuid records).macros :=
      List.forall₂_iff_get.mpr ⟨(macros_copies uuid records).length_eq, fun k low high => List.get_mem _ _⟩
    refine (forall₂_and members (macros_copies uuid records)).imp ?_
    rintro m m' ⟨mem, copy⟩ bound named held
    rw [copy.profile] at held
    exact absurd (copy.scope.symm.trans bound) (sheltered.macros m mem named held).1

theorem Sheltered.unoriginal (sheltered : Sheltered records) (nodup : records.ids.Nodup) (fresh : Fresh uuid records) :
    Unoriginal records (sanitizeForSharing uuid records) := by
  have new : ∀ k, uuid k ∉ records.ids := fun k known => fresh.unused k (List.mem_append_left _ known)
  intro id mentioned
  rcases List.mem_append.mp mentioned with own | reference
  · obtain ⟨k, rfl⟩ := ids_fresh nodup own
    exact new k
  · rcases references_fresh nodup reference with ⟨k, rfl⟩ | ⟨m, mem, held⟩
    · exact new k
    · exact (sheltered.macros m mem id held).2

theorem sheltered_of_closed (nodup : records.ids.Nodup) (fresh : Fresh uuid records)
    (closed : Closed records (sanitizeForSharing uuid records))
    (unoriginal : Unoriginal records (sanitizeForSharing uuid records)) : Sheltered records where
  macros := by
    intro m mem named held
    constructor
    · intro bound
      obtain ⟨m', -, follows, copy⟩ :=
        exists_of_forall₂ (forall₂_and closed.macros (macros_copies uuid records)) mem
      obtain ⟨_, -, image⟩ := follows (copy.scope.trans bound) named (copy.profile ▸ held)
      obtain ⟨k, rfl⟩ := fresh_of_image nodup image
      refine fresh.unused k (List.mem_append_right _ ?_)
      simp only [references, List.mem_filterMap, List.mem_append, List.mem_map]
      exact ⟨m.triggerProfileId, .inr ⟨m, List.mem_of_mem_filter mem, rfl⟩, held⟩
    · exact unoriginal named (List.mem_append_right _ (trigger_mentioned mem held))
  hosts := by
    have travels : ∀ {original copied : Option Text} {named : Text} {k : Nat},
        Follows (records.images (sanitizeForSharing uuid records)) original copied → original = some named →
        copied = some (uuid k) → named ∈ records.profileIds →
          named ∈ records.travellingProfiles.map (·.id) := by
      rintro _ _ named k follows rfl rfl known
      obtain ⟨other, link, image⟩ := follows (uuid k) (present_eq_some.mpr ⟨rfl, fresh.nonempty k⟩)
      obtain rfl := Option.some.inj link
      exact travels_of_imaged nodup (mem_imagedIds_of_image image) known
    have servers := List.forall₂_same.mp (List.forall₂_map_right_iff.mp closed.servers)
    intro named linked known
    obtain ⟨k, first⟩ := @exchanged records named uuid (.inl known)
    rcases mem_hostLinks.mp linked with ⟨s, mem, gateway | jump⟩ | ⟨t, mem, shown⟩
    · obtain - | ⟨-, - | ⟨-, - | ⟨follows, -⟩⟩⟩ := servers s mem
      exact travels follows (present_eq_some.mp gateway).1 (remapLink_eq_some.mpr ⟨named, gateway, first⟩) known
    · obtain - | ⟨-, - | ⟨-, - | ⟨-, - | ⟨follows, -⟩⟩⟩⟩ := servers s mem
      refine travels (k := k) follows jump ?_ known
      rw [sanitizeServer, jumpHost_remapProxy, jump, Option.bind_some, first]
      exact present_eq_some.mpr ⟨rfl, fresh.nonempty k⟩
    · obtain ⟨_, -, follows, seen, j, rfl, -, earlier, -, -⟩ :=
        exists_of_forall₂ (forall₂_and closed.tunnels (tunnels_copies nodup)) mem
      refine travels (k := k) follows (present_eq_some.mp shown).1 ?_ known
      refine (present_eq_some.mp ?_).1
      rw [defaultServerId_sanitizeTunnel, shown, Option.bind_some, earlier _ _ first]
      exact present_eq_some.mpr ⟨rfl, fresh.nonempty k⟩

end NexTerminal.Exchange
