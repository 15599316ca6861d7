import Mathlib.Logic.Function.Basic
import NexTerminal.Exchange.ShareExport

namespace NexTerminal.Exchange

open Inventory Library Minting SharedRecords

variable {uuid uuid' : Nat → Text} {records : SharedRecords}

theorem remapProxy_mask (proxy : Option ProxyConfig) (idMap : IdMap) :
    remapProxy (maskProxy proxy) idMap = remapProxy proxy idMap := by
  rcases proxy with _ | ⟨_⟩ | ⟨_, _, _⟩ | ⟨_, _, _⟩ <;> rfl

theorem sanitizeServer_mask (idMap : IdMap) (s : ServerConfig) :
    sanitizeServer idMap (maskServer s) = sanitizeServer idMap s := by
  simp [sanitizeServer, maskServer, remapProxy_mask]

theorem redactEntry_mask (entry : MacroVariableEntry) : redactEntry (maskEntry entry) = redactEntry entry := by
  cases entry with
  | stray value => rfl
  | declared v =>
    by_cases secret : v.secret = some true
    · by_cases remembered : v.remember = none <;> by_cases prefilled : v.default = none <;>
        cases v <;> simp_all [maskEntry, redactEntry]
    · simp [maskEntry, secret]

theorem withRedactedVariables_mask (m : TerminalMacro) :
    withRedactedVariables { m with «variables» := m.«variables».map maskVariables } = withRedactedVariables m := by
  rcases m with ⟨⟩
  rename_i declared _ _ _ _
  rcases declared with _ | ⟨-⟩ | ⟨-⟩
  · rfl
  · simp [withRedactedVariables, maskVariables, redactEntry_mask]
  · rfl

theorem travelling_mask (servers : List ServerConfig) :
    travelling (servers.map maskServer) = (travelling servers).map maskServer := List.filter_map

theorem referencedProfileIds_mask (servers : List ServerConfig) :
    referencedProfileIds (servers.map maskServer) = referencedProfileIds servers := by
  rw [referencedProfileIds, List.flatMap_map]
  rfl

theorem firstIds_mask : firstIds uuid records.masked = firstIds uuid records := by
  simp only [firstIds, masked, travelling_mask, List.map_map]
  rfl

theorem openMacros_mask : records.masked.openMacros =
    records.openMacros.map fun m => { m with «variables» := m.«variables».map maskVariables } := by
  simp only [openMacros, masked]
  induction records.macros with
  | nil => rfl
  | cons m rest ih =>
    rw [List.map_cons]
    by_cases secret : m.secret = some true
    · rw [List.filter_cons_of_neg (by simp [maskMacro, secret]), List.filter_cons_of_neg (by simp [secret]), ih]
    · rw [List.filter_cons_of_pos (by simp [maskMacro, secret]), List.filter_cons_of_pos (by simp [secret]), ih,
        List.map_cons, maskMacro, if_neg secret]

theorem sanitizeMacros_mask (drawn : Nat) :
    sanitizeMacros uuid drawn records.masked.macros = sanitizeMacros uuid drawn records.macros := by
  have ne := @openMacros_mask records
  simp only [openMacros] at ne
  rw [sanitizeMacros, ne, sanitizeMacros]
  refine List.ext_getElem? fun k => ?_
  rw [List.getElem?_mapIdx, List.getElem?_mapIdx, List.getElem?_map, Option.map_map]
  refine congrArg (Option.map · _) (funext fun m => ?_)
  exact withRedactedVariables_mask { m with id := some (uuid (drawn + k)) }

theorem drawn_lastMinting : (lastMinting uuid records).drawn =
    (firstIds uuid records).drawn + records.tunnels.length + records.serialProfiles.length +
      records.localShellProfiles.length := by
  simp [lastMinting, serialMinting, tunnelMinting, drawn_mintAll, tunnelIds, serialIds, shellIds]

theorem sanitize_masked : sanitizeForSharing uuid records.masked = sanitizeForSharing uuid records := by
  have serials : serialMinting uuid records.masked = serialMinting uuid records := by
    simp only [serialMinting, tunnelMinting, firstIds_mask]
    rfl
  have last : (lastMinting uuid records.masked).drawn = (lastMinting uuid records).drawn := by
    rw [drawn_lastMinting, drawn_lastMinting, firstIds_mask]
    simp [masked]
  have servers : (sanitizeForSharing uuid records.masked).servers = (sanitizeForSharing uuid records).servers := by
    simp only [sanitizeForSharing, firstIds_mask]
    simp only [masked, travelling_mask, List.map_map]
    exact List.map_congr_left fun s _ => sanitizeServer_mask _ s
  have profiles : (sanitizeForSharing uuid records.masked).authProfiles =
      (sanitizeForSharing uuid records).authProfiles := by
    simp only [sanitizeForSharing, firstIds_mask]
    simp only [masked, travelling_mask, referencedProfileIds_mask, List.filter_map, List.map_map]
    rfl
  have tunnels : (sanitizeForSharing uuid records.masked).tunnels = (sanitizeForSharing uuid records).tunnels := by
    rw [tunnels_copied, tunnels_copied, firstIds_mask]
    rfl
  have serialProfiles : (sanitizeForSharing uuid records.masked).serialProfiles =
      (sanitizeForSharing uuid records).serialProfiles := by
    rw [serials_copied, serials_copied, tunnelMinting, firstIds_mask]
    rfl
  have shells : (sanitizeForSharing uuid records.masked).localShellProfiles =
      (sanitizeForSharing uuid records).localShellProfiles := by
    rw [shells_copied, shells_copied, serials]
    have same := @copyEach_map_same _ _ _ _ uuid LocalShellProfile.id sanitizeLocalShell maskLocalShell (fun _ => rfl)
      (fun _ _ _ => rfl)
    exact congrArg Prod.fst (same _ _)
  have macros : (sanitizeForSharing uuid records.masked).macros = (sanitizeForSharing uuid records).macros := by
    rw [macros_copied, macros_copied, last, sanitizeMacros_mask]
  have settings : (sanitizeForSharing uuid records.masked).settings = (sanitizeForSharing uuid records).settings := rfl
  generalize sanitizeForSharing uuid records.masked = first at *
  cases first
  simp_all

section Renaming

variable {ρ : Text → Text} (renames : ∀ k, ρ (uuid k) = uuid' k) (atEmpty : ρ [] = [])

section Links

variable {seen seen' : IdMap} (renamed : ∀ id, seen'.get? id = (seen.get? id).map ρ)
include renamed

theorem remapLink_rename (link : Option Text) : remapLink seen' link = (remapLink seen link).map ρ := by
  rw [remapLink, remapLink, Option.map_bind]
  exact congrArg (Option.bind (present link)) (funext renamed)

theorem getD_rename (atEmpty : ρ [] = []) (id : Text) : (seen'.get? id).getD [] = ρ ((seen.get? id).getD []) := by
  rw [renamed]
  cases seen.get? id with
  | none => exact atEmpty.symm
  | some new => rfl

theorem remapProxy_rename (shown : ∀ id new, seen.get? id = some new → new ≠ [] ∧ ρ new ≠ [])
    (proxy : Option ProxyConfig) :
    remapProxy proxy seen' = renameProxy ρ (remapProxy proxy seen) := by
  rcases proxy with _ | ⟨jumpHostId⟩ | ⟨_, _, _⟩ | ⟨_, _, _⟩ <;> try rfl
  simp only [remapProxy]
  rw [renamed]
  cases hit : seen.get? jumpHostId with
  | none => rfl
  | some new =>
    obtain ⟨ne, nonempty'⟩ := shown jumpHostId new hit
    rw [Option.map_some, present_some ne, present_some nonempty']
    rfl

theorem sanitizeTunnel_rename (atEmpty : ρ [] = []) (new : Text) (t : TunnelProfile) :
    sanitizeTunnel seen' (ρ new) t =
      { sanitizeTunnel seen new t with
        id := ρ new
        defaultServerId := (sanitizeTunnel seen new t).defaultServerId.map ρ } := by
  have link : (if (present t.defaultServerId).isSome then t.defaultServerId.bind seen'.get? else t.defaultServerId) =
      (if (present t.defaultServerId).isSome then t.defaultServerId.bind seen.get? else t.defaultServerId).map ρ := by
    cases t.defaultServerId with
    | none => rfl
    | some named =>
      by_cases empty : named = []
      · subst empty
        exact congrArg some atEmpty.symm
      · rw [present_some empty]
        exact renamed named
  simp [sanitizeTunnel, link]

end Links

theorem withRedactedVariables_with (m : TerminalMacro) (id profile : Option Text) :
    withRedactedVariables { m with id := id, triggerProfileId := profile } =
      { withRedactedVariables m with id := id, triggerProfileId := profile } := by
  unfold withRedactedVariables
  split <;> simp_all

include renames

theorem renamed_firstIds : Renamed ρ (firstIds uuid records) (firstIds uuid' records) :=
  (renamed_empty.mintAll renames _).mintAll renames _

theorem renamed_tunnels : Renamed ρ (tunnelMinting uuid records) (tunnelMinting uuid' records) :=
  (renamed_firstIds renames).mintAll renames _

theorem renamed_serials : Renamed ρ (serialMinting uuid records) (serialMinting uuid' records) :=
  (renamed_tunnels renames).mintAll renames _

/-- The export under another stream of ids, for a renaming that leaves macro bindings alone. -/
theorem sanitize_renamed (atEmpty : ρ [] = []) (ne : ∀ k, uuid k ≠ []) (nonempty' : ∀ k, uuid' k ≠ [])
    (bound : ∀ m ∈ records.openMacros, m.triggerProfileId.map ρ = m.triggerProfileId) :
    sanitizeForSharing uuid' records = (sanitizeForSharing uuid records).rename ρ := by
  have first := @renamed_firstIds _ _ records _ renames
  have shown : ∀ id new, (firstIds uuid records).idMap.get? id = some new → new ≠ [] ∧ ρ new ≠ [] := by
    intro id new hit
    obtain ⟨k, rfl⟩ := firstIds_drawn id new hit
    exact ⟨ne k, renames k ▸ nonempty' k⟩
  have servers : (sanitizeForSharing uuid' records).servers =
      (sanitizeForSharing uuid records).servers.map (renameServer ρ) := by
    simp only [sanitizeForSharing]
    simp [sanitizeServer, renameServer, remapLink_rename first.2, getD_rename first.2 atEmpty,
      remapProxy_rename first.2 shown]
  have profiles : (sanitizeForSharing uuid' records).authProfiles =
      (sanitizeForSharing uuid records).authProfiles.map fun p => { p with id := ρ p.id } := by
    simp only [sanitizeForSharing]
    simp [sanitizeAuthProfile, getD_rename first.2 atEmpty]
  have tunnels : (sanitizeForSharing uuid' records).tunnels = (sanitizeForSharing uuid records).tunnels.map
      fun t => { t with id := ρ t.id, defaultServerId := t.defaultServerId.map ρ } := by
    refine first.copyEach renames (List.forall₂_same.mpr fun t _ => ⟨rfl, fun seen seen' new renamed => ?_⟩)
    exact sanitizeTunnel_rename renamed atEmpty new t
  have serials : (sanitizeForSharing uuid' records).serialProfiles =
      (sanitizeForSharing uuid records).serialProfiles.map fun p => { p with id := ρ p.id } := by
    rw [serials_copied, serials_copied]
    exact (renamed_tunnels renames).copyEach renames (List.forall₂_same.mpr fun p _ => ⟨rfl, fun _ _ _ _ => rfl⟩)
  have shells : (sanitizeForSharing uuid' records).localShellProfiles =
      (sanitizeForSharing uuid records).localShellProfiles.map fun p => { p with id := ρ p.id } := by
    rw [shells_copied, shells_copied]
    exact (renamed_serials renames).copyEach renames (List.forall₂_same.mpr fun p _ => ⟨rfl, fun _ _ _ _ => rfl⟩)
  have macros : (sanitizeForSharing uuid' records).macros = (sanitizeForSharing uuid records).macros.map
      fun m => { m with id := m.id.map ρ, triggerProfileId := m.triggerProfileId.map ρ } := by
    rw [macros_copied, macros_copied, drawn_lastMinting, drawn_lastMinting, first.1, sanitizeMacros, sanitizeMacros]
    refine List.ext_getElem? fun k => ?_
    rw [List.getElem?_map, List.getElem?_mapIdx, List.getElem?_mapIdx, Option.map_map]
    refine Option.map_congr fun m mem => ?_
    have fixed := bound m (List.mem_of_getElem? mem)
    simp only [Function.comp_apply, withRedactedVariables_id, withRedactedVariables_profile, fixed,
      Option.map_some, renames]
    rw [← withRedactedVariables_with]
  have settings : (sanitizeForSharing uuid' records).settings = (sanitizeForSharing uuid records).settings := rfl
  rw [SharedRecords.rename, ← servers, ← profiles, ← tunnels, ← serials, ← shells, ← macros, ← settings]

end Renaming

theorem secretFree (fresh : Fresh uuid records) : SecretFree uuid records := by
  intro other uuid' alike fresh'
  have renames : ∀ k, Function.extend uuid uuid' (fun other => other) (uuid k) = uuid' k :=
    fresh.injective.extend_apply uuid' _
  have unmoved : ∀ id ∉ Set.range uuid, Function.extend uuid uuid' (fun other => other) id = id :=
    fun id unknown => Function.extend_apply' _ _ _ unknown
  refine ⟨_, renames, ?_⟩
  rw [← sanitize_masked, ← show records.masked = other.masked from alike, sanitize_masked]
  refine sanitize_renamed renames (unmoved [] ?_) fresh.nonempty fresh'.nonempty fun m mem => ?_
  · rintro ⟨k, empty⟩
    exact fresh.nonempty k empty
  · cases held : m.triggerProfileId with
    | none => rfl
    | some named =>
      refine congrArg some (unmoved named ?_)
      rintro ⟨k, rfl⟩
      refine fresh.unused k (List.mem_append_right _ ?_)
      simp only [references, List.mem_filterMap, List.mem_append, List.mem_map]
      exact ⟨m.triggerProfileId, .inr ⟨m, List.mem_of_mem_filter mem, rfl⟩,
        held ▸ present_some (fresh.nonempty k)⟩

/-- The export keeps its promise exactly when the records are sheltered. -/
theorem share_sealed (uuid : Nat → Text) (records : SharedRecords) (distinct : records.ids.Nodup)
    (fresh : Fresh uuid records) :
    (Closed records (sanitizeForSharing uuid records) ∧ Unoriginal records (sanitizeForSharing uuid records) ∧
      SecretFree uuid records) ↔ Sheltered records := by
  constructor
  · rintro ⟨closed, unoriginal, -⟩
    exact sheltered_of_closed distinct fresh closed unoriginal
  · intro sheltered
    exact ⟨sheltered.closed distinct, sheltered.unoriginal distinct fresh, secretFree fresh⟩

def tally (k : Nat) : Text := List.replicate (k + 1) 'u'

theorem fresh_tally (other : ∀ id ∈ records.ids ++ records.references, id.any (· != 'u') = true) :
    Fresh tally records where
  injective := by
    intro j k same
    have lengths := congrArg List.length same
    simp only [tally, List.length_replicate] at lengths
    omega
  nonempty := fun k => List.cons_ne_nil _ _
  unused := by
    intro k known
    obtain ⟨c, mem, differ⟩ := List.any_eq_true.mp (other _ known)
    exact bne_iff_ne.mp differ (List.eq_of_mem_replicate mem)

def lab : SharedRecords where
  servers :=
    [{ id := "gate".toList, name := "gate".toList, host := "10.0.0.1".toList, port := 22,
       username := some "root".toList, authType := .password, authProfileId := some "team".toList },
     { id := "rack".toList, name := "rack".toList, host := "10.0.0.2".toList, port := 22,
       username := some "root".toList, authType := .password, ipmiGatewayServerId := some "gate".toList,
       proxy := some (.ssh "gate".toList) }]
  tunnels :=
    [{ id := "web".toList, name := "web".toList, localPort := 8080, remoteIP := "10.0.0.2".toList, remotePort := 80,
       defaultServerId := some "rack".toList }]
  authProfiles := [{ id := "team".toList, name := "team".toList, username := "root".toList, authType := .password }]
  macros := [{ id := some "hello".toList, name := "hello".toList, text := "uname".toList }]

theorem share_sealed_lab :
    Closed lab (sanitizeForSharing tally lab) ∧ Unoriginal lab (sanitizeForSharing tally lab) ∧
    SecretFree tally lab :=
  (share_sealed tally lab (by decide) (fresh_tally (by decide))).mpr
    { macros := by
        intro m member id held
        obtain rfl := List.mem_singleton.mp member
        cases held
      hosts := by decide }

def boundLab : SharedRecords :=
  { lab with macros := [{ id := some "hello".toList, name := "hello".toList, text := "uname".toList,
                          triggerPattern := some "[$] ".toList, triggerScope := some .profile,
                          triggerProfileId := some "rack".toList }] }

theorem share_leaks : boundLab.ids.Nodup ∧ Fresh tally boundLab ∧
    ¬ (Closed boundLab (sanitizeForSharing tally boundLab) ∧
      Unoriginal boundLab (sanitizeForSharing tally boundLab) ∧ SecretFree tally boundLab) := by
  refine ⟨by decide, fresh_tally (by decide), ?_⟩
  rintro ⟨-, unoriginal, -⟩
  exact unoriginal "rack".toList (by decide) (by decide)

end NexTerminal.Exchange
