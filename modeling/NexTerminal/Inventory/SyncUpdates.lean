import NexTerminal.Inventory.SyncOutcomes

namespace NexTerminal.Inventory

open Library Exchange

variable {env : SyncPlatform} {input : ComputeSyncPlanInput} {device : TreeDevice} {owned : ServerConfig}

def updateKey (server : ServerConfig) : Option Text :=
  server.externalId <|> ComputeSyncPlanInput.keptExternalId server

theorem owned_key {externalId : Text} (hit : input.ownedByExternalId.get? externalId = some owned) :
    updateKey owned = some externalId := by
  rw [updateKey, (owned_spec hit).2.2]
  rfl

variable {adoptee : ServerConfig} {primary : PrimaryEndpoint}

theorem eligible_spec
    (eligible : adoptee ∈ eligibleForAdoption env input device primary) :
    adoptee ∈ input.currentServers ∧ adoptee.origin = none ∧
      ComputeSyncPlanInput.keptExternalId adoptee = some device.externalId := by
  obtain ⟨kept, _⟩ := List.mem_filter.mp eligible
  obtain ⟨kept, key⟩ := List.mem_filter.mp kept
  obtain ⟨known, kept⟩ := List.mem_filter.mp kept
  rw [Bool.and_eq_true] at kept
  refine ⟨known, ?_, by simpa using key⟩
  have unlinked := kept.1
  unfold ComputeSyncPlanInput.isKept at unlinked
  rw [Bool.and_eq_true] at unlinked
  exact Option.isNone_iff_eq_none.mp unlinked.1

theorem eligible_key
    (eligible : adoptee ∈ eligibleForAdoption env input device primary) :
    updateKey adoptee = some device.externalId := by
  obtain ⟨_, unlinked, key⟩ := eligible_spec eligible
  rw [updateKey, ServerConfig.externalId, unlinked]
  exact key

/-- The kept server that the device's sync takes over, if the user chose so and the new id is free. -/
def adopteeOf (env : SyncPlatform) (input : ComputeSyncPlanInput) (device : TreeDevice) : Option ServerConfig :=
  (selectPrimaryEndpoint device).bind fun primary =>
    let eligible := eligibleForAdoption env input device primary
    (if eligible.length = 1 then eligible.head? else none).filter fun adoptee =>
      isValidPort primary.port && !input.ownedByExternalId.has device.externalId &&
        input.adoptionChoice == some .adopt &&
        (input.serversById (env.deterministicServerId input.source.id device.externalId)).all fun server =>
          adoptee.id == server.id

theorem notAdopted_updates (primary : PrimaryEndpoint) (addresses : DeviceAddresses) (group : Option Text)
    (templates : DeviceTemplates) :
    (notAdopted env input device primary ++
      planSeparately env input device primary addresses group templates).updates = [] := by
  rw [Findings.append_updates, (notAdopted_quiet primary).2.1]
  unfold planSeparately planAdd
  dsimp only
  split
  · rfl
  · split <;> rfl

theorem planUnowned_befores (addresses : DeviceAddresses) (group : Option Text)
    (templates : DeviceTemplates) (valid : isValidPort primary.port = true)
    (nobody : input.ownedByExternalId.get? device.externalId = none)
    (console : selectPrimaryEndpoint device = some primary) :
    (planUnowned env input device primary addresses group templates).updates.map (·.before) =
      (adopteeOf env input device).toList := by
  have quiet := @notAdopted_updates env input device primary addresses group templates
  obtain ⟨first, second⟩ := List.append_eq_nil_iff.mp quiet
  unfold planUnowned adopteeOf
  rw [console, Option.bind_some]
  dsimp only
  rw [valid, SeqMap.has, nobody]
  generalize (if (eligibleForAdoption env input device primary).length = 1 then
    (eligibleForAdoption env input device primary).head? else none) = sole
  generalize input.serversById (env.deterministicServerId input.source.id device.externalId) = colliding
  have adoption : ∀ adoptee, (planAdoption input device primary addresses group templates adoptee).updates.map
      (·.before) = [adoptee] := fun _ => rfl
  by_cases chosen : input.adoptionChoice = some .adopt
  all_goals
    cases sole with
    | none => cases colliding <;> simp [Option.filter, Findings.warn, first, second]
    | some adoptee =>
      cases colliding with
      | none => simp [Option.filter, chosen, adoption, first, second]
      | some server =>
        by_cases same : adoptee.id = server.id <;>
          simp [Option.filter, chosen, same, adoption, Findings.warn, first, second]

theorem planDevice_befores (nobody : input.ownedByExternalId.get? device.externalId = none) :
    (planDevice env input device).updates.map (·.before) = (adopteeOf env input device).toList := by
  unfold planDevice
  cases console : selectPrimaryEndpoint device with
  | none =>
    have adopts : adopteeOf env input device = none := by
      rw [adopteeOf, console]
      rfl
    rw [adopts]
    unfold planAddressless planAddresslessNew
    rw [nobody]
    dsimp only
    split
    · rfl
    · split <;> rfl
  | some primary =>
    dsimp only
    split
    · next invalid =>
      have adopts : adopteeOf env input device = none := by
        rw [Bool.not_eq_true'] at invalid
        rw [adopteeOf, console, Option.bind_some]
        simp [invalid]
      rw [adopts]
      split <;> rfl
    · next valid =>
      rw [Bool.not_eq_true, Bool.not_eq_false'] at valid
      rw [← @planUnowned_befores env input device primary (deviceAddresses env device)
        (deviceGroup input device) (input.deviceTemplates env device.toInventoryDevice) valid nobody console]
      unfold planAddressed
      rw [nobody]
      rfl

theorem adopteeOf_spec (adopts : adopteeOf env input device = some adoptee) :
    ∃ primary, selectPrimaryEndpoint device = some primary ∧
      adoptee ∈ eligibleForAdoption env input device primary ∧
      input.ownedByExternalId.get? device.externalId = none := by
  obtain ⟨primary, console, adopts⟩ := Option.bind_eq_some_iff.mp adopts
  obtain ⟨sole, allowed⟩ := Option.filter_eq_some_iff.mp adopts
  refine ⟨primary, console, ?_, ?_⟩
  · split at sole
    · exact List.mem_of_head? sole
    · cases sole
  · simp only [Bool.and_eq_true, Bool.not_eq_true', SeqMap.has, Option.isSome_eq_false_iff,
      Option.isNone_iff_eq_none] at allowed
    exact allowed.1.1.2

/-- How an update of the loop, or of the rollback pass behind it, comes about. -/
inductive LoopUpdate (env : SyncPlatform) (input : ComputeSyncPlanInput) : ServerUpdate → Prop
  | owned (device : TreeDevice) (owned : ServerConfig) (decided : device ∈ decidedDevices input)
      (found : input.ownedByExternalId.get? device.externalId = some owned) (usable : isUsable device = true)
      (changed : ownedChanged env input device owned = true) :
      LoopUpdate env input ⟨owned, ownedAfter env input device owned⟩
  | adopted (device : TreeDevice) (primary : PrimaryEndpoint) (adoptee : ServerConfig)
      (decided : device ∈ decidedDevices input) (adopts : adopteeOf env input device = some adoptee)
      (eligible : adoptee ∈ eligibleForAdoption env input device primary) :
      LoopUpdate env input ⟨adoptee, adoptionAfter input device primary (deviceAddresses env device)
        (deviceGroup input device) (input.deviceTemplates env device.toInventoryDevice) adoptee⟩
  | unlinked (externalId : Text) (owned : ServerConfig)
      (found : input.ownedByExternalId.get? externalId = some owned)
      (undecided : externalId ∉ (deviceFindings env input).decidedOwned)
      (present : externalId ∈ input.presentExternalIds)
      (rollback : decideSourceAuthRollback owned input.unusableProfile = .unlink) :
      LoopUpdate env input ⟨owned, withSourceLinkCleared owned⟩

theorem deviceFindings_updates : (deviceFindings env input).updates =
    (decidedDevices input).flatMap fun device => (planDevice env input device).updates :=
  planDevices_flatMap (·.updates) (fun _ _ => rfl) (fun _ _ _ => rfl) [] _

theorem deviceFindings_decidedOwned : (deviceFindings env input).decidedOwned =
    (decidedDevices input).flatMap fun device => (planDevice env input device).decidedOwned :=
  planDevices_flatMap (·.decidedOwned) (fun _ _ => rfl) (fun _ _ _ => rfl) [] _

theorem mem_unmappedOwned : owned ∈ unmappedOwned env input ↔
    ∃ externalId, input.ownedByExternalId.get? externalId = some owned ∧
      externalId ∉ (deviceFindings env input).decidedOwned ∧ externalId ∈ input.presentExternalIds := by
  simp [unmappedOwned, SeqMap.mem_entries, Bool.and_eq_true, List.contains_eq_mem]

theorem LoopUpdate.of_mem {u : ServerUpdate} (mem : u ∈ loopUpdates env input) :
    LoopUpdate env input u := by
  rcases List.mem_append.mp mem with loop | pass
  · rw [deviceFindings_updates] at loop
    obtain ⟨device, decided, loop⟩ := List.mem_flatMap.mp loop
    cases hit : input.ownedByExternalId.get? device.externalId with
    | some owned =>
      rw [(planDevice_owned hit).updates] at loop
      split at loop
      · next decision =>
        rw [Bool.and_eq_true] at decision
        obtain rfl := List.mem_singleton.mp loop
        exact .owned device owned decided hit decision.1 decision.2
      · exact absurd loop List.not_mem_nil
    | none =>
      cases @planDevice_unowned env input device hit with
      | nothing _ updates | added _ _ _ _ _ _ updates =>
        rw [updates] at loop
        exact absurd loop List.not_mem_nil
      | adopted primary adoptee _ eligible _ updates =>
        have adopts : adopteeOf env input device = some adoptee := by
          have befores := @planDevice_befores env input device hit
          rw [updates] at befores
          exact Option.mem_toList.mp (befores ▸ List.mem_singleton_self _)
        rw [updates] at loop
        obtain rfl := List.mem_singleton.mp loop
        exact .adopted device primary adoptee decided adopts eligible
  · obtain ⟨owned, unlinked, rfl⟩ := List.mem_map.mp pass
    obtain ⟨unmapped, rollback⟩ := List.mem_filter.mp unlinked
    obtain ⟨externalId, hit, undecided, present⟩ := mem_unmappedOwned.mp unmapped
    exact .unlinked externalId owned hit undecided present (by simpa using rollback)

theorem mem_loopUpdates (decided : device ∈ decidedDevices input)
    (hit : input.ownedByExternalId.get? device.externalId = some owned) (usable : isUsable device = true)
    (changed : ownedChanged env input device owned = true) :
    ⟨owned, ownedAfter env input device owned⟩ ∈ loopUpdates env input := by
  refine List.mem_append_left _ ?_
  rw [deviceFindings_updates]
  refine List.mem_flatMap.mpr ⟨device, decided, ?_⟩
  rw [(planDevice_owned hit).updates, usable, changed]
  exact List.mem_singleton_self _

theorem LoopUpdate.before_mem {u : ServerUpdate} (update : LoopUpdate env input u) :
    u.before ∈ input.currentServers := by
  cases update with
  | owned device owned decided hit => exact (owned_spec hit).1
  | adopted device primary adoptee decided adopts eligible => exact (eligible_spec eligible).1
  | unlinked externalId owned hit => exact (owned_spec hit).1

theorem planDevice_keys (env : SyncPlatform) (input : ComputeSyncPlanInput) (device : TreeDevice) :
    ((planDevice env input device).updates.map fun u => updateKey u.before).Sublist [some device.externalId] := by
  cases hit : input.ownedByExternalId.get? device.externalId with
  | some owned =>
    rw [(planDevice_owned hit).updates]
    split
    · rw [List.map_singleton, owned_key hit]
    · exact List.nil_sublist _
  | none =>
    cases @planDevice_unowned env input device hit with
    | nothing _ updates | added _ _ _ _ _ _ updates => rw [updates]; exact List.nil_sublist _
    | adopted primary adoptee _ eligible _ updates => rw [updates, List.map_singleton, eligible_key eligible]

theorem flatMap_sublist {α β : Type*} {items : List α} {pick : α → List β} {key : α → β}
    (each : ∀ item ∈ items, (pick item).Sublist [key item]) : (items.flatMap pick).Sublist (items.map key) := by
  induction items with
  | nil => exact .slnil
  | cons item rest ih =>
    exact (each item List.mem_cons_self).append (ih fun other later => each other (List.mem_cons_of_mem _ later))

theorem deviceUpdates_keys (env : SyncPlatform) (input : ComputeSyncPlanInput) :
    ((deviceFindings env input).updates.map fun u => updateKey u.before).Sublist
      ((decidedDevices input).map fun device => some device.externalId) := by
  rw [deviceFindings_updates, List.map_flatMap]
  exact flatMap_sublist fun device _ => planDevice_keys env input device

theorem mem_decidedOwned {externalId : Text} : externalId ∈ (deviceFindings env input).decidedOwned ↔
    ∃ device ∈ decidedDevices input, isUsable device = true ∧ device.externalId = externalId ∧
      (input.ownedByExternalId.get? externalId).isSome = true := by
  rw [deviceFindings_decidedOwned, List.mem_flatMap]
  refine exists_congr fun device => and_congr_right fun decided => ?_
  cases hit : input.ownedByExternalId.get? device.externalId with
  | some owned =>
    rw [(planDevice_owned hit).decidedOwned]
    by_cases usable : isUsable device = true
    · simp only [usable, if_true, List.mem_singleton, true_and]
      constructor
      · rintro rfl
        exact ⟨rfl, by rw [hit]; rfl⟩
      · exact fun same => same.1.symm
    · simp [Bool.eq_false_iff.2 usable]
  | none =>
    rw [(planDevice_aside hit).decidedOwned]
    refine ⟨fun mem => absurd mem List.not_mem_nil, ?_⟩
    rintro ⟨_, same, owner⟩
    rw [← same, hit] at owner
    cases owner

theorem loopUpdates_keys (env : SyncPlatform) (input : ComputeSyncPlanInput) :
    ((loopUpdates env input).map fun u => updateKey u.before).Nodup := by
  have devices : ((decidedDevices input).map fun device => some device.externalId).Nodup := by
    have ids := ((namedDevices_spec [] input.tree.devices).2).map (Option.some_injective Text)
    rwa [List.map_map] at ids
  have keys : ∀ owned ∈ unmappedUnlinked env input, ∃ externalId,
      input.ownedByExternalId.get? externalId = some owned ∧
        externalId ∉ (deviceFindings env input).decidedOwned := by
    intro owned mem
    obtain ⟨externalId, hit, undecided, _⟩ := mem_unmappedOwned.mp (List.mem_filter.mp mem).1
    exact ⟨externalId, hit, undecided⟩
  have pass : ((unmappedUnlinked env input).map updateKey).Nodup := by
    have entries : (input.ownedByExternalId.entries.map fun entry => updateKey entry.2).Nodup := by
      have same : input.ownedByExternalId.entries.map (fun entry => updateKey entry.2) =
          input.ownedByExternalId.entries.map fun entry => some entry.1 :=
        List.map_congr_left fun entry mem => owned_key (SeqMap.mem_entries.mp mem)
      rw [same]
      have nodup := input.ownedByExternalId.distinct.map (Option.some_injective Text)
      rwa [List.map_map] at nodup
    refine entries.sublist ?_
    have fewer : (unmappedUnlinked env input).Sublist (input.ownedByExternalId.entries.map Prod.snd) :=
      List.filter_sublist.trans (List.filter_sublist.map _)
    simpa only [List.map_map, Function.comp_def] using fewer.map updateKey
  rw [loopUpdates, List.map_append, List.map_map, List.nodup_append]
  refine ⟨devices.sublist (deviceUpdates_keys env input), pass, ?_⟩
  intro key loop other behind same
  subst same
  obtain ⟨u, mem, rfl⟩ := List.mem_map.mp loop
  obtain ⟨owned, unlinked, key⟩ := List.mem_map.mp behind
  obtain ⟨externalId, hit, undecided⟩ := keys owned unlinked
  rw [Function.comp_apply, owned_key hit] at key
  rw [deviceFindings_updates] at mem
  obtain ⟨device, decided, mem⟩ := List.mem_flatMap.mp mem
  have named := List.mem_singleton.mp ((planDevice_keys env input device).subset (List.mem_map_of_mem mem))
  rw [← key, Option.some.injEq] at named
  subst named
  have owns := @planDevice_owned env _ _ _ hit
  rw [owns.updates] at mem
  split at mem
  · next decision =>
    rw [Bool.and_eq_true] at decision
    exact undecided (mem_decidedOwned.mpr ⟨device, decided, decision.1, rfl, by rw [hit]; rfl⟩)
  · exact absurd mem List.not_mem_nil

def DistinctIds (input : ComputeSyncPlanInput) : Prop := (input.currentServers.map (·.id)).Nodup

theorem DistinctIds.eq (nodup : DistinctIds input) {one other : ServerConfig} (mem : one ∈ input.currentServers)
    (member' : other ∈ input.currentServers) (same : one.id = other.id) : one = other :=
  List.inj_on_of_nodup_map nodup mem member' same

/-- No server is updated twice. -/
theorem loopUpdates_ids (env : SyncPlatform) (nodup : DistinctIds input) :
    ((loopUpdates env input).map fun u => u.before.id).Nodup := by
  have keys := loopUpdates_keys env input
  rw [List.nodup_iff_pairwise_ne, List.pairwise_map] at keys ⊢
  refine keys.imp_of_mem fun first second ne same => ne ?_
  rw [nodup.eq (LoopUpdate.of_mem first).before_mem (LoopUpdate.of_mem second).before_mem same]

end NexTerminal.Inventory
