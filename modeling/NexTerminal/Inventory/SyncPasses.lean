import NexTerminal.Inventory.SyncUpdates

namespace NexTerminal.Inventory

open Library Exchange

variable {env : SyncPlatform} {input : ComputeSyncPlanInput}

/-- A record without its proxy, its gateway and its templates' stamps. -/
def ServerConfig.core (record : ServerConfig) : ServerConfig :=
  { record with
    proxy := none
    ipmiGatewayServerId := none
    origin := record.origin.map fun origin => { origin with templated := {} }
    formerlySynced := record.formerlySynced.map fun kept => { kept with templated := {} } }

theorem core_setTemplateProxy (record : ServerConfig) (proxy stamp : Option ProxyConfig) :
    (record.setTemplateProxy proxy stamp).core = record.core := by
  cases held : record.origin <;> simp [ServerConfig.setTemplateProxy, ServerConfig.core, held]

theorem core_rejectWrittenProxy {survives : Text → Bool} {after : ServerConfig} {pre : Option ServerConfig}
    {hit : Text × ServerConfig} (rejected : rejectWrittenProxy survives after pre = some hit) :
    hit.2.core = after.core := by
  unfold rejectWrittenProxy at rejected
  split at rejected
  · cases rejected
  · split at rejected
    · cases rejected
    · rw [← Option.some.inj rejected]
      exact core_setTemplateProxy _ _ _

theorem core_rejectWrittenGateway {survives : Text → Bool} {after : ServerConfig} {pre : Option ServerConfig}
    {hit : Text × ServerConfig} (rejected : rejectWrittenGateway survives after pre = some hit) :
    hit.2.core = after.core := by
  unfold rejectWrittenGateway at rejected
  split at rejected
  · cases rejected
  · split at rejected
    · cases rejected
    · rw [← Option.some.inj rejected]
      cases held : after.origin <;> simp [ServerConfig.core, held]

theorem core_dropTemplateGateway (record : ServerConfig) : (dropTemplateGateway record).core = record.core := by
  unfold dropTemplateGateway ServerConfig.core
  rw [Option.map_map, Option.map_map]
  congr 1
  · refine congrArg (record.origin.map ·) (funext fun origin => ?_)
    simp only [Function.comp_apply]
    split <;> rfl
  · refine congrArg (record.formerlySynced.map ·) (funext fun kept => ?_)
    simp only [Function.comp_apply]
    split <;> rfl

namespace ReferencePass

structure KeepsCore (pass : ReferencePass) : Prop where
  reject : ∀ after before found, pass.reject after before = some found → found.2.core = after.core
  drop : ∀ record, (pass.drop record).core = record.core

variable {pass : ReferencePass}

theorem KeepsCore.rejectedRecord (keeps : pass.KeepsCore) (after : ServerConfig) (pre : Option ServerConfig) :
    (pass.rejectedRecord after pre).core = after.core := by
  unfold ReferencePass.rejectedRecord rejected
  split
  · cases res : pass.reject after pre with
    | none => rfl
    | some hit => exact keeps.reject after pre hit res
  · rfl

theorem KeepsCore.dropIn (keeps : pass.KeepsCore) (record : ServerConfig) :
    (pass.dropIn record).core = record.core := by
  unfold ReferencePass.dropIn
  split
  · exact keeps.drop record
  · rfl

end ReferencePass

theorem proxyPass_keepsCore : (proxyPass env input).KeepsCore :=
  ⟨fun _ _ _ => core_rejectWrittenProxy, fun record => core_setTemplateProxy record none none⟩

theorem gatewayPass_keepsCore : (gatewayPass env input).KeepsCore :=
  ⟨fun _ _ _ => core_rejectWrittenGateway, core_dropTemplateGateway⟩

theorem id_of_core {record other : ServerConfig} (same : record.core = other.core) : record.id = other.id := by
  have ids := congrArg ServerConfig.id same
  exact ids

theorem origin_isSome_of_core {record other : ServerConfig} (same : record.core = other.core) :
    record.origin.isSome = other.origin.isSome := by
  have origins := congrArg (fun server => server.origin.isSome) same
  simpa [ServerConfig.core] using origins

section

variable (env input)

/-- A record on which what this run wrote and does not survive is taken back. -/
def afterRejections (u : ServerUpdate) : ServerConfig :=
  (gatewayPass env input).rejectedRecord
    ((proxyPass env input).rejectedRecord u.after (some u.before)) (some u.before)

def collapsed (u : ServerUpdate) : Bool :=
  (proxyPass env input).collapses u ||
    (gatewayPass env input).collapses
      { u with after := (proxyPass env input).rejectedRecord u.after (some u.before) }

def settledAfter (u : ServerUpdate) : ServerConfig :=
  (gatewayPass env input).dropIn ((proxyPass env input).dropIn (afterRejections env input u))

def keptUpdates : List ServerUpdate := (loopUpdates env input).filter fun u => !collapsed env input u

def candidates : List ServerConfig := input.ownedByExternalId.values ++ input.keptByGroups

/-- What is planned before a pass looks at the servers that are not. -/
def plannedIds (updates : List ServerUpdate) : List Text :=
  (deviceFindings env input).adds.map (·.id) ++ updates.map (·.before.id) ++ (prunes input).map (·.server.id)

/-- The servers whose proxies are dropped although nothing else is planned for them. -/
def unplannedProxies : List ServerConfig :=
  (candidates input).filter fun record =>
    !(plannedIds env input (keptUpdates env input)).contains record.id &&
      ((proxyPass env input).invalid record).isSome

end

variable {u : ServerUpdate}

theorem not_collapsed (changed : ∀ record, record.core = u.after.core → updateStillChanged u.before record = true) :
    collapsed env input u = false := by
  have each : ∀ (pass : ReferencePass), pass.KeepsCore → ∀ after, after.core = u.after.core →
      pass.collapses ⟨u.before, after⟩ = false := by
    intro pass keeps after same
    unfold ReferencePass.collapses ReferencePass.rejected
    split
    · cases res : pass.reject after (some u.before) with
      | none => rfl
      | some hit => simp [changed hit.2 ((keeps.reject after _ hit res).trans same)]
    · rfl
  rw [collapsed, each _ proxyPass_keepsCore u.after rfl,
    each _ gatewayPass_keepsCore _ (proxyPass_keepsCore.rejectedRecord _ _)]
  rfl

theorem adoption_not_collapsed (unlinked : u.before.origin = none) (linked : u.after.origin.isSome = true) :
    collapsed env input u = false := by
  refine not_collapsed fun record same => ?_
  have linked' := (origin_isSome_of_core same).trans linked
  obtain ⟨origin, held⟩ := Option.isSome_iff_exists.mp linked'
  simp [updateStillChanged, recordChanged, unlinked, held, serverOriginStampsEqual]

theorem core_settledAfter (u : ServerUpdate) : (settledAfter env input u).core = u.after.core := by
  rw [settledAfter, gatewayPass_keepsCore.dropIn, proxyPass_keepsCore.dropIn, afterRejections,
    gatewayPass_keepsCore.rejectedRecord, proxyPass_keepsCore.rejectedRecord]

theorem mem_keptUpdates :
    u ∈ keptUpdates env input ↔ u ∈ loopUpdates env input ∧ collapsed env input u = false := by
  rw [keptUpdates, List.mem_filter, Bool.not_eq_true']

theorem final_adds : (finalDraft env input).adds =
    (deviceFindings env input).adds.map fun record =>
      (gatewayPass env input).rejectedRecord ((proxyPass env input).rejectedRecord record none) none := by
  show ((deviceFindings env input).adds.map _).map _ = _
  rw [List.map_map]
  rfl

theorem final_adds_ids : (finalDraft env input).adds.map (·.id) =
    (deviceFindings env input).adds.map (·.id) := by
  rw [final_adds, List.map_map]
  refine List.map_congr_left fun record _ => ?_
  exact id_of_core ((gatewayPass_keepsCore.rejectedRecord _ _).trans (proxyPass_keepsCore.rejectedRecord _ _))

section

variable (env input)

/-- The servers whose gateways are dropped although nothing else is planned for them. -/
def unplannedGateways : List ServerConfig :=
  (candidates input).filter fun record =>
    !((plannedIds env input (keptUpdates env input)).contains record.id ||
        ((unplannedProxies env input).map (·.id)).contains record.id) &&
      ((gatewayPass env input).invalid record).isSome

end

theorem keptUpdates_sublist : (keptUpdates env input).Sublist (loopUpdates env input) := List.filter_sublist

theorem rejectedDraft_updates (nodup : DistinctIds input) : (rejectedDraft env input).updates =
    (keptUpdates env input).map fun u => ⟨u.before, afterRejections env input u⟩ := by
  have ids := loopUpdates_ids env nodup
  show List.filter _ (((loopUpdates env input).map _).map _) = _
  rw [List.map_map, List.filter_map, keptUpdates]
  refine congrArg₂ List.map rfl (List.filter_congr fun u mem => ?_)
  rw [Function.comp_apply, Bool.not_inj_iff, Bool.eq_iff_iff, List.contains_eq_mem, decide_eq_true_eq,
    List.mem_append]
  have same : ∀ other ∈ loopUpdates env input, other.before.id = u.before.id → other = u :=
    fun other member' same => List.inj_on_of_nodup_map ids member' mem same
  rw [collapsed, Bool.or_eq_true]
  refine or_congr ?_ ?_
  · rw [List.mem_map]
    constructor
    · rintro ⟨other, hit, equal⟩
      obtain ⟨hit, collapses⟩ := List.mem_filter.mp hit
      rwa [same other hit equal] at collapses
    · exact fun collapses => ⟨u, List.mem_filter.mpr ⟨mem, collapses⟩, rfl⟩
  · rw [List.mem_map]
    constructor
    · rintro ⟨rejected, hit, equal⟩
      obtain ⟨hit, collapses⟩ := List.mem_filter.mp hit
      obtain ⟨other, known, rfl⟩ := List.mem_map.mp hit
      rwa [same other known equal] at collapses
    · exact fun collapses => ⟨_, List.mem_filter.mpr ⟨List.mem_map_of_mem mem, collapses⟩, rfl⟩

theorem final_updates (nodup : DistinctIds input) : (finalDraft env input).updates =
    (keptUpdates env input).map (fun u => ⟨u.before, settledAfter env input u⟩) ++
      (unplannedProxies env input).map (fun record =>
        ⟨record, (gatewayPass env input).dropIn ((proxyPass env input).drop record)⟩) ++
      (unplannedGateways env input).map fun record => ⟨record, (gatewayPass env input).drop record⟩ := by
  have kept : ((proxyPass env input).dropRetained (rejectedDraft env input)).updates =
      (keptUpdates env input).map fun u =>
        ⟨u.before, (proxyPass env input).dropIn (afterRejections env input u)⟩ := by
    show (rejectedDraft env input).updates.map _ = _
    rw [rejectedDraft_updates nodup, List.map_map]
    rfl
  have adds : ((proxyPass env input).dropRetained (rejectedDraft env input)).adds.map (·.id) =
      (deviceFindings env input).adds.map (·.id) := final_adds_ids
  have planned : ((proxyPass env input).dropRetained (rejectedDraft env input)).adds.map (·.id) ++
      ((proxyPass env input).dropRetained (rejectedDraft env input)).updates.map (·.before.id) ++
        (prunes input).map (·.server.id) = plannedIds env input (keptUpdates env input) := by
    rw [adds, kept, List.map_map]
    rfl
  have proxies : ((proxyPass env input).dropUnplanned ((prunes input).map (·.server.id)) (candidates input)
      ((proxyPass env input).dropRetained (rejectedDraft env input))).updates =
        (keptUpdates env input).map (fun u =>
          ⟨u.before, (proxyPass env input).dropIn (afterRejections env input u)⟩) ++
          (unplannedProxies env input).map fun record => ⟨record, (proxyPass env input).drop record⟩ := by
    refine congrArg₂ (· ++ ·) kept (congrArg (List.map _) (List.filter_congr fun record _ => ?_))
    exact congrArg (fun ids : List Text => !ids.contains record.id && _) planned
  refine congrArg₂ (· ++ ·) ?_ (congrArg (List.map _) (List.filter_congr fun record _ => ?_))
  · refine (congrArg (List.map _) proxies).trans ?_
    rw [List.map_append, List.map_map, List.map_map]
    rfl
  · refine congrArg (fun hit : Bool => !hit && _) ?_
    rw [Bool.eq_iff_iff, Bool.or_eq_true, List.contains_iff_mem, List.contains_iff_mem, List.contains_iff_mem,
      ← planned]
    have updates : (((gatewayPass env input).dropRetained ((proxyPass env input).dropUnplanned
        ((prunes input).map (·.server.id)) (candidates input)
          ((proxyPass env input).dropRetained (rejectedDraft env input)))).updates.map (·.before.id)) =
        ((proxyPass env input).dropRetained (rejectedDraft env input)).updates.map (·.before.id) ++
          (unplannedProxies env input).map (·.id) := by
      refine (List.map_map ..).trans ((congrArg (List.map _) proxies).trans ?_)
      rw [List.map_append, List.map_map, List.map_map, kept, List.map_map]
      rfl
    refine (Iff.of_eq (congrArg (fun ids : List Text => record.id ∈ _ ++ ids ++ _) updates)).trans ?_
    simp only [List.mem_append]
    tauto

inductive PlannedUpdate (env : SyncPlatform) (input : ComputeSyncPlanInput) : ServerUpdate → Prop
  | kept (u : ServerUpdate) (member : u ∈ keptUpdates env input) :
      PlannedUpdate env input ⟨u.before, settledAfter env input u⟩
  | proxy (record : ServerConfig) (member : record ∈ unplannedProxies env input) :
      PlannedUpdate env input
        ⟨record, (gatewayPass env input).dropIn ((proxyPass env input).drop record)⟩
  | gateway (record : ServerConfig) (member : record ∈ unplannedGateways env input) :
      PlannedUpdate env input ⟨record, (gatewayPass env input).drop record⟩

theorem mem_updates (nodup : DistinctIds input) :
    u ∈ (computeSyncPlan env input).updates ↔ PlannedUpdate env input u := by
  show u ∈ (finalDraft env input).updates ↔ _
  rw [final_updates nodup, List.mem_append, List.mem_append]
  constructor
  · rintro ((member | member) | member) <;> obtain ⟨hit, known, rfl⟩ := List.mem_map.mp member
    · exact .kept hit known
    · exact .proxy hit known
    · exact .gateway hit known
  · rintro (⟨u, member⟩ | ⟨record, member⟩ | ⟨record, member⟩)
    · exact .inl (.inl (List.mem_map_of_mem member))
    · exact .inl (.inr (List.mem_map_of_mem member))
    · exact .inr (List.mem_map_of_mem member)

variable {server : ServerConfig}

theorem kept_spec (kept : server ∈ input.keptByGroups) :
    server ∈ input.currentServers ∧ server.origin = none ∧ server.formerlySynced.isSome = true := by
  obtain ⟨externalId, _, kept⟩ := List.mem_flatMap.mp kept
  obtain ⟨known, kept⟩ := List.mem_filter.mp (List.mem_filter.mp kept).1
  rw [Bool.and_eq_true] at kept
  have unlinked := kept.1
  unfold ComputeSyncPlanInput.isKept at unlinked
  rw [Bool.and_eq_true] at unlinked
  refine ⟨known, Option.isNone_iff_eq_none.mp unlinked.1, ?_⟩
  cases held : server.formerlySynced with
  | none =>
    rw [held] at unlinked
    cases unlinked.2
  | some kept => rfl

theorem candidate_mem (cand : server ∈ candidates input) : server ∈ input.currentServers := by
  rcases List.mem_append.mp cand with owned | kept
  · obtain ⟨externalId, hit⟩ := mem_owned_values.mp owned
    exact (owned_spec hit).1
  · exact (kept_spec kept).1

theorem nodup_eraseDups {α : Type*} [BEq α] [LawfulBEq α] (items : List α) : items.eraseDups.Nodup := by
  induction h : items.length using Nat.strong_induction_on generalizing items with
  | _ n ih =>
    subst h
    cases items with
    | nil => exact List.nodup_nil
    | cons first rest =>
      rw [List.eraseDups_cons, List.nodup_cons]
      constructor
      · simp
      · exact ih _ (Nat.lt_succ_of_le (List.length_filter_le ..)) _ rfl

theorem owned_values_nodup : input.ownedByExternalId.values.Nodup := by
  refine List.Nodup.of_map updateKey ?_
  have keys : input.ownedByExternalId.values.map updateKey = input.ownedByExternalId.keys.map some := by
    rw [SeqMap.values, SeqMap.keys, List.map_map, List.map_map]
    exact List.map_congr_left fun entry mem => owned_key (SeqMap.mem_entries.mp mem)
  rw [keys]
  exact input.ownedByExternalId.distinct.map (Option.some_injective Text)

theorem keptByGroups_nodup (nodup : DistinctIds input) : input.keptByGroups.Nodup := by
  rw [ComputeSyncPlanInput.keptByGroups, List.nodup_flatMap]
  have servers : input.currentServers.Nodup := nodup.of_map
  constructor
  · exact fun _ _ => (servers.filter _).filter _
  · refine (nodup_eraseDups _).imp fun ne server one another => ne ?_
    have first := (List.mem_filter.mp one).2
    have other := (List.mem_filter.mp another).2
    rw [beq_iff_eq] at first other
    exact Option.mem_unique first other

theorem mem_plannedIds {id : Text} : id ∈ plannedIds env input (keptUpdates env input) ↔
    (id ∈ (deviceFindings env input).adds.map (·.id) ∨
      id ∈ (keptUpdates env input).map fun u => u.before.id) ∨ id ∈ (prunes input).map (·.server.id) := by
  rw [plannedIds, List.mem_append, List.mem_append]

theorem mem_unplannedProxies {record : ServerConfig} : record ∈ unplannedProxies env input ↔
    record ∈ candidates input ∧ record.id ∉ plannedIds env input (keptUpdates env input) ∧
      ((proxyPass env input).invalid record).isSome = true := by
  rw [unplannedProxies, List.mem_filter, Bool.and_eq_true, Bool.not_eq_true', List.contains_eq_mem,
    decide_eq_false_iff_not]

theorem mem_unplannedGateways {record : ServerConfig} : record ∈ unplannedGateways env input ↔
    record ∈ candidates input ∧ (record.id ∉ plannedIds env input (keptUpdates env input) ∧
      record.id ∉ (unplannedProxies env input).map (·.id)) ∧
      ((gatewayPass env input).invalid record).isSome = true := by
  rw [unplannedGateways, List.mem_filter, Bool.and_eq_true, Bool.not_eq_true', Bool.or_eq_false_iff,
    List.contains_eq_mem, decide_eq_false_iff_not, List.contains_eq_mem, decide_eq_false_iff_not]

theorem not_kept_of_unplanned {id : Text} (unplanned : id ∉ plannedIds env input (keptUpdates env input)) :
    id ∉ (keptUpdates env input).map fun u => u.before.id :=
  fun kept => unplanned (mem_plannedIds.mpr (.inl (.inr kept)))

theorem candidates_ids (nodup : DistinctIds input) : ((candidates input).map (·.id)).Nodup := by
  refine List.Nodup.map_on (fun one mem other member' same =>
    nodup.eq (candidate_mem mem) (candidate_mem member') same) ?_
  rw [candidates, List.nodup_append]
  refine ⟨owned_values_nodup, keptByGroups_nodup nodup, fun owned mem kept member' same => ?_⟩
  obtain ⟨externalId, hit⟩ := mem_owned_values.mp mem
  obtain ⟨origin, held, _⟩ := owned_origin hit
  rw [same, (kept_spec member').2.1] at held
  cases held

theorem linked_of_owned {externalId : Text} (hit : input.ownedByExternalId.get? externalId = some owned) :
    owned.origin.isSome = true := by
  obtain ⟨origin, held, _⟩ := owned_origin hit
  rw [held]
  rfl

theorem prunes_spec {prune : InventoryPrune} (pruned : prune ∈ prunes input) :
    ∃ externalId, input.ownedByExternalId.get? externalId = some prune.server ∧
      externalId ∉ input.presentExternalIds := by
  unfold prunes at pruned
  split at pruned
  · cases pruned
  · obtain ⟨server, absent, rfl⟩ := List.mem_map.mp pruned
    obtain ⟨entry, held, rfl⟩ := List.mem_map.mp absent
    obtain ⟨mem, missing⟩ := List.mem_filter.mp held
    refine ⟨entry.1, ?_, by simpa using missing⟩
    have hit := SeqMap.mem_entries.mp mem
    split <;> exact hit

theorem updates_ids (nodup : DistinctIds input) :
    ((computeSyncPlan env input).updates.map (·.before.id)).Nodup := by
  show ((finalDraft env input).updates.map _).Nodup
  rw [final_updates nodup, List.map_append, List.map_append, List.map_map, List.map_map, List.map_map]
  have loop : ((keptUpdates env input).map fun u => u.before.id).Nodup :=
    (loopUpdates_ids env nodup).sublist (keptUpdates_sublist.map _)
  have proxies : ((unplannedProxies env input).map (·.id)).Nodup :=
    (candidates_ids nodup).sublist (List.filter_sublist.map _)
  have gateways : ((unplannedGateways env input).map (·.id)).Nodup :=
    (candidates_ids nodup).sublist (List.filter_sublist.map _)
  refine List.nodup_append.mpr ⟨List.nodup_append.mpr ⟨loop, proxies, ?_⟩, gateways, ?_⟩
  · rintro id mem other member' rfl
    obtain ⟨record, hit, rfl⟩ := List.mem_map.mp member'
    exact not_kept_of_unplanned (mem_unplannedProxies.mp hit).2.1 mem
  · rintro id mem other member' rfl
    obtain ⟨record, hit, rfl⟩ := List.mem_map.mp member'
    rcases List.mem_append.mp mem with loop | pass
    · exact not_kept_of_unplanned (mem_unplannedGateways.mp hit).2.1.1 loop
    · exact (mem_unplannedGateways.mp hit).2.1.2 pass

def InventorySyncPlan.record (plan : InventorySyncPlan) (server : ServerConfig) : ServerConfig :=
  ((plan.updates.find? fun u => u.before.id == server.id).map ServerUpdate.after).getD server

/-- A planned update is what the record becomes. -/
theorem record_of_mem (nodup : DistinctIds input) (mem : u ∈ (computeSyncPlan env input).updates) :
    (computeSyncPlan env input).record u.before = u.after := by
  unfold InventorySyncPlan.record
  cases hit : (computeSyncPlan env input).updates.find? fun other => other.before.id == u.before.id with
  | none => exact absurd (List.find?_eq_none.mp hit u mem) (by simp)
  | some other =>
    have same : other.before.id = u.before.id := by simpa using List.find?_some hit
    rw [List.inj_on_of_nodup_map (updates_ids nodup) (List.mem_of_find?_eq_some hit) mem same]
    rfl

theorem record_of_absent {plan : InventorySyncPlan} (absent : ∀ u ∈ plan.updates, u.before.id ≠ server.id) :
    plan.record server = server := by
  unfold InventorySyncPlan.record
  rw [List.find?_eq_none.mpr fun u mem => by simpa using absent u mem]
  rfl

end NexTerminal.Inventory
