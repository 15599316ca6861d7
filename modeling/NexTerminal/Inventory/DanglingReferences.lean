import NexTerminal.Inventory.WrittenReferences

namespace NexTerminal.Inventory

open Library Exchange

variable {env : SyncPlatform} {input : ComputeSyncPlanInput} {device : TreeDevice} {owned : ServerConfig}

def InventorySyncPlan.deletes (plan : InventorySyncPlan) (id : Text) : Bool :=
  plan.prunes.any fun prune => match prune with
    | .delete server => server.id == id
    | _ => false

def InventorySyncPlan.leaves (plan : InventorySyncPlan) (servers : List ServerConfig) (id : Text) : Bool :=
  (servers.any (·.id == id) && !plan.deletes id) || plan.adds.any (·.id == id)

theorem leaves_computeSyncPlan :
    (computeSyncPlan env input).leaves input.currentServers = survives env input := by
  funext id
  have deletes : (computeSyncPlan env input).deletes id = ((prunes input).filterMap fun prune =>
      match prune with | .delete server => some server.id | _ => none).contains id := by
    rw [Bool.eq_iff_iff, InventorySyncPlan.deletes, List.any_eq_true, List.contains_iff_mem, List.mem_filterMap]
    refine exists_congr fun prune => and_congr_right fun _ => ?_
    cases prune <;> simp
  have adds : (computeSyncPlan env input).adds.any (·.id == id) =
      (deviceFindings env input).adds.any (·.id == id) := by
    have ids := congrArg (·.any (· == id)) (@final_adds_ids env input)
    rwa [List.any_map, List.any_map] at ids
  exact congrArg₂ (fun deleted added => (input.currentServers.any (·.id == id) && !deleted) || added) deletes adds

/-- A template's ssh proxy to the record itself, or to a server that is not there. -/
def danglesProxy (there : Text → Bool) (record : ServerConfig) : Bool :=
  match record.proxy with
  | some (.ssh jumpHostId) =>
    record.stamps.proxy == some (.ssh jumpHostId) && (jumpHostId == record.id || !there jumpHostId)
  | _ => false

def danglesGateway (there : Text → Bool) (record : ServerConfig) : Bool :=
  record.ipmiGatewayServerId.any fun gateway => record.stamps.ipmiGatewayServerId == some gateway && !there gateway

def ServerConfig.proxyReference (record : ServerConfig) : Option ProxyConfig × Option ProxyConfig :=
  (record.proxy, record.stamps.proxy)

def ServerConfig.gatewayReference (record : ServerConfig) : Option Text × Option Text :=
  (record.ipmiGatewayServerId, record.stamps.ipmiGatewayServerId)

def restoredProxy (there : Text → Bool) (before : ServerConfig) : Option ProxyConfig × Option ProxyConfig :=
  if danglesProxy there before then (none, none) else before.proxyReference

def restoredGateway (there : Text → Bool) (before : ServerConfig) : Option Text × Option Text :=
  if danglesGateway there before then (none, none) else before.gatewayReference

variable {record : ServerConfig}

theorem stampedProxy_of_linked (linked : record.origin.isSome = true) :
    record.stampedProxy = record.stamps.proxy := by
  obtain ⟨origin, held⟩ := Option.isSome_iff_exists.mp linked
  simp [ServerConfig.stampedProxy, ServerConfig.stamps, held]

variable {there : Text → Bool}

theorem invalidProxy_of_linked (linked : record.origin.isSome = true) :
    (invalidTemplateProxy there record).isSome = danglesProxy there record := by
  unfold invalidTemplateProxy templateJumpHost danglesProxy
  rw [stampedProxy_of_linked linked]
  cases held : record.proxy with
  | none => rfl
  | some proxy =>
    cases proxy with
    | ssh jumpHostId =>
      by_cases stamped : record.stamps.proxy = some (.ssh jumpHostId) <;>
        by_cases gone : (jumpHostId == record.id || !there jumpHostId) = true <;>
        simp [stamped, gone]
    | socks5 | http => rfl

theorem invalidProxy_of_unlinked (unlinked : record.origin = none) : invalidTemplateProxy there record = none := by
  unfold invalidTemplateProxy templateJumpHost ServerConfig.stampedProxy
  rw [unlinked]
  split <;> rfl

theorem stampedGateway_of_stamp {gateway : Text} (stamped : record.stamps.ipmiGatewayServerId = some gateway) :
    record.stampedGateway = some gateway := by
  unfold ServerConfig.stamps at stamped
  unfold ServerConfig.stampedGateway
  cases held : record.origin with
  | some origin =>
    rw [held] at stamped
    rw [Option.bind_some, stamped]
    rfl
  | none =>
    rw [held] at stamped
    cases kept : record.formerlySynced with
    | none =>
      rw [kept] at stamped
      cases stamped
    | some kept' =>
      rw [kept] at stamped
      exact stamped

theorem invalidGateway_of_dangles (dangles : danglesGateway there record = true) :
    (invalidTemplateGateway there record).isSome = true := by
  unfold danglesGateway at dangles
  unfold invalidTemplateGateway
  cases held : record.ipmiGatewayServerId with
  | none =>
    rw [held] at dangles
    cases dangles
  | some gateway =>
    rw [held, Option.any_some, Bool.and_eq_true, beq_iff_eq] at dangles
    simp [stampedGateway_of_stamp dangles.1, dangles.2]

theorem invalidGateway_of_overwrites
    (overwrites : Overwrites record.ipmiGatewayServerId record.stamps.ipmiGatewayServerId) :
    (invalidTemplateGateway there record).isSome = danglesGateway there record := by
  unfold invalidTemplateGateway danglesGateway
  rcases overwrites with ⟨value, -⟩ | ⟨gateway, value, stamp⟩
  · rw [value]
    rfl
  · rw [value, stamp]
    by_cases gone : there gateway = true <;> simp [stampedGateway_of_stamp stamp, gone]

theorem gatewayReference_setTemplateProxy (record : ServerConfig) (proxy stamp : Option ProxyConfig) :
    (record.setTemplateProxy proxy stamp).gatewayReference = record.gatewayReference := by
  cases held : record.origin <;>
    simp [ServerConfig.setTemplateProxy, ServerConfig.gatewayReference, ServerConfig.stamps, held]

theorem proxyReference_setTemplateProxy (linked : record.origin.isSome = true) (proxy stamp : Option ProxyConfig) :
    (record.setTemplateProxy proxy stamp).proxyReference = (proxy, stamp) := by
  obtain ⟨origin, held⟩ := Option.isSome_iff_exists.mp linked
  simp [ServerConfig.setTemplateProxy, ServerConfig.proxyReference, ServerConfig.stamps, held]

theorem proxyReference_dropTemplateGateway (record : ServerConfig) :
    (dropTemplateGateway record).proxyReference = record.proxyReference := by
  unfold dropTemplateGateway ServerConfig.proxyReference ServerConfig.stamps
  dsimp only
  cases held : record.origin with
  | some origin =>
    rw [Option.map_some]
    dsimp only
    split <;> rfl
  | none =>
    rw [Option.map_none]
    cases kept : record.formerlySynced with
    | none => rfl
    | some kept =>
      rw [Option.map_some]
      dsimp only
      split <;> rfl

theorem gatewayReference_dropTemplateGateway {gateway : Text}
    (owned : record.gatewayReference = (some gateway, some gateway)) :
    (dropTemplateGateway record).gatewayReference = (none, none) := by
  unfold ServerConfig.gatewayReference ServerConfig.stamps at owned
  unfold dropTemplateGateway ServerConfig.gatewayReference ServerConfig.stamps
  rw [Prod.mk.injEq] at owned
  obtain ⟨value, stamp⟩ := owned
  cases held : record.origin with
  | some origin =>
    rw [held] at stamp
    simp [value, stamp]
  | none =>
    rw [held] at stamp
    cases kept : record.formerlySynced with
    | none =>
      rw [kept] at stamp
      cases stamp
    | some kept =>
      rw [kept, Option.map_some, Option.getD_some] at stamp
      simp [value, stamp]

theorem danglesProxy_congr {other : ServerConfig} (id : record.id = other.id)
    (same : record.proxyReference = other.proxyReference) : danglesProxy there record = danglesProxy there other := by
  rw [ServerConfig.proxyReference, ServerConfig.proxyReference, Prod.mk.injEq] at same
  unfold danglesProxy
  rw [same.1, same.2, id]

theorem danglesGateway_congr {there : Text → Bool} {record other : ServerConfig}
    (same : record.gatewayReference = other.gatewayReference) :
    danglesGateway there record = danglesGateway there other := by
  rw [ServerConfig.gatewayReference, ServerConfig.gatewayReference, Prod.mk.injEq] at same
  unfold danglesGateway
  rw [same.1, same.2]

theorem gatewayReference_of_dangles (dangles : danglesGateway there record = true) :
    ∃ gateway, record.gatewayReference = (some gateway, some gateway) := by
  unfold danglesGateway at dangles
  cases held : record.ipmiGatewayServerId with
  | none =>
    rw [held] at dangles
    cases dangles
  | some gateway =>
    rw [held, Option.any_some, Bool.and_eq_true, beq_iff_eq] at dangles
    exact ⟨gateway, by rw [ServerConfig.gatewayReference, held, dangles.1]⟩

def settle (env : SyncPlatform) (input : ComputeSyncPlanInput) (record : ServerConfig) : ServerConfig :=
  (gatewayPass env input).dropIn ((proxyPass env input).dropIn record)

theorem proxyReference_settle {record : ServerConfig} (linked : record.origin.isSome = true) :
    (settle env input record).proxyReference = restoredProxy (survives env input) record := by
  have gateway : ∀ other, ((gatewayPass env input).dropIn other).proxyReference = other.proxyReference := by
    intro other
    unfold ReferencePass.dropIn
    split
    · exact proxyReference_dropTemplateGateway other
    · rfl
  rw [settle, gateway, restoredProxy, ← invalidProxy_of_linked linked]
  unfold ReferencePass.dropIn
  split
  · exact (proxyReference_setTemplateProxy linked none none).trans (if_pos ‹_›).symm
  · exact (if_neg ‹_›).symm

theorem gatewayReference_proxyDropIn (record : ServerConfig) :
    ((proxyPass env input).dropIn record).gatewayReference = record.gatewayReference := by
  unfold ReferencePass.dropIn
  split
  · exact gatewayReference_setTemplateProxy record none none
  · rfl

theorem gatewayReference_settle (overwrites : Overwrites record.ipmiGatewayServerId record.stamps.ipmiGatewayServerId) :
    (settle env input record).gatewayReference = restoredGateway (survives env input) record := by
  have same := @gatewayReference_proxyDropIn env input record
  have dangles := @danglesGateway_congr (survives env input) _ _ same
  have overwrites' : Overwrites ((proxyPass env input).dropIn record).ipmiGatewayServerId
      ((proxyPass env input).dropIn record).stamps.ipmiGatewayServerId := by
    rw [ServerConfig.gatewayReference, ServerConfig.gatewayReference, Prod.mk.injEq] at same
    rwa [same.1, same.2]
  rw [settle, restoredGateway, ← dangles, ← invalidGateway_of_overwrites overwrites', ← same]
  generalize (proxyPass env input).dropIn record = other at *
  unfold ReferencePass.dropIn
  split
  · next invalid =>
    have dangling := (invalidGateway_of_overwrites overwrites').symm.trans invalid
    obtain ⟨gateway, owned⟩ := gatewayReference_of_dangles dangling
    exact (gatewayReference_dropTemplateGateway owned).trans (if_pos invalid).symm
  · exact (if_neg ‹_›).symm

theorem id_settle (record : ServerConfig) : (settle env input record).id = record.id :=
  id_of_core ((gatewayPass_keepsCore.dropIn _).trans (proxyPass_keepsCore.dropIn _))

theorem danglesProxy_gatewayDrop {there : Text → Bool} (record : ServerConfig) :
    danglesProxy there ((gatewayPass env input).drop record) = danglesProxy there record :=
  danglesProxy_congr (id_of_core ((@gatewayPass_keepsCore env input).drop record))
    (proxyReference_dropTemplateGateway record)

theorem danglesGateway_settle (record : ServerConfig) :
    danglesGateway (survives env input) (settle env input record) = false := by
  unfold settle
  generalize (proxyPass env input).dropIn record = other
  unfold ReferencePass.dropIn
  split
  · rfl
  · next valid =>
    by_contra dangles
    rw [Bool.not_eq_false] at dangles
    exact valid (invalidGateway_of_dangles dangles)

theorem danglesProxy_settle (linked : record.origin.isSome = true) :
    danglesProxy (survives env input) (settle env input record) = false := by
  have settled := @proxyReference_settle env input record linked
  by_cases dangles : danglesProxy (survives env input) record = true
  · rw [restoredProxy, if_pos dangles, ServerConfig.proxyReference, Prod.mk.injEq] at settled
    unfold danglesProxy
    rw [settled.1]
  · rw [restoredProxy, if_neg dangles] at settled
    rw [danglesProxy_congr (id_settle record) settled]
    exact Bool.eq_false_iff.mpr dangles

/-- A server of which nothing else is planned is looked through, too. -/
theorem record_of_unplanned (nodup : DistinctIds input) {server : ServerConfig}
    (cand : server ∈ candidates input)
    (unplanned : server.id ∉ plannedIds env input (keptUpdates env input)) :
    (computeSyncPlan env input).record server = settle env input server := by
  have mem := candidate_mem cand
  have same : ∀ other ∈ candidates input, other.id = server.id → other = server :=
    fun other hit => nodup.eq (candidate_mem hit) mem
  by_cases invalid : ((proxyPass env input).invalid server).isSome = true
  · have hit := mem_unplannedProxies.mpr ⟨cand, unplanned, invalid⟩
    have planned := (mem_updates nodup).mpr (.proxy server hit)
    have dropped : (proxyPass env input).dropIn server = (proxyPass env input).drop server := if_pos invalid
    rw [settle, dropped]
    exact record_of_mem nodup planned
  · have dropped : (proxyPass env input).dropIn server = server := if_neg invalid
    have absent : server.id ∉ (unplannedProxies env input).map (·.id) := by
      intro again
      obtain ⟨other, hit, id⟩ := List.mem_map.mp again
      obtain ⟨candidate', _, invalid'⟩ := mem_unplannedProxies.mp hit
      exact invalid (same other candidate' id ▸ invalid')
    rw [settle, dropped]
    by_cases invalid' : ((gatewayPass env input).invalid server).isSome = true
    · have hit := mem_unplannedGateways.mpr ⟨cand, ⟨unplanned, absent⟩, invalid'⟩
      have planned := (mem_updates nodup).mpr (.gateway server hit)
      exact (record_of_mem nodup planned).trans (if_pos invalid').symm
    · rw [ReferencePass.dropIn, if_neg invalid']
      refine record_of_absent fun u planned id => ?_
      cases (mem_updates nodup).mp planned with
      | kept v kept => exact unplanned (mem_plannedIds.mpr (.inl (.inr (List.mem_map.mpr ⟨v, kept, id⟩))))
      | proxy record hit =>
        obtain rfl := same record (mem_unplannedProxies.mp hit).1 id
        exact invalid (mem_unplannedProxies.mp hit).2.2
      | gateway record hit =>
        obtain rfl := same record (mem_unplannedGateways.mp hit).1 id
        exact invalid' (mem_unplannedGateways.mp hit).2.2

variable {u : ServerUpdate}

theorem record_of_kept (nodup : DistinctIds input) (kept : u ∈ keptUpdates env input) :
    (computeSyncPlan env input).record u.before = settle env input (afterRejections env input u) :=
  record_of_mem nodup ((mem_updates nodup).mpr (.kept u kept))

variable {after : ServerConfig} {before : Option ServerConfig}

theorem proxyReference_rejected (linked : after.origin.isSome = true)
    (rejected : ((proxyPass env input).rejected after before).isSome = true) :
    ((proxyPass env input).rejectedRecord after before).proxyReference =
      (before.bind ServerConfig.proxy, before.bind ServerConfig.stampedProxy) := by
  obtain ⟨hit, res⟩ := Option.isSome_iff_exists.mp rejected
  rw [ReferencePass.rejectedRecord, res]
  unfold ReferencePass.rejected at res
  split at res
  · change rejectWrittenProxy _ after before = some hit at res
    unfold rejectWrittenProxy at res
    split at res
    · cases res
    · split at res
      · cases res
      · rw [← Option.some.inj res]
        exact proxyReference_setTemplateProxy linked _ _
  · cases res

theorem gatewayReference_rejected (linked : after.origin.isSome = true)
    (rejected : ((gatewayPass env input).rejected after before).isSome = true) :
    ((gatewayPass env input).rejectedRecord after before).gatewayReference =
      ((before.bind ServerConfig.ipmiGatewayServerId).filter (survives env input),
        if ((before.bind ServerConfig.ipmiGatewayServerId).filter (survives env input)).isSome then
          before.bind ServerConfig.stampedGateway else none) := by
  obtain ⟨hit, res⟩ := Option.isSome_iff_exists.mp rejected
  rw [ReferencePass.rejectedRecord, res]
  unfold ReferencePass.rejected at res
  split at res
  · change rejectWrittenGateway _ after before = some hit at res
    unfold rejectWrittenGateway at res
    split at res
    · cases res
    · split at res
      · cases res
      · rw [← Option.some.inj res]
        obtain ⟨origin, held⟩ := Option.isSome_iff_exists.mp linked
        simp [ServerConfig.gatewayReference, ServerConfig.stamps, held]
  · cases res

theorem proxyReference_gatewayRejected (after : ServerConfig) (before : Option ServerConfig) :
    ((gatewayPass env input).rejectedRecord after before).proxyReference = after.proxyReference := by
  unfold ReferencePass.rejectedRecord ReferencePass.rejected
  split
  · cases res : (gatewayPass env input).reject after before with
    | none => rfl
    | some hit =>
      change rejectWrittenGateway _ after before = some hit at res
      unfold rejectWrittenGateway at res
      split at res
      · cases res
      · split at res
        · cases res
        · rw [← Option.some.inj res]
          cases held : after.origin <;> simp [ServerConfig.proxyReference, ServerConfig.stamps, held]
  · rfl

theorem gatewayReference_proxyRejected (after : ServerConfig) (before : Option ServerConfig) :
    ((proxyPass env input).rejectedRecord after before).gatewayReference = after.gatewayReference := by
  unfold ReferencePass.rejectedRecord ReferencePass.rejected
  split
  · cases res : (proxyPass env input).reject after before with
    | none => rfl
    | some hit =>
      change rejectWrittenProxy _ after before = some hit at res
      unfold rejectWrittenProxy at res
      split at res
      · cases res
      · split at res
        · cases res
        · rw [← Option.some.inj res]
          exact gatewayReference_setTemplateProxy after _ _
  · rfl

theorem restored_gateway {before : ServerConfig}
    (overwrites : Overwrites before.ipmiGatewayServerId before.stamps.ipmiGatewayServerId) :
    (before.ipmiGatewayServerId.filter there,
      if (before.ipmiGatewayServerId.filter there).isSome then before.stampedGateway else none) =
        restoredGateway there before := by
  unfold restoredGateway danglesGateway ServerConfig.gatewayReference
  rcases overwrites with ⟨value, stamp⟩ | ⟨gateway, value, stamp⟩
  · rw [value, stamp]
    rfl
  · rw [stampedGateway_of_stamp stamp, value, stamp]
    by_cases gone : there gateway = true <;> simp [gone]

theorem restoredGateway_cases {before : ServerConfig} (there : Text → Bool)
    (overwrites : Overwrites before.ipmiGatewayServerId before.stamps.ipmiGatewayServerId) :
    restoredGateway there before = (none, none) ∨
      ∃ gateway, restoredGateway there before = (some gateway, some gateway) ∧ there gateway = true := by
  unfold restoredGateway danglesGateway ServerConfig.gatewayReference
  rcases overwrites with ⟨value, stamp⟩ | ⟨gateway, value, stamp⟩
  · rw [value, stamp]
    exact .inl rfl
  · rw [value, stamp]
    by_cases gone : there gateway = true
    · exact .inr ⟨gateway, by simp [gone], gone⟩
    · exact .inl (by simp [gone])

section

variable {u : ServerUpdate} {values : Templated} {clear : Bool}

section

variable (carries : Carries env input u values clear)
include carries

theorem Carries.templateJumpHost_after {proxy : ProxyConfig} (written : values.proxy = some proxy) :
    templateJumpHost u.after = match proxy with | .ssh jumpHostId => some jumpHostId | _ => none := by
  have kept := carries.kept (by rw [written]; rfl)
  have value := carries.proxy
  have stamp := carries.proxyStamp
  rw [written, kept] at value stamp
  unfold templateJumpHost
  rw [value, stampedProxy_of_linked carries.linked, stamp]
  cases proxy with
  | ssh jumpHostId => exact if_pos rfl
  | socks5 | http => rfl

theorem Carries.proxyRejected : ((proxyPass env input).rejected u.after (some u.before)).isSome = true ↔
      ∃ jumpHostId, values.proxy = some (.ssh jumpHostId) ∧ survives env input jumpHostId = false := by
  unfold ReferencePass.rejected
  rw [carries.id, carries.named]
  cases written : values.proxy with
  | none => simp
  | some proxy =>
    have jumpHost := carries.templateJumpHost_after written
    show (rejectWrittenProxy _ _ _).isSome = true ↔ _
    unfold rejectWrittenProxy
    rw [jumpHost]
    cases proxy with
    | ssh jumpHostId =>
      have ne : jumpHostId ≠ u.after.id := by
        rintro rfl
        exact carries.apart (by rw [written, carries.id])
      by_cases there : survives env input jumpHostId = true <;> simp [ne]
    | socks5 | http => simp

theorem Carries.proxyReference_rejected
    (rejected : ((proxyPass env input).rejected u.after (some u.before)).isSome = true) :
    (afterRejections env input u).proxyReference = (u.before.proxy, u.before.stampedProxy) := by
  rw [afterRejections, proxyReference_gatewayRejected]
  exact NexTerminal.Inventory.proxyReference_rejected carries.linked rejected

theorem Carries.gatewayReference_rejected
    (rejected : ((gatewayPass env input).rejected ((proxyPass env input).rejectedRecord u.after
      (some u.before)) (some u.before)).isSome = true) :
    Overwrites u.before.ipmiGatewayServerId u.before.stamps.ipmiGatewayServerId ∧
      (afterRejections env input u).gatewayReference = restoredGateway (survives env input) u.before := by
  have core := @ReferencePass.KeepsCore.rejectedRecord (proxyPass env input) proxyPass_keepsCore u.after
    (some u.before)
  have linked := (origin_isSome_of_core core).trans carries.linked
  have named : values.ipmiGatewayServerId.isSome = true := by
    rw [← carries.namedGateway, ← carries.id, ← id_of_core core]
    unfold ReferencePass.rejected at rejected
    by_contra unnamed
    rw [if_neg unnamed] at rejected
    cases rejected
  have overwrites := carries.overwritesGateway named
  refine ⟨overwrites, ?_⟩
  rw [← restored_gateway overwrites]
  exact NexTerminal.Inventory.gatewayReference_rejected linked rejected

end

end

/-- No template reference dangles after the plan, and one that is taken back goes back to what the
server had. -/
structure SoundReferences (env : SyncPlatform) (input : ComputeSyncPlanInput) (plan : InventorySyncPlan)
    (there : Text → Bool) : Prop where
  adds : ∀ record ∈ plan.adds, danglesProxy there record = false ∧ danglesGateway there record = false
  updates : ∀ u ∈ plan.updates, danglesProxy there u.after = false ∧ danglesGateway there u.after = false
  leftOut : ∀ owned ∈ input.ownedByExternalId.values, (∀ added ∈ plan.adds, added.id ≠ owned.id) →
    (∀ u ∈ plan.updates, u.before.id ≠ owned.id) → (∀ prune ∈ plan.prunes, prune.server.id ≠ owned.id) →
    danglesProxy there owned = false ∧ danglesGateway there owned = false
  proxies : ∀ u ∈ loopUpdates env input,
    ((proxyPass env input).rejected u.after (some u.before)).isSome = true →
    (plan.record u.before).proxyReference = restoredProxy there u.before
  gateways : ∀ u ∈ loopUpdates env input,
    ((gatewayPass env input).rejected ((proxyPass env input).rejectedRecord u.after (some u.before))
      (some u.before)).isSome = true →
    (plan.record u.before).gatewayReference = restoredGateway there u.before
  newProxies : ∀ entry ∈ (deviceFindings env input).adds.zip plan.adds,
    ((proxyPass env input).rejected entry.1 none).isSome = true → entry.2.proxyReference = (none, none)
  newGateways : ∀ entry ∈ (deviceFindings env input).adds.zip plan.adds,
    ((gatewayPass env input).rejected ((proxyPass env input).rejectedRecord entry.1 none) none).isSome =
      true → entry.2.gatewayReference = (none, none)

/-- An adopted server has a proxy that a template owned, and the one that the matrix writes over it
has a jump host that is not there. -/
def LosesStamp (env : SyncPlatform) (input : ComputeSyncPlanInput) : Prop :=
  ∃ device ∈ decidedDevices input, ∃ adoptee, adopteeOf env input device = some adoptee ∧
    adoptee.stamps.proxy.isSome = true ∧
    ∃ jumpHostId, (serverMatrix env input device adoptee).values.proxy = some (.ssh jumpHostId) ∧
      survives env input jumpHostId = false

/-- A kept server that is not adopted has a template's gateway and a template's proxy that both
dangle. -/
def LeavesKept (env : SyncPlatform) (input : ComputeSyncPlanInput) : Prop :=
  ∃ kept ∈ input.keptByGroups,
    (∀ device ∈ decidedDevices input, adopteeOf env input device ≠ some kept) ∧
    danglesGateway (survives env input) kept = true ∧ danglesProxy (survives env input) kept = true

theorem LoopUpdate.of_unlinked (update : LoopUpdate env input u) (unlinked : u.before.origin = none) :
    ∃ device ∈ decidedDevices input, ∃ primary, adopteeOf env input device = some u.before ∧
      u.after = adoptionAfter input device primary (deviceAddresses env device) (deviceGroup input device)
        (input.deviceTemplates env device.toInventoryDevice) u.before := by
  cases update with
  | owned device owned decided hit =>
    have linked := linked_of_owned hit
    rw [unlinked] at linked
    cases linked
  | adopted device primary adoptee decided adopts eligible => exact ⟨device, decided, primary, adopts, rfl⟩
  | unlinked externalId owned hit =>
    have linked := linked_of_owned hit
    rw [unlinked] at linked
    cases linked

theorem mem_adds_ids {id : Text} (added : id ∈ (deviceFindings env input).adds.map (·.id)) :
    ∃ device ∈ decidedDevices input, id ∈ (planDevice env input device).adds.map (·.id) := by
  have adds : (deviceFindings env input).adds =
      (decidedDevices input).flatMap fun device => (planDevice env input device).adds :=
    planDevices_flatMap (·.adds) (fun _ _ => rfl) (fun _ _ _ => rfl) [] _
  rw [adds, List.map_flatMap] at added
  exact List.mem_flatMap.mp added

theorem LoopUpdate.present (nodup : DistinctIds input) (update : LoopUpdate env input u) :
    u.before.id ∉ (deviceFindings env input).adds.map (·.id) ∧
      u.before.id ∉ (prunes input).map (·.server.id) := by
  constructor
  · intro added
    obtain ⟨device, _, added⟩ := mem_adds_ids added
    exact adds_fresh added u.before update.before_mem rfl
  · intro pruned
    obtain ⟨prune, mem, id⟩ := List.mem_map.mp pruned
    obtain ⟨externalId, hit, missing⟩ := prunes_spec mem
    have same := nodup.eq (owned_spec hit).1 update.before_mem id
    cases update with
    | owned device owned decided found' =>
      rw [same] at hit
      rw [Option.mem_unique (owned_key hit) (owned_key found')] at missing
      exact missing (present_of_decided decided)
    | adopted device primary adoptee decided adopts eligible =>
      have linked := linked_of_owned hit
      rw [same, (eligible_spec eligible).2.1] at linked
      cases linked
    | unlinked externalId' owned found' undecided present =>
      rw [same] at hit
      rw [Option.mem_unique (owned_key hit) (owned_key found')] at missing
      exact missing present

theorem record_of_collapsed (nodup : DistinctIds input) (mem : u ∈ loopUpdates env input)
    (linked : u.before.origin.isSome = true) (left : collapsed env input u = true) :
    (computeSyncPlan env input).record u.before = settle env input u.before := by
  have update := LoopUpdate.of_mem mem
  obtain ⟨old, present⟩ := update.present nodup
  refine record_of_unplanned nodup ?_ ?_
  · refine List.mem_append_left _ (mem_owned_values.mpr ?_)
    cases update with
    | owned device owned decided hit => exact ⟨_, hit⟩
    | adopted device primary adoptee decided adopts eligible =>
      rw [(eligible_spec eligible).2.1] at linked
      cases linked
    | unlinked externalId owned hit => exact ⟨_, hit⟩
  · rintro planned
    rcases mem_plannedIds.mp planned with (added | kept) | pruned
    · exact old added
    · obtain ⟨v, kept, id⟩ := List.mem_map.mp kept
      obtain ⟨member', stays⟩ := mem_keptUpdates.mp kept
      obtain rfl := List.inj_on_of_nodup_map (loopUpdates_ids env nodup) member' mem id
      rw [left] at stays
      cases stays
    · exact present pruned

variable {values : Templated}

theorem Carries.afterRejections_linked {clear : Bool} (carries : Carries env input u values clear) :
    (afterRejections env input u).origin.isSome = true ∧ (afterRejections env input u).id = u.before.id := by
  have core : (afterRejections env input u).core = u.after.core :=
    (gatewayPass_keepsCore.rejectedRecord _ _).trans (proxyPass_keepsCore.rejectedRecord _ _)
  exact ⟨(origin_isSome_of_core core).trans carries.linked, (id_of_core core).trans carries.id⟩

/-- A proxy taken back goes back to what the server had, unless its stamp is in what the server kept. -/
theorem proxy_restored_iff (nodup : DistinctIds input) (mem : u ∈ loopUpdates env input)
    (rejected : ((proxyPass env input).rejected u.after (some u.before)).isSome = true) :
    ((computeSyncPlan env input).record u.before).proxyReference =
        restoredProxy (survives env input) u.before ↔
      (u.before.origin = none → u.before.stamps.proxy = none) := by
  have update := LoopUpdate.of_mem mem
  obtain ⟨values, clear, carries⟩ := update.carries nodup
  obtain ⟨linked', id⟩ := carries.afterRejections_linked
  have ref := carries.proxyReference_rejected rejected
  by_cases left : collapsed env input u = true
  · have linked : u.before.origin.isSome = true := by
      by_contra unlinked
      rw [adoption_not_collapsed (by simpa using unlinked) carries.linked] at left
      cases left
    rw [record_of_collapsed nodup mem linked left, proxyReference_settle linked]
    refine iff_of_true rfl fun unlinked => ?_
    rw [unlinked] at linked
    cases linked
  · rw [record_of_kept nodup (mem_keptUpdates.mpr ⟨mem, Bool.eq_false_iff.mpr left⟩),
      proxyReference_settle linked']
    cases held : u.before.origin with
    | some origin =>
      refine iff_of_true ?_ nofun
      rw [stampedProxy_of_linked (by rw [held]; rfl)] at ref
      rw [restoredProxy, restoredProxy, danglesProxy_congr id ref, ref]
      rfl
    | none =>
      have unstamped : u.before.stampedProxy = none := by rw [ServerConfig.stampedProxy, held]; rfl
      rw [unstamped] at ref
      have unowned : danglesProxy (survives env input) (afterRejections env input u) = false := by
        rw [ServerConfig.proxyReference, Prod.mk.injEq] at ref
        unfold danglesProxy
        rw [ref.2]
        split <;> rfl
      rw [restoredProxy, unowned, if_neg Bool.false_ne_true, ref]
      obtain ⟨jumpHostId, written, _⟩ := carries.proxyRejected.mp rejected
      rcases carries.overwrites (by rw [written]; rfl) with ⟨value, stamp⟩ | ⟨proxy, value, stamp⟩
      · refine iff_of_true ?_ fun _ => stamp
        have absent : danglesProxy (survives env input) u.before = false := by
          unfold danglesProxy
          rw [value]
        rw [restoredProxy, absent, if_neg Bool.false_ne_true, ServerConfig.proxyReference, value, stamp]
      · refine iff_of_false ?_ fun none => ?_
        · rw [restoredProxy, ServerConfig.proxyReference, value, stamp]
          split <;> simp
        · rw [stamp] at none
          cases none rfl

theorem gateway_restored (nodup : DistinctIds input) (mem : u ∈ loopUpdates env input)
    (rejected : ((gatewayPass env input).rejected ((proxyPass env input).rejectedRecord u.after
      (some u.before)) (some u.before)).isSome = true) :
    ((computeSyncPlan env input).record u.before).gatewayReference =
      restoredGateway (survives env input) u.before := by
  have update := LoopUpdate.of_mem mem
  obtain ⟨values, clear, carries⟩ := update.carries nodup
  obtain ⟨overwrites, ref⟩ := carries.gatewayReference_rejected rejected
  by_cases left : collapsed env input u = true
  · have linked : u.before.origin.isSome = true := by
      by_contra unlinked
      rw [adoption_not_collapsed (by simpa using unlinked) carries.linked] at left
      cases left
    rw [record_of_collapsed nodup mem linked left]
    exact gatewayReference_settle overwrites
  · rw [record_of_kept nodup (mem_keptUpdates.mpr ⟨mem, Bool.eq_false_iff.mpr left⟩)]
    rcases restoredGateway_cases (survives env input) overwrites with gone | ⟨gateway, held, there⟩
    · rw [gone] at ref ⊢
      rw [ServerConfig.gatewayReference, Prod.mk.injEq] at ref
      rw [gatewayReference_settle (.inl ref), restoredGateway, danglesGateway, ref.1,
        ServerConfig.gatewayReference, ref.1, ref.2]
      rfl
    · rw [held] at ref ⊢
      rw [ServerConfig.gatewayReference, Prod.mk.injEq] at ref
      rw [gatewayReference_settle (.inr ⟨gateway, ref⟩), restoredGateway, danglesGateway, ref.1,
        ServerConfig.gatewayReference, ref.1, ref.2]
      simp [there]

structure NewReferences (env : SyncPlatform) (input : ComputeSyncPlanInput) (record : ServerConfig)
    (values : Templated) : Prop where
  linked : record.origin.isSome = true
  proxy : record.proxyReference = (values.proxy, values.proxy)
  gateway : record.gatewayReference = (values.ipmiGatewayServerId, values.ipmiGatewayServerId)
  named : values.proxy.isSome = true → ((proxyPass env input).templateName record.id).isSome = true
  namedGateway : values.ipmiGatewayServerId.isSome = true →
    ((gatewayPass env input).templateName record.id).isSome = true
  apart : values.proxy ≠ some (.ssh record.id)
  apartGateway : values.ipmiGatewayServerId ≠ some record.id

theorem new_references (added : record ∈ (deviceFindings env input).adds) :
    ∃ values, NewReferences env input record values := by
  have adds : (deviceFindings env input).adds =
      (decidedDevices input).flatMap fun device => (planDevice env input device).adds :=
    planDevices_flatMap (·.adds) (fun _ _ => rfl) (fun _ _ _ => rfl) [] _
  rw [adds] at added
  obtain ⟨device, decided, added⟩ := List.mem_flatMap.mp added
  have target := Target.added record.id (List.mem_map_of_mem added)
  cases hit : input.ownedByExternalId.get? device.externalId with
  | some owned =>
    rw [(@planDevice_owned env _ _ _ hit).adds] at added
    cases added
  | none =>
    cases @planDevice_unowned env input device hit with
    | nothing adds | adopted _ _ _ _ adds => rw [adds] at added; cases added
    | added id primary addresses fresh deterministic adds =>
      rw [adds] at added
      obtain rfl := List.mem_singleton.mp added
      have matrix := @matrix_references env input device.toInventoryDevice none id device.name
      have proxyStamp := matrix.proxyStamp
      rw [matrix.fresh rfl, if_neg Bool.false_ne_true] at proxyStamp
      have alone : ∀ {α : Type} (value : Option α), (value <|> none) = value := fun value => by cases value <;> rfl
      exact ⟨_,
        { linked := rfl
          proxy := congrArg (Prod.mk _) (proxyStamp.trans (alone _))
          gateway := congrArg (Prod.mk _) (matrix.gatewayStamp.trans (alone _))
          named := proxyPass_names.name_of device decided _ _ target
          namedGateway := gatewayPass_names.name_of device decided _ _ target
          apart := matrix.apart
          apartGateway := matrix.apartGateway }⟩

theorem rejectedRecord_of_kept {pass : ReferencePass} (kept : (pass.rejected after before).isSome ≠ true) :
    pass.rejectedRecord after before = after := by
  rw [ReferencePass.rejectedRecord, Option.not_isSome_iff_eq_none.mp kept]
  rfl

section

variable (new : NewReferences env input record values)
include new

theorem NewReferences.proxyStays (kept : ((proxyPass env input).rejected record none).isSome ≠ true) :
    danglesProxy (survives env input) record = false := by
  have ref := new.proxy
  rw [ServerConfig.proxyReference, Prod.mk.injEq] at ref
  unfold danglesProxy
  rw [ref.1, ref.2]
  cases held : values.proxy with
  | none => rfl
  | some proxy =>
    cases proxy with
    | ssh jumpHostId =>
      have ne : jumpHostId ≠ record.id := by
        rintro rfl
        exact new.apart held
      by_contra dangles
      have gone : survives env input jumpHostId = false := by simpa [ne] using dangles
      refine kept ?_
      rw [ReferencePass.rejected, if_pos (new.named (by rw [held]; rfl))]
      have jumpHost : templateJumpHost record = some jumpHostId := by
        unfold templateJumpHost
        rw [ref.1, held, stampedProxy_of_linked new.linked, ref.2, held]
        exact if_pos rfl
      show (rejectWrittenProxy _ record none).isSome = true
      unfold rejectWrittenProxy
      rw [jumpHost]
      simp [ne, gone]
    | socks5 | http => rfl

theorem NewReferences.gatewayStays (linked : after.origin.isSome = true) (id : after.id = record.id)
    (same : after.gatewayReference = record.gatewayReference)
    (kept : ((gatewayPass env input).rejected after none).isSome ≠ true) :
    danglesGateway (survives env input) after = false := by
  have ref := same.trans new.gateway
  rw [ServerConfig.gatewayReference, Prod.mk.injEq] at ref
  unfold danglesGateway
  rw [ref.1, ref.2]
  cases held : values.ipmiGatewayServerId with
  | none => rfl
  | some gateway =>
    have ne : gateway ≠ after.id := by
      rintro rfl
      exact new.apartGateway (id ▸ held)
    by_contra dangles
    have gone : survives env input gateway = false := by simpa using dangles
    refine kept ?_
    rw [ReferencePass.rejected, id, if_pos (new.namedGateway (by rw [held]; rfl))]
    obtain ⟨origin, origin'⟩ := Option.isSome_iff_exists.mp linked
    have stamp : origin.templated.ipmiGatewayServerId = some gateway := by
      rw [← held, ← ref.2, ServerConfig.stamps, origin']
    show (rejectWrittenGateway _ after none).isSome = true
    unfold rejectWrittenGateway
    rw [ref.1, held]
    simp [origin', stamp, ne, gone]

/-- A new server as the plan has it. -/
theorem NewReferences.sound : danglesProxy (survives env input) ((gatewayPass env input).rejectedRecord
        ((proxyPass env input).rejectedRecord record none) none) = false ∧
      danglesGateway (survives env input) ((gatewayPass env input).rejectedRecord
        ((proxyPass env input).rejectedRecord record none) none) = false := by
  have core := @ReferencePass.KeepsCore.rejectedRecord (proxyPass env input) proxyPass_keepsCore record none
  have core' := @ReferencePass.KeepsCore.rejectedRecord (gatewayPass env input) gatewayPass_keepsCore
    ((proxyPass env input).rejectedRecord record none) none
  have linked := (origin_isSome_of_core core).trans new.linked
  constructor
  · rw [danglesProxy_congr (id_of_core core') (proxyReference_gatewayRejected _ _)]
    by_cases rejected : ((proxyPass env input).rejected record none).isSome = true
    · have ref := proxyReference_rejected new.linked rejected
      rw [ServerConfig.proxyReference, Prod.mk.injEq] at ref
      unfold danglesProxy
      rw [ref.1]
      rfl
    · rw [rejectedRecord_of_kept rejected]
      exact new.proxyStays rejected
  · by_cases rejected : ((gatewayPass env input).rejected
        ((proxyPass env input).rejectedRecord record none) none).isSome = true
    · have ref := gatewayReference_rejected linked rejected
      rw [ServerConfig.gatewayReference, Prod.mk.injEq] at ref
      unfold danglesGateway
      rw [ref.1]
      rfl
    · rw [rejectedRecord_of_kept rejected]
      exact new.gatewayStays linked (id_of_core core) (gatewayReference_proxyRejected record none) rejected

end

theorem update_sound (nodup : DistinctIds input) (planned : u ∈ (computeSyncPlan env input).updates) :
    danglesGateway (survives env input) u.after = false ∧
      (danglesProxy (survives env input) u.after = false ∨
        u.before ∈ unplannedGateways env input ∧ u.before.origin = none ∧
          danglesProxy (survives env input) u.before = true) := by
  cases (mem_updates nodup).mp planned with
  | kept v kept =>
    obtain ⟨values, clear, carries⟩ := (LoopUpdate.of_mem (mem_keptUpdates.mp kept).1).carries nodup
    exact ⟨danglesGateway_settle _, .inl (danglesProxy_settle carries.afterRejections_linked.1)⟩
  | proxy record hit =>
    have invalid := (mem_unplannedProxies.mp hit).2.2
    have linked : record.origin.isSome = true := by
      by_contra unlinked
      rw [show (proxyPass env input).invalid record = none from
        invalidProxy_of_unlinked (by simpa using unlinked)] at invalid
      cases invalid
    have dropped : (proxyPass env input).dropIn record = (proxyPass env input).drop record := if_pos invalid
    rw [← dropped]
    exact ⟨danglesGateway_settle _, .inl (danglesProxy_settle linked)⟩
  | gateway record hit =>
    refine ⟨rfl, ?_⟩
    rw [danglesProxy_gatewayDrop]
    by_cases dangles : danglesProxy (survives env input) record = true
    · refine .inr ⟨hit, ?_, dangles⟩
      obtain ⟨cand, ⟨unplanned, absent⟩, _⟩ := mem_unplannedGateways.mp hit
      by_contra linked
      have invalid := (invalidProxy_of_linked (Option.isSome_iff_ne_none.mpr linked)).trans dangles
      exact absent (List.mem_map_of_mem (mem_unplannedProxies.mpr ⟨cand, unplanned, invalid⟩))
    · exact .inl (Bool.eq_false_iff.mpr dangles)

theorem adoption_mem (decided : device ∈ decidedDevices input) {adoptee : ServerConfig}
    (adopts : adopteeOf env input device = some adoptee) :
    ∃ primary, ⟨adoptee, adoptionAfter input device primary (deviceAddresses env device)
      (deviceGroup input device) (input.deviceTemplates env device.toInventoryDevice) adoptee⟩ ∈
        keptUpdates env input := by
  obtain ⟨_, _, eligible, nobody⟩ := adopteeOf_spec adopts
  have befores := @planDevice_befores env input device nobody
  rw [adopts] at befores
  cases @planDevice_unowned env input device nobody with
  | nothing _ updates | added _ _ _ _ _ _ updates => rw [updates] at befores; cases befores
  | adopted primary other _ _ _ updates =>
    rw [updates] at befores
    obtain rfl : other = adoptee := (List.cons.inj befores).1
    refine ⟨primary, mem_keptUpdates.mpr ⟨List.mem_append_left _ ?_, ?_⟩⟩
    · rw [deviceFindings_updates]
      exact List.mem_flatMap.mpr ⟨device, decided, by rw [updates]; exact List.mem_singleton_self _⟩
    · have unlinked := (eligible_spec eligible).2.1
      refine adoption_not_collapsed unlinked ?_
      exact congrArg References.linked
        (@references_adoptionAfter env input device primary (deviceAddresses env device)
          (deviceGroup input device) other unlinked)

theorem kept_unplanned_iff (nodup : DistinctIds input) {kept : ServerConfig} (mem : kept ∈ input.keptByGroups) :
    kept.id ∉ plannedIds env input (keptUpdates env input) ↔
      ∀ device ∈ decidedDevices input, adopteeOf env input device ≠ some kept := by
  obtain ⟨known, unlinked, _⟩ := kept_spec mem
  constructor
  · intro unplanned device decided adopts
    obtain ⟨primary, adoption⟩ := adoption_mem decided adopts
    exact not_kept_of_unplanned unplanned (List.mem_map.mpr ⟨_, adoption, rfl⟩)
  · intro nobody planned
    rcases mem_plannedIds.mp planned with (added | updated) | pruned
    · obtain ⟨device, _, added⟩ := mem_adds_ids added
      exact adds_fresh added kept known rfl
    · obtain ⟨u, updated, id⟩ := List.mem_map.mp updated
      have update := LoopUpdate.of_mem (mem_keptUpdates.mp updated).1
      obtain rfl := nodup.eq update.before_mem known id
      obtain ⟨device, decided, _, adopts, _⟩ := update.of_unlinked unlinked
      exact nobody device decided adopts
    · obtain ⟨prune, mem, id⟩ := List.mem_map.mp pruned
      obtain ⟨externalId, hit, _⟩ := prunes_spec mem
      have linked := linked_of_owned hit
      rw [nodup.eq (owned_spec hit).1 known id, unlinked] at linked
      cases linked

theorem kept_of_candidate {server : ServerConfig} (cand : server ∈ candidates input)
    (unlinked : server.origin = none) : server ∈ input.keptByGroups := by
  rcases List.mem_append.mp cand with owned | kept
  · obtain ⟨externalId, hit⟩ := mem_owned_values.mp owned
    have linked := linked_of_owned hit
    rw [unlinked] at linked
    cases linked
  · exact kept

theorem invalidGateway_of_unlinked (unlinked : record.origin = none) :
    (invalidTemplateGateway there record).isSome = danglesGateway there record := by
  have stamp : record.stampedGateway = record.stamps.ipmiGatewayServerId := by
    unfold ServerConfig.stampedGateway ServerConfig.stamps
    rw [unlinked]
    cases record.formerlySynced <;> rfl
  unfold invalidTemplateGateway danglesGateway
  rw [stamp]
  cases record.ipmiGatewayServerId with
  | none => rfl
  | some gateway =>
    rw [Option.filter_some, Option.any_some]
    split
    · next dangles => exact dangles.symm
    · next stays => exact (Bool.eq_false_iff.mpr stays).symm

theorem LeavesKept.update (nodup : DistinctIds input) (leaves : LeavesKept env input) :
    ∃ u ∈ (computeSyncPlan env input).updates, danglesProxy (survives env input) u.after = true := by
  obtain ⟨kept, mem, nobody, gateway, proxy⟩ := leaves
  obtain ⟨known, unlinked, _⟩ := kept_spec mem
  have unplanned := (kept_unplanned_iff nodup mem).mpr nobody
  have unpromoted : kept.id ∉ (unplannedProxies env input).map (·.id) := by
    intro again
    obtain ⟨other, hit, id⟩ := List.mem_map.mp again
    obtain ⟨cand, _, invalid⟩ := mem_unplannedProxies.mp hit
    obtain rfl := nodup.eq (candidate_mem cand) known id
    rw [show (proxyPass env input).invalid other = none from invalidProxy_of_unlinked unlinked] at invalid
    cases invalid
  have hit := mem_unplannedGateways.mpr
    ⟨List.mem_append_right _ mem, ⟨unplanned, unpromoted⟩, (invalidGateway_of_unlinked unlinked).trans gateway⟩
  refine ⟨_, (mem_updates nodup).mpr (.gateway kept hit), ?_⟩
  rw [← proxy]
  exact @danglesProxy_gatewayDrop env input _ kept

theorem LosesStamp.update (nodup : DistinctIds input) (loses : LosesStamp env input) :
    ∃ u ∈ loopUpdates env input,
      ((proxyPass env input).rejected u.after (some u.before)).isSome = true ∧ u.before.origin = none ∧
        u.before.stamps.proxy.isSome = true := by
  obtain ⟨device, decided, adoptee, adopts, stamped, jumpHostId, written, gone⟩ := loses
  obtain ⟨primary, adoption⟩ := adoption_mem decided adopts
  obtain ⟨_, _, eligible, _⟩ := adopteeOf_spec adopts
  have carries := carries_adopted nodup decided adopts primary (deviceAddresses env device)
    (deviceGroup input device)
  exact ⟨_, (mem_keptUpdates.mp adoption).1, carries.proxyRejected.mpr ⟨jumpHostId, written, gone⟩,
    (eligible_spec eligible).2.1, stamped⟩

theorem losesStamp_of_update (nodup : DistinctIds input) (mem : u ∈ loopUpdates env input)
    (rejected : ((proxyPass env input).rejected u.after (some u.before)).isSome = true)
    (unlinked : u.before.origin = none) (stamped : u.before.stamps.proxy.isSome = true) :
    LosesStamp env input := by
  obtain ⟨device, decided, primary, adopts, after⟩ := (LoopUpdate.of_mem mem).of_unlinked unlinked
  have carries := carries_adopted nodup decided adopts primary (deviceAddresses env device)
    (deviceGroup input device)
  rw [← after] at carries
  obtain ⟨jumpHostId, written, gone⟩ := carries.proxyRejected.mp rejected
  exact ⟨device, decided, u.before, adopts, stamped, jumpHostId, written, gone⟩

theorem leftOut_sound (nodup : DistinctIds input) (mem : owned ∈ input.ownedByExternalId.values)
    (added : ∀ record ∈ (computeSyncPlan env input).adds, record.id ≠ owned.id)
    (updated : ∀ u ∈ (computeSyncPlan env input).updates, u.before.id ≠ owned.id)
    (pruned : ∀ prune ∈ (computeSyncPlan env input).prunes, prune.server.id ≠ owned.id) :
    danglesProxy (survives env input) owned = false ∧ danglesGateway (survives env input) owned = false := by
  have untouched := record_of_absent updated
  obtain ⟨externalId, hit⟩ := mem_owned_values.mp mem
  have unplanned : owned.id ∉ plannedIds env input (keptUpdates env input) := by
    intro planned
    rcases mem_plannedIds.mp planned with (new | loop) | gone
    · rw [← final_adds_ids] at new
      obtain ⟨record, new, id⟩ := List.mem_map.mp new
      exact added record new id
    · obtain ⟨v, kept, id⟩ := List.mem_map.mp loop
      exact updated _ ((mem_updates nodup).mpr (.kept v kept)) id
    · obtain ⟨prune, gone, id⟩ := List.mem_map.mp gone
      exact pruned prune gone id
  rw [record_of_unplanned nodup (List.mem_append_left _ mem) unplanned] at untouched
  rw [← untouched]
  exact ⟨danglesProxy_settle (linked_of_owned hit), danglesGateway_settle owned⟩

theorem mem_zip_adds {entry : ServerConfig × ServerConfig}
    (mem : entry ∈ (deviceFindings env input).adds.zip (computeSyncPlan env input).adds) :
    (∃ values, NewReferences env input entry.1 values) ∧
      entry.2 = (gatewayPass env input).rejectedRecord
        ((proxyPass env input).rejectedRecord entry.1 none) none := by
  rw [show (computeSyncPlan env input).adds = _ from final_adds, ← List.map_prod_left_eq_zip] at mem
  obtain ⟨record, added, rfl⟩ := List.mem_map.mp mem
  exact ⟨new_references added, rfl⟩

/-- No template reference dangles after a plan, unless an adoption loses a stamp or a kept server's gateway alone is
dropped. -/
theorem references_sound (distinct : DistinctIds input) :
    SoundReferences env input (computeSyncPlan env input)
        ((computeSyncPlan env input).leaves input.currentServers) ↔
      ¬LosesStamp env input ∧ ¬LeavesKept env input := by
  rw [leaves_computeSyncPlan]
  constructor
  · intro sound
    constructor
    · intro loses
      obtain ⟨u, member, rejected, unlinked, stamped⟩ := loses.update distinct
      have unstamped := (proxy_restored_iff distinct member rejected).mp (sound.proxies u member rejected) unlinked
      rw [unstamped] at stamped
      cases stamped
    · intro leaves
      obtain ⟨u, planned, dangles⟩ := leaves.update distinct
      rw [(sound.updates u planned).1] at dangles
      cases dangles
  · rintro ⟨stamps, keeps⟩
    constructor
    · intro record added
      rw [show (computeSyncPlan env input).adds = _ from final_adds] at added
      obtain ⟨record, known, rfl⟩ := List.mem_map.mp added
      obtain ⟨values, new⟩ := new_references known
      exact new.sound
    · intro u planned
      obtain ⟨gateway, proxy | ⟨found, unlinked, dangles⟩⟩ := update_sound distinct planned
      · exact ⟨proxy, gateway⟩
      · obtain ⟨candidate, ⟨unplanned, _⟩, invalid⟩ := mem_unplannedGateways.mp found
        have member := kept_of_candidate candidate unlinked
        exact absurd ⟨u.before, member, (kept_unplanned_iff distinct member).mp unplanned,
          (invalidGateway_of_unlinked unlinked).symm.trans invalid, dangles⟩ keeps
    · exact fun owned member added updated pruned => leftOut_sound distinct member added updated pruned
    · intro u member rejected
      refine (proxy_restored_iff distinct member rejected).mpr fun unlinked => ?_
      by_contra stamped
      exact stamps (losesStamp_of_update distinct member rejected unlinked (Option.isSome_iff_ne_none.mpr stamped))
    · exact fun u member rejected => gateway_restored distinct member rejected
    · intro entry member rejected
      obtain ⟨⟨values, new⟩, same⟩ := mem_zip_adds member
      rw [same, proxyReference_gatewayRejected]
      exact proxyReference_rejected new.linked rejected
    · intro entry member rejected
      obtain ⟨⟨values, new⟩, same⟩ := mem_zip_adds member
      have core := @ReferencePass.KeepsCore.rejectedRecord (proxyPass env input) proxyPass_keepsCore entry.1 none
      rw [same]
      exact gatewayReference_rejected ((origin_isSome_of_core core).trans new.linked) rejected

def jumpServer : ServerConfig where
  id := "jump".toList
  name := "jump".toList
  host := "10.0.0.2".toList
  port := 22
  username := some "root".toList
  authType := .agent
  origin := some { sourceId := "s".toList, externalId := "1".toList, syncedAt := 0 }

/-- A server that a removed source left, with references of that source's templates. -/
def keptServer (proxy : Option ProxyConfig) : ServerConfig where
  id := "kept".toList
  name := "kept".toList
  host := "10.0.0.3".toList
  port := 22
  username := some "root".toList
  authType := .agent
  proxy
  ipmiGatewayServerId := some "jump".toList
  formerlySynced := some
    { sourceId := "old".toList
      sourceName := "Old".toList
      providerId := "netbox".toList
      instanceKey := some "lab".toList
      externalId := "2".toList
      templated := { proxy, ipmiGatewayServerId := some "jump".toList }
      detachedAt := 0 }

def prunedInput (proxy : Option ProxyConfig) : ComputeSyncPlanInput where
  source :=
    { id := "s".toList
      providerId := "netbox".toList
      name := "Lab".toList
      targetFolder := []
      prunePolicy := .delete
      defaultUsername := "root".toList }
  tree := { devices := [] }
  currentServers := [jumpServer, keptServer proxy]
  now := 1
  providerInstanceKey := some "lab".toList

theorem prunedInput_distinct (proxy : Option ProxyConfig) : DistinctIds (prunedInput proxy) := by
  show ["jump".toList, "kept".toList].Nodup
  decide

def rackedDevice : TreeDevice where
  name := "kept".toList
  externalId := "2".toList
  endpoints := [⟨.ssh, "10.0.0.3".toList, none, none⟩]

/-- The kept server is adopted, and an overriding template sends it through the server that is pruned. -/
def adoptingInput : ComputeSyncPlanInput :=
  { prunedInput none with
    source := { (prunedInput none).source with templateRules := some [{ id := "r".toList, templateId := "t".toList }] }
    tree := { devices := [rackedDevice] }
    adoptionChoice := some .adopt
    templatesById := fun _ => some
      { name := "gated".toList
        fields := { proxy := some ⟨.override, .ssh "jump".toList⟩ } } }

theorem references_sound_pruned :
    SoundReferences plainSyncPlatform adoptingInput (computeSyncPlan plainSyncPlatform adoptingInput)
        ((computeSyncPlan plainSyncPlatform adoptingInput).leaves adoptingInput.currentServers) ∧
      ∃ u ∈ loopUpdates plainSyncPlatform adoptingInput,
        ((proxyPass plainSyncPlatform adoptingInput).rejected u.after (some u.before)).isSome = true := by
  refine ⟨(@references_sound _ adoptingInput (prunedInput_distinct none)).mpr ⟨?_, ?_⟩, by decide +kernel⟩
  · rintro ⟨device, -, adoptee, adopts, stamped, -⟩
    obtain ⟨primary, -, eligible, -⟩ := adopteeOf_spec adopts
    have kept := (List.mem_filter.mp (List.mem_filter.mp eligible).1).1
    obtain rfl := List.mem_singleton.mp kept
    cases stamped
  · rintro ⟨kept, member, -, -, dangles⟩
    obtain rfl := List.mem_singleton.mp member
    cases dangles

/-- A kept server that is not adopted loses its gateway to `jump`, and not its proxy. -/
theorem kept_proxy_dangles :
    ¬SoundReferences plainSyncPlatform (prunedInput (some (.ssh "jump".toList)))
      (computeSyncPlan plainSyncPlatform (prunedInput (some (.ssh "jump".toList))))
      ((computeSyncPlan plainSyncPlatform (prunedInput (some (.ssh "jump".toList)))).leaves
        (prunedInput (some (.ssh "jump".toList))).currentServers) := by
  intro sound
  have planned : ⟨keptServer (some (.ssh "jump".toList)),
    dropTemplateGateway (keptServer (some (.ssh "jump".toList)))⟩ ∈
      (computeSyncPlan plainSyncPlatform (prunedInput (some (.ssh "jump".toList)))).updates := by decide
  have stays := (sound.updates _ planned).1
  revert stays
  decide

end NexTerminal.Inventory
