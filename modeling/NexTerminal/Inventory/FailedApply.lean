import Mathlib.Data.Char
import Mathlib.Data.List.Lex
import NexTerminal.Inventory.RollbackFacts

namespace NexTerminal.Inventory

open Library

/-- Two cores that agree on all that an application may change. -/
structure SameState (before after : NexusCore) : Prop where
  servers : ∀ id, after.servers.get? id = before.servers.get? id
  explicitGroups : ∀ path, path ∈ after.explicitGroups ↔ path ∈ before.explicitGroups
  inventorySources : ∀ id, after.inventorySources.get? id = before.inventorySources.get? id
  activeSessions : ∀ id, after.activeSessions.get? id = before.activeSessions.get? id
  activitySessionIds : ∀ id, id ∈ after.activitySessionIds ↔ id ∈ before.activitySessionIds
  focusedSessionId : after.focusedSessionId = before.focusedSessionId
  serverStatus : ∀ id, after.serverStatus.get? id = before.serverStatus.get? id
  serverStatusSource : ∀ id, after.serverStatusSource.get? id = before.serverStatusSource.get? id

/-- An application whose save rejects leaves the core as it was, and so does one
that is refused. -/
def FailsWithoutEffect (collation : Collation) (core : NexusCore) (apply : InventorySyncApplication) : Prop :=
  match applyInventorySyncPlan collation core apply [] true with
  | (.threw _, after) => after = core
  | (.rejected, after) => SameState core after
  | (.applied _ _ _, _) => False

/-- Whether the application deletes the server and writes nothing in its place. -/
def Deletes (accepted : AcceptedApplication) (id : Text) : Prop :=
  id ∈ accepted.removeServerIds ∧ id ∉ accepted.upsertServers.map ServerConfig.id

/-- The folder lies above something the application leaves, or a deleted server was in it. -/
def ParentRemains (core : NexusCore) (accepted : AcceptedApplication) (parent : Text) : Prop :=
  (∃ folder ∈ core.explicitGroups, parent ∈ folderChain (some folder)) ∨
    (∃ id server, core.servers.get? id = some server ∧ ¬ Deletes accepted id ∧
      parent ∈ folderChain server.group) ∨
    (∃ profile ∈ core.serialProfiles.values, parent ∈ folderChain profile.group) ∨
    (∃ profile ∈ core.localShellProfiles.values, parent ∈ folderChain profile.group) ∨
    parent ≠ [] ∧ ∃ id server, core.servers.get? id = some server ∧ Deletes accepted id ∧
      server.group = some parent

/-- What an application must satisfy for its rollback to be complete. -/
structure Restorable (core : NexusCore) (apply : InventorySyncApplication) (accepted : AcceptedApplication) :
    Prop where
  /-- The parent of every collected folder is a folder of its own. -/
  folders : ∀ source expected folder parent, apply.expectedSource = .config expected →
    core.inventorySources.get? apply.sourceId = some source → Garbage core apply accepted source folder →
      parentPath folder = some parent → parent ∈ core.explicitGroups
  /-- The parent of every deleted server's folder remains. -/
  servers : ∀ id server group parent, Deletes accepted id → core.servers.get? id = some server →
    server.group = some group → parentPath group = some parent → ParentRemains core accepted parent
  /-- Every status the application drops belongs to a server it deletes. -/
  status : ∀ id ∈ accepted.removeServerIds,
    (core.serverStatus.get? id).isSome = true ∨ (core.serverStatusSource.get? id).isSome = true →
      (core.serverStatus.get? id).isSome = true ∧ (core.servers.get? id).isSome = true ∧
        id ∉ accepted.upsertServers.map ServerConfig.id

namespace Batch

section Rejected

variable (core : NexusCore) (apply : InventorySyncApplication) (accepted : AcceptedApplication)

def failedCore : NexusCore := (mutate core apply accepted).core.openWindow

/-- The core with its servers and folders back, save for the deleted servers. -/
def foldersBack : NexusCore :=
  (mutate core apply accepted).rollbackFolders
    ((mutate core apply accepted).rollbackServers (failedCore core apply accepted))

theorem foldersBack_besides : { foldersBack core apply accepted with servers := .empty, explicitGroups := .empty } =
      { failedCore core apply accepted with servers := .empty, explicitGroups := .empty } :=
  (congrArg (fun core : NexusCore => { core with explicitGroups := .empty })
    (rollbackServers_rest (failedCore core apply accepted)) :)

theorem foldersBack_servers (id : Text) :
    (¬ Deletes accepted id → (foldersBack core apply accepted).servers.get? id = core.servers.get? id) ∧
      (Deletes accepted id → (foldersBack core apply accepted).servers.get? id = none) := by
  have tracked := mutate_tracked core apply accepted
  have deleted := mutate_deleted core apply accepted id
  have back : (foldersBack core apply accepted).servers.get? id = _ := rollbackServers_get? _ id
  rw [back]
  unfold Deletes
  rw [← deleted]
  unfold Deleted
  cases captured : (mutate core apply accepted).priorServers.get? id with
  | none =>
    have unwritten := tracked.unwritten_of_uncaptured captured
    refine ⟨fun _ => tracked.unwritten id unwritten, fun written => ?_⟩
    rw [unwritten] at written
    cases written
  | some prior =>
    have old := tracked.prior id prior captured
    rcases tracked.settled id (by rw [captured]; rfl) with written | impossible
    · obtain ⟨left, written⟩ := Option.isSome_iff_exists.mp written
      have now := tracked.written id left written
      unfold serverAfterRollback
      rw [written, show (failedCore core apply accepted).servers.get? id = _ from now]
      cases left with
      | none => exact ⟨fun kept => absurd rfl kept, fun _ => rfl⟩
      | some batchSnapshot =>
        refine ⟨fun _ => ?_, by simp⟩
        simp only [Option.join_some, serverConfigsEqual_refl]
        exact old
    · cases impossible

theorem foldersBack_groups {path : Text} :
    path ∈ (foldersBack core apply accepted).explicitGroups ↔
      Stands (fun folder => folder ∈ core.explicitGroups ∧
          folder ∉ (mutate core apply accepted).removedEmptyGroups)
        (mutate core apply accepted).removedEmptyGroups path := by
  have kept : (fun folder => folder ∈ ((mutate core apply accepted).rollbackServers
        (failedCore core apply accepted)).explicitGroups.filter
          fun group => group ∉ (mutate core apply accepted).addedExplicitGroups) =
      fun folder => folder ∈ core.explicitGroups ∧ folder ∉ (mutate core apply accepted).removedEmptyGroups := by
    funext folder
    have same : ((mutate core apply accepted).rollbackServers
        (failedCore core apply accepted)).explicitGroups = (mutate core apply accepted).core.explicitGroups :=
      (congrArg NexusCore.explicitGroups
        ((mutate core apply accepted).rollbackServers_rest (failedCore core apply accepted)) :)
    have groups := mutate_groups core apply accepted folder
    have added : folder ∈ (mutate core apply accepted).addedExplicitGroups ↔
        folder ∈ namedFolders apply.folders ∧ folder ∉ core.explicitGroups :=
      (Iff.of_eq (congrArg (fun batch => folder ∈ batch.addedExplicitGroups)
        (mutate_besidesSettling core apply accepted) :)).trans
          (gatewaysCleared_folders core apply accepted folder).2.2
    rw [SeqSet.mem_filter, same, groups, decide_eq_true_eq, added, eq_iff_iff]
    tauto
  rw [← kept]
  exact mem_restoreFolders

theorem foldersBack_groups_same :
    (∀ path, path ∈ (foldersBack core apply accepted).explicitGroups ↔ path ∈ core.explicitGroups) ↔
      ∀ source expected folder parent, apply.expectedSource = .config expected →
        core.inventorySources.get? apply.sourceId = some source → Garbage core apply accepted source folder →
          parentPath folder = some parent → parent ∈ core.explicitGroups := by
  have removed := fun folder => mutate_removedEmptyGroups core apply accepted folder
  have explicit : ∀ folder ∈ (mutate core apply accepted).removedEmptyGroups,
      folder ∈ core.explicitGroups := by
    intro folder mem
    obtain ⟨source, -, -, -, garbage⟩ := (removed folder).mp mem
    have fit := garbage.collectable.2
    simp only [isGcCandidate, Bool.and_eq_true, decide_eq_true_eq] at fit
    exact fit.2
  have stands : ∀ path, Stands (fun folder => folder ∈ core.explicitGroups ∧
      folder ∉ (mutate core apply accepted).removedEmptyGroups)
        (mutate core apply accepted).removedEmptyGroups path → path ∈ core.explicitGroups := by
    intro path standing
    cases standing with
    | kept held => exact held.1
    | top listed | restored listed => exact explicit path listed
  constructor
  · intro same source expected folder parent mode hit garbage above
    have listed := (removed folder).mpr ⟨source, expected, mode, hit, garbage⟩
    have standing := (foldersBack_groups core apply accepted).mp ((same folder).mpr (explicit folder listed))
    cases standing with
    | kept held => exact absurd listed held.2
    | top _ single =>
      rw [above] at single
      cases single
    | restored _ other standing =>
      rw [above] at other
      cases other
      exact stands parent standing
  · intro parents path
    rw [foldersBack_groups]
    refine ⟨stands path, fun mem => ?_⟩
    -- by the depth of the folder: its parent is shallower
    induction deep : depth path using Nat.strong_induction_on generalizing path with
    | _ n ih =>
      by_cases listed : path ∈ (mutate core apply accepted).removedEmptyGroups
      · cases above : parentPath path with
        | none => exact .top listed above
        | some parent =>
          obtain ⟨source, expected, mode, hit, garbage⟩ := (removed path).mp listed
          have held := parents source expected path parent mode hit garbage above
          have shallower := depth_parentPath above
          exact .restored listed above (ih (depth parent) (by omega) parent held rfl)
      · exact .kept ⟨mem, listed⟩

def deletedServers (collation : Collation) : List (Text × ServerConfig) :=
  restoreOrder collation (mutate core apply accepted).pendingRemovedServerRestores

section

variable (collation : Collation)
include collation

theorem mem_deletedServers {id : Text} {server : ServerConfig} :
    (id, server) ∈ deletedServers core apply accepted collation ↔
      Deletes accepted id ∧ core.servers.get? id = some server := by
  have tracked := mutate_tracked core apply accepted
  have deleted := mutate_deleted core apply accepted id
  unfold deletedServers
  rw [(restoreOrder_perm collation _).mem_iff, mem_pendingRemovedServerRestores]
  unfold Deletes
  rw [← deleted]
  unfold Deleted
  constructor
  · rintro ⟨captured, absent⟩
    refine ⟨?_, (tracked.prior id _ captured).symm⟩
    obtain ⟨left, written⟩ := Option.isSome_iff_exists.mp
      ((tracked.settled id (by rw [captured]; rfl)).resolve_right List.not_mem_nil)
    rw [written] at absent ⊢
    cases left with
    | none => rfl
    | some server => cases absent
  · rintro ⟨written, hit⟩
    obtain ⟨prior, captured⟩ := Option.isSome_iff_exists.mp (tracked.captured id (by rw [written]; rfl))
    rw [captured, tracked.prior id prior captured, hit, written]
    exact ⟨rfl, rfl⟩

theorem deletedServers_distinct : ((deletedServers core apply accepted collation).map Prod.fst).Nodup :=
  ((restoreOrder_perm collation _).map Prod.fst).nodup_iff.mpr
    (pendingRemovedServerRestores_distinct _)

theorem deletedServers_absent {entry : Text × ServerConfig}
    (mem : entry ∈ deletedServers core apply accepted collation) :
    (foldersBack core apply accepted).servers.get? entry.1 = none :=
  (foldersBack_servers core apply accepted entry.1).2
    ((mem_deletedServers core apply accepted collation).mp mem).1

theorem parentStands_iff
    (groups : ∀ path, path ∈ (foldersBack core apply accepted).explicitGroups ↔ path ∈ core.explicitGroups)
    {parent : Text} :
    ParentStands (foldersBack core apply accepted) (survivingFolderPaths (foldersBack core apply accepted))
        (deletedServers core apply accepted collation) parent ↔ ParentRemains core accepted parent := by
  have besides := foldersBack_besides core apply accepted
  have settled := mutate_scaffold core apply accepted
  have serial : (foldersBack core apply accepted).serialProfiles = core.serialProfiles :=
    (congrArg NexusCore.serialProfiles besides :).trans
      (congrArg (fun batch => batch.core.serialProfiles) settled :)
  have shell : (foldersBack core apply accepted).localShellProfiles = core.localShellProfiles :=
    (congrArg NexusCore.localShellProfiles besides :).trans
      (congrArg (fun batch => batch.core.localShellProfiles) settled :)
  have servers : (∃ id server, (foldersBack core apply accepted).servers.get? id = some server ∧
        parent ∈ folderChain server.group) ↔
      ∃ id server, core.servers.get? id = some server ∧ ¬ Deletes accepted id ∧
        parent ∈ folderChain server.group := by
    refine exists_congr fun id => exists_congr fun server => ?_
    obtain ⟨kept, gone⟩ := foldersBack_servers core apply accepted id
    by_cases deletes : Deletes accepted id
    · simp [gone deletes, deletes]
    · simp [kept deletes, deletes]
  have others : (∃ other ∈ deletedServers core apply accepted collation,
        (foldersBack core apply accepted).servers.get? other.1 = none ∧ other.2.group = some parent) ↔
      ∃ id server, core.servers.get? id = some server ∧ Deletes accepted id ∧ server.group = some parent := by
    constructor
    · rintro ⟨⟨id, server⟩, mem, -, shape⟩
      obtain ⟨deletes, hit⟩ := (mem_deletedServers core apply accepted collation).mp mem
      exact ⟨id, server, hit, deletes, shape⟩
    · rintro ⟨id, server, hit, deletes, shape⟩
      have mem := (mem_deletedServers core apply accepted collation).mpr ⟨deletes, hit⟩
      exact ⟨(id, server), mem, deletedServers_absent core apply accepted collation mem, shape⟩
  rw [ParentStands, ParentRemains, others, mem_survivingFolderPaths, servers, serial, shell]
  simp [groups, or_assoc]

def serversBack (collation : Collation) : NexusCore :=
  (mutate core apply accepted).restoreRemovedServers collation (foldersBack core apply accepted)

theorem serversBack_servers_same
    (groups : ∀ path, path ∈ (foldersBack core apply accepted).explicitGroups ↔ path ∈ core.explicitGroups) :
    (∀ id, (serversBack core apply accepted collation).servers.get? id = core.servers.get? id) ↔
      ∀ id server group parent, Deletes accepted id → core.servers.get? id = some server →
        server.group = some group → parentPath group = some parent → ParentRemains core accepted parent := by
  have closed := survivingFolderPaths_closed (foldersBack core apply accepted)
  have nodup := deletedServers_distinct core apply accepted collation
  have back : ∀ id, (serversBack core apply accepted collation).servers.get? id =
      ((mutate core apply accepted).restoreAll (foldersBack core apply accepted)
        (survivingFolderPaths (foldersBack core apply accepted))
        (deletedServers core apply accepted collation)).1.servers.get? id := fun _ => rfl
  constructor
  · intro same id server group parent deletes hit inside above
    have mem := (mem_deletedServers core apply accepted collation).mpr ⟨deletes, hit⟩
    have restored := (back id).symm.trans ((same id).trans hit)
    exact (parentStands_iff core apply accepted collation groups).mp
      (parentStands_of_same closed nodup mem
        (deletedServers_absent core apply accepted collation mem) restored inside above)
  · intro parents id
    obtain ⟨kept, gone⟩ := foldersBack_servers core apply accepted id
    by_cases deletes : Deletes accepted id
    · cases hit : core.servers.get? id with
      | none =>
        have unnamed : id ∉ (deletedServers core apply accepted collation).map Prod.fst := by
          intro named
          obtain ⟨⟨other, server⟩, mem, rfl⟩ := List.mem_map.mp named
          have held := ((mem_deletedServers core apply accepted collation).mp mem).2
          rw [hit] at held
          cases held
        exact (back id).trans ((restoreServers_unnamed unnamed).trans (gone deletes))
      | some server =>
        have mem := (mem_deletedServers core apply accepted collation).mpr ⟨deletes, hit⟩
        refine (back id).trans (restoreAll_same (fun _ => True) closed nodup
          (restoreOrder_sorted collation _) (fun _ _ _ _ => trivial) ?_ mem
          (deletedServers_absent core apply accepted collation mem) fun _ _ => trivial)
        intro entry listed _ group parent inside _ above
        obtain ⟨deletes', found'⟩ := (mem_deletedServers core apply accepted collation).mp listed
        exact (parentStands_iff core apply accepted collation groups).mpr
          (parents entry.1 entry.2 group parent deletes' found' inside above)
    · have unnamed : id ∉ (deletedServers core apply accepted collation).map Prod.fst := by
        intro named
        obtain ⟨⟨other, server⟩, mem, rfl⟩ := List.mem_map.mp named
        exact deletes ((mem_deletedServers core apply accepted collation).mp mem).1
      exact (back id).trans ((restoreServers_unnamed unnamed).trans (kept deletes))

theorem serversBack_status_same :
    (∀ id, (serversBack core apply accepted collation).serverStatus.get? id = core.serverStatus.get? id ∧
        (serversBack core apply accepted collation).serverStatusSource.get? id = core.serverStatusSource.get? id) ↔
      ∀ id ∈ accepted.removeServerIds,
        (core.serverStatus.get? id).isSome = true ∨ (core.serverStatusSource.get? id).isSome = true →
          (core.serverStatus.get? id).isSome = true ∧ (core.servers.get? id).isSome = true ∧
            id ∉ accepted.upsertServers.map ServerConfig.id := by
  refine forall_congr' fun id => ?_
  have besides := foldersBack_besides core apply accepted
  obtain ⟨-, -, status, source, dropped⟩ := mutate_live core apply accepted [] id
  have status' : (foldersBack core apply accepted).serverStatus.get? id = _ :=
    (congrArg (fun core : NexusCore => core.serverStatus.get? id) besides :).trans status
  have source' : (foldersBack core apply accepted).serverStatusSource.get? id = _ :=
    (congrArg (fun core : NexusCore => core.serverStatusSource.get? id) besides :).trans source
  have after := restoreAll_status (mutate core apply accepted)
    (survivingFolderPaths (foldersBack core apply accepted))
    (deletedServers_distinct core apply accepted collation)
    (fun entry mem => deletedServers_absent core apply accepted collation mem) id
  have listed : id ∈ (deletedServers core apply accepted collation).map Prod.fst ↔
      Deletes accepted id ∧ (core.servers.get? id).isSome = true := by
    rw [List.mem_map, Option.isSome_iff_exists]
    constructor
    · rintro ⟨⟨other, server⟩, mem, rfl⟩
      obtain ⟨deletes, hit⟩ := (mem_deletedServers core apply accepted collation).mp mem
      exact ⟨deletes, server, hit⟩
    · rintro ⟨deletes, server, hit⟩
      exact ⟨(id, server), (mem_deletedServers core apply accepted collation).mpr ⟨deletes, hit⟩, rfl⟩
  unfold statusAfter at after
  rw [status', source', dropped] at after
  have final : ((serversBack core apply accepted collation).serverStatus.get? id,
      (serversBack core apply accepted collation).serverStatusSource.get? id) = _ := after
  rw [Prod.mk.injEq] at final
  rw [final.1, final.2]
  by_cases removed : id ∈ accepted.removeServerIds
  · simp only [removed]
    by_cases restored : Deletes accepted id ∧ (core.servers.get? id).isSome = true
    · rw [if_pos (listed.mpr restored)]
      have present := restored.2
      have kept := restored.1.2
      cases core.serverStatus.get? id with
      | none => cases core.serverStatusSource.get? id <;> simp
      | some state => cases core.serverStatusSource.get? id <;> simp [present, kept]
    · rw [if_neg fun mem => restored (listed.mp mem)]
      have lost : ¬ ((core.servers.get? id).isSome = true ∧
          id ∉ accepted.upsertServers.map ServerConfig.id) :=
        fun both => restored ⟨⟨removed, both.2⟩, both.1⟩
      cases core.serverStatus.get? id with
      | none => cases core.serverStatusSource.get? id <;> simp
      | some state => cases core.serverStatusSource.get? id <;> simpa using lost
  · simp [removed]

end

variable {items : List (Text × ActiveSession)}

theorem foldl_set_of_unnamed {id : Text}
    (unnamed : ∀ entry ∈ items, entry.1 ≠ id) (sessions : SeqMap Text ActiveSession) :
    (items.foldl (fun sessions entry => sessions.set entry.1 entry.2) sessions).get? id = sessions.get? id := by
  induction items generalizing sessions with
  | nil => rfl
  | cons entry rest ih =>
    rw [List.foldl_cons, ih fun other later => unnamed other (List.mem_cons_of_mem entry later),
      SeqMap.get?_set, if_neg (unnamed entry List.mem_cons_self)]

theorem foldl_set_of_agree {id : Text} {session : ActiveSession}
    (agree : ∀ entry ∈ items, entry.1 = id → entry.2 = session) (sessions : SeqMap Text ActiveSession)
    (known : sessions.get? id = some session ∨ ∃ entry ∈ items, entry.1 = id) :
    (items.foldl (fun sessions entry => sessions.set entry.1 entry.2) sessions).get? id = some session := by
  induction items generalizing sessions with
  | nil => simpa using known
  | cons entry rest ih =>
    refine ih (fun other later => agree other (List.mem_cons_of_mem entry later)) _ ?_
    rw [SeqMap.get?_set]
    by_cases same : entry.1 = id
    · rw [if_pos same, agree entry List.mem_cons_self same]
      exact .inl rfl
    · rw [if_neg same]
      refine known.imp_right ?_
      rintro ⟨other, mem, named⟩
      rcases List.mem_cons.mp mem with rfl | later
      · exact absurd named same
      · exact ⟨other, later, named⟩

theorem mem_sessionsToClose {sid : Text} {session : ActiveSession} :
    (sid, session) ∈ sessionsToClose core accepted ↔
      core.activeSessions.get? sid = some session ∧ session.serverId ∈ accepted.removeServerIds := by
  simp only [sessionsToClose, List.mem_flatMap, List.mem_filter, SeqMap.mem_entries, beq_iff_eq]
  constructor
  · rintro ⟨-, removed, hit, rfl⟩
    exact ⟨hit, removed⟩
  · rintro ⟨hit, removed⟩
    exact ⟨session.serverId, removed, hit, rfl⟩

theorem serversBack_live (collation : Collation) :
    (serversBack core apply accepted collation).activeSessions =
        (mutate core apply accepted).core.activeSessions ∧
      (serversBack core apply accepted collation).activitySessionIds =
        (mutate core apply accepted).core.activitySessionIds ∧
      (serversBack core apply accepted collation).focusedSessionId =
        (mutate core apply accepted).core.focusedSessionId ∧
      (serversBack core apply accepted collation).inventorySources =
        (mutate core apply accepted).core.inventorySources ∧
      (serversBack core apply accepted collation).inventorySyncTombstonedSessionIds = .empty := by
  have last := (mutate core apply accepted).restoreRemovedServers_besidesStatus collation
    (foldersBack core apply accepted)
  have besides := foldersBack_besides core apply accepted
  exact ⟨(congrArg NexusCore.activeSessions last :).trans (congrArg NexusCore.activeSessions besides :),
    (congrArg NexusCore.activitySessionIds last :).trans (congrArg NexusCore.activitySessionIds besides :),
    (congrArg NexusCore.focusedSessionId last :).trans (congrArg NexusCore.focusedSessionId besides :),
    (congrArg NexusCore.inventorySources last :).trans (congrArg NexusCore.inventorySources besides :),
    (congrArg NexusCore.inventorySyncTombstonedSessionIds last :).trans
      (congrArg NexusCore.inventorySyncTombstonedSessionIds besides :)⟩

theorem restoreSessions_same (collation : Collation) :
    (∀ id, ((mutate core apply accepted).restoreSessions
        (serversBack core apply accepted collation)).activeSessions.get? id = core.activeSessions.get? id) ∧
      (∀ id, id ∈ ((mutate core apply accepted).restoreSessions
        (serversBack core apply accepted collation)).activitySessionIds ↔ id ∈ core.activitySessionIds) ∧
      ((mutate core apply accepted).restoreSessions
        (serversBack core apply accepted collation)).focusedSessionId = core.focusedSessionId := by
  obtain ⟨sessions, activity, focus, -, tombstones⟩ := serversBack_live core apply accepted collation
  obtain ⟨priorFocus, priorSessions, priorActivity⟩ := mutate_recorded core apply accepted
  have all : ∀ id, (!decide (id ∈ (serversBack core apply accepted
      collation).inventorySyncTombstonedSessionIds)) = true := by
    rw [tombstones]
    simp
  unfold restoreSessions
  simp only [sessions, activity, focus, priorFocus, priorSessions, priorActivity, all,
    List.filter_true, mutate_focus]
  refine ⟨fun id => ?_, fun id => ?_, ?_⟩
  · obtain ⟨left, -⟩ := mutate_live core apply accepted id []
    cases hit : core.activeSessions.get? id with
    | none =>
      rw [foldl_set_of_unnamed, left, hit]
      · rfl
      · rintro ⟨other, session⟩ mem rfl
        have held := ((mem_sessionsToClose core accepted).mp mem).1
        rw [hit] at held
        cases held
    | some session =>
      refine foldl_set_of_agree ?_ _ ?_
      · rintro ⟨other, closed⟩ mem rfl
        have held := ((mem_sessionsToClose core accepted).mp mem).1
        rw [hit] at held
        exact (Option.some.inj held).symm
      · by_cases removed : session.serverId ∈ accepted.removeServerIds
        · exact .inr ⟨(id, session), (mem_sessionsToClose core accepted).mpr ⟨hit, removed⟩, rfl⟩
        · rw [left, hit]
          exact .inl (by simp [removed])
  · obtain ⟨-, left, -⟩ := mutate_live core apply accepted id []
    simp only [SeqSet.mem_addAll, left, List.mem_filter, List.mem_map, Prod.exists,
      mem_sessionsToClose, decide_eq_true_eq]
    constructor
    · rintro (⟨marked, -⟩ | ⟨-, marked⟩)
      · exact marked
      · exact marked
    · intro marked
      cases hit : core.activeSessions.get? id with
      | none => exact .inl ⟨marked, fun session held => by cases held⟩
      | some session =>
        by_cases removed : session.serverId ∈ accepted.removeServerIds
        · exact .inr ⟨⟨id, session, ⟨hit, removed⟩, rfl⟩, marked⟩
        · refine .inl ⟨marked, fun other held => ?_⟩
          cases held
          exact removed
  · cases core.focusedSessionId <;> simp

theorem restoreSource_same {after : NexusCore}
    (sources : after.inventorySources = (mutate core apply accepted).core.inventorySources) (id : Text) :
    ((mutate core apply accepted).restoreSource after apply.sourceId).inventorySources.get? id =
      core.inventorySources.get? id := by
  unfold restoreSource
  rcases mutate_source core apply accepted with ⟨same, absent⟩ | ⟨source, written, old, new, hit, set⟩
  · rw [absent]
    rw [sources, same]
  · rw [old, new]
    dsimp only
    have current : after.inventorySources.get? apply.sourceId = some written := by
      rw [sources, set, SeqMap.get?_set, if_pos rfl]
    rw [if_pos current]
    rw [SeqMap.get?_set, sources, set, SeqMap.get?_set]
    split
    · rename_i same
      rw [← same, hit]
    · rfl

theorem restoreSource_besides (after : NexusCore) (sourceId : Text) :
    { (mutate core apply accepted).restoreSource after sourceId with inventorySources := .empty } =
      { after with inventorySources := .empty } := by
  unfold restoreSource
  split
  · split <;> rfl
  · rfl

/-- The core after the whole rollback. -/
theorem rollback_sameState (collation : Collation) :
    SameState core
        ((mutate core apply accepted).rollback collation apply.sourceId
          (failedCore core apply accepted)).closeWindow ↔
      Restorable core apply accepted := by
  have besides := restoreSource_besides core apply accepted ((mutate core apply accepted).restoreSessions
    (serversBack core apply accepted collation)) apply.sourceId
  have groups : ∀ path, path ∈ (serversBack core apply accepted collation).explicitGroups ↔
      path ∈ (foldersBack core apply accepted).explicitGroups := fun path => by
    have last := (mutate core apply accepted).restoreRemovedServers_besidesStatus collation
      (foldersBack core apply accepted)
    exact Iff.of_eq (congrArg (fun core : NexusCore => path ∈ core.explicitGroups) last :)
  obtain ⟨sessions, activity, focus⟩ := restoreSessions_same core apply accepted collation
  have folders := foldersBack_groups_same core apply accepted
  constructor
  · rintro ⟨servers, explicitGroups, -, -, -, -, status, source⟩
    have same : ∀ path, path ∈ (foldersBack core apply accepted).explicitGroups ↔
        path ∈ core.explicitGroups := fun path =>
      (groups path).symm.trans ((Iff.of_eq (congrArg (fun core : NexusCore => path ∈ core.explicitGroups)
        besides.symm :)).trans (explicitGroups path))
    refine ⟨folders.mp same, (serversBack_servers_same core apply accepted collation same).mp fun id => ?_,
      (serversBack_status_same core apply accepted collation).mp fun id => ⟨?_, ?_⟩⟩
    · exact (congrArg (fun core : NexusCore => core.servers.get? id) besides.symm :).trans (servers id)
    · exact (congrArg (fun core : NexusCore => core.serverStatus.get? id) besides.symm :).trans (status id)
    · exact (congrArg (fun core : NexusCore => core.serverStatusSource.get? id) besides.symm :).trans
        (source id)
  · rintro ⟨parents, remaining, owned⟩
    have same := folders.mpr parents
    have servers := (serversBack_servers_same core apply accepted collation same).mpr remaining
    have status := (serversBack_status_same core apply accepted collation).mpr owned
    refine ⟨fun id => ?_, fun path => ?_, fun id => ?_, fun id => ?_, fun id => ?_, ?_, fun id => ?_,
      fun id => ?_⟩
    · exact (congrArg (fun core : NexusCore => core.servers.get? id) besides :).trans (servers id)
    · exact (Iff.of_eq (congrArg (fun core : NexusCore => path ∈ core.explicitGroups) besides :)).trans
        ((groups path).trans (same path))
    · have sources : ((mutate core apply accepted).restoreSessions
          (serversBack core apply accepted collation)).inventorySources =
            (mutate core apply accepted).core.inventorySources :=
        (serversBack_live core apply accepted collation).2.2.2.1
      exact restoreSource_same core apply accepted sources id
    · exact (congrArg (fun core : NexusCore => core.activeSessions.get? id) besides :).trans (sessions id)
    · exact (Iff.of_eq (congrArg (fun core : NexusCore => id ∈ core.activitySessionIds) besides :)).trans
        (activity id)
    · exact (congrArg (fun core : NexusCore => core.focusedSessionId) besides :).trans focus
    · exact (congrArg (fun core : NexusCore => core.serverStatus.get? id) besides :).trans (status id).1
    · exact (congrArg (fun core : NexusCore => core.serverStatusSource.get? id) besides :).trans (status id).2

end Rejected

end Batch

/-- A failed application has no effect exactly when every folder and server it
removed can return to its parent. -/
theorem failsWithoutEffect_iff (collation : Collation) (core : NexusCore) (apply : InventorySyncApplication) :
    FailsWithoutEffect collation core apply ↔
      ∀ accepted, checkApplication core apply = .ok accepted → Restorable core apply accepted := by
  unfold FailsWithoutEffect applyInventorySyncPlan
  cases checked : checkApplication core apply with
  | error error =>
    refine iff_of_true rfl fun accepted same => ?_
    cases same
  | ok accepted =>
    refine (Batch.rollback_sameState core apply accepted collation).trans ?_
    constructor
    · intro restorable other same
      cases same
      exact restorable
    · exact fun all => all accepted rfl

def Collation.codePoints : Collation where
  le a b := decide (a ≤ b)
  trans a b c first second := decide_eq_true (le_trans (of_decide_eq_true first) (of_decide_eq_true second))
  total a b := by simpa using le_total a b

def netBox : InventorySourceConfig where
  id := "netbox".toList
  providerId := "netbox".toList
  name := "NetBox".toList
  targetFolder := "NetBox".toList
  prunePolicy := .delete
  defaultUsername := "admin".toList

def rackServer : ServerConfig where
  id := "server".toList
  name := "rack".toList
  group := some "Lab/RackA".toList
  host := "192.0.2.1".toList
  port := 22
  username := some "admin".toList
  authType := .password
  origin := some { sourceId := "netbox".toList, externalId := "1".toList, syncedAt := 0 }

def rackCore : NexusCore where
  servers := SeqMap.empty.set rackServer.id rackServer
  inventorySources := SeqMap.empty.set netBox.id netBox

def rackPrune : InventorySyncApplication where
  sourceId := netBox.id
  syncedAt := 1
  upsertServers := []
  removeServerIds := [rackServer.id]
  folders := []
  expectedSource := .config netBox

/-- The deleted server comes back at the root. -/
theorem failed_apply_has_effect : ¬ FailsWithoutEffect .codePoints rackCore rackPrune := by
  intro same
  have servers : ((applyInventorySyncPlan .codePoints rackCore rackPrune [] true).2.servers.get?
      rackServer.id) = rackCore.servers.get? rackServer.id := same.servers rackServer.id
  revert servers
  decide +kernel

end NexTerminal.Inventory
