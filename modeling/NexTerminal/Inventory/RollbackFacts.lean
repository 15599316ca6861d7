import Mathlib.Data.List.Induction
import NexTerminal.Inventory.FolderGc

namespace NexTerminal.Inventory

open Library

variable {group : Option Text}

theorem mem_folderChain {path : Text} :
    path ∈ folderChain group ↔ ∃ own, group = some own ∧ own ≠ [] ∧ path ∈ getAncestorPaths own := by
  unfold folderChain
  split
  · rename_i own
    cases own with
    | nil | cons c rest => simp
  · simp

theorem folderChain_closed {path ancestor : Text} (mem : path ∈ folderChain group)
    (above : ancestor ∈ getAncestorPaths path) : ancestor ∈ folderChain group := by
  obtain ⟨own, shape, ne, inside⟩ := mem_folderChain.mp mem
  exact mem_folderChain.mpr ⟨own, shape, ne, getAncestorPaths_trans above inside⟩

theorem mem_survivingFolderPaths {core : NexusCore} {path : Text} :
    path ∈ survivingFolderPaths core ↔
      (∃ folder ∈ core.explicitGroups, path ∈ folderChain (some folder)) ∨
        (∃ id server, core.servers.get? id = some server ∧ path ∈ folderChain server.group) ∨
        (∃ profile ∈ core.serialProfiles.values, path ∈ folderChain profile.group) ∨
        ∃ profile ∈ core.localShellProfiles.values, path ∈ folderChain profile.group := by
  simp only [survivingFolderPaths, SeqSet.mem_ofList, List.mem_append, List.mem_flatMap, or_assoc]
  refine or_congr Iff.rfl (or_congr ?_ Iff.rfl)
  constructor
  · rintro ⟨server, held, inside⟩
    obtain ⟨id, hit⟩ := SeqMap.mem_values.mp held
    exact ⟨id, server, hit, inside⟩
  · rintro ⟨id, server, hit, inside⟩
    exact ⟨server, SeqMap.mem_values.mpr ⟨id, hit⟩, inside⟩

/-- A set of folders that holds the ancestors of its members. -/
def AncestorClosed (folders : SeqSet Text) : Prop :=
  ∀ path ∈ folders, ∀ ancestor ∈ getAncestorPaths path, ancestor ∈ folders

theorem survivingFolderPaths_closed (core : NexusCore) : AncestorClosed (survivingFolderPaths core) := by
  intro path mem ancestor above
  rw [mem_survivingFolderPaths] at mem ⊢
  rcases mem with ⟨folder, held, inside⟩ | ⟨id, server, hit, inside⟩ | ⟨profile, held, inside⟩ |
    ⟨profile, held, inside⟩
  · exact .inl ⟨folder, held, folderChain_closed inside above⟩
  · exact .inr (.inl ⟨id, server, hit, folderChain_closed inside above⟩)
  · exact .inr (.inr (.inl ⟨profile, held, folderChain_closed inside above⟩))
  · exact .inr (.inr (.inr ⟨profile, held, folderChain_closed inside above⟩))

theorem remappedGroup_cases (surviving : SeqSet Text) {group parent : Text}
    (hit : parentPath group = some parent) :
    remappedGroup surviving group = none ∨
      ∃ ancestor, remappedGroup surviving group = some ancestor ∧ ancestor ∈ surviving ∧
        ancestor ∈ getAncestorPaths parent := by
  unfold remappedGroup
  rw [getAncestorPaths_dropLast hit]
  cases shape : (getAncestorPaths parent).reverse.find? fun ancestor => ancestor ∈ surviving with
  | none => exact .inl rfl
  | some ancestor =>
    refine .inr ⟨ancestor, rfl, by simpa using List.find?_some shape, ?_⟩
    exact List.mem_reverse.mp (List.mem_of_find?_eq_some shape)

variable {surviving : SeqSet Text}

theorem remappedGroup_ne {group parent : Text} (hit : parentPath group = some parent) :
    remappedGroup surviving group ≠ some group := by
  rcases remappedGroup_cases surviving hit with gone | ⟨ancestor, shape, -, above⟩
  · rw [gone]
    exact nofun
  · rw [shape]
    rintro same
    cases same
    have shallow := depth_le_of_ancestor above
    have deep := depth_parentPath hit
    omega

theorem restoredGroup_eq_self : restoredGroup surviving group = group ↔
      ∀ own parent, group = some own → parentPath own = some parent → parent ∈ surviving := by
  unfold restoredGroup
  split
  · simp
  · rename_i own
    split
    · rename_i top
      simp only [Option.some.injEq, true_iff]
      rintro _ parent rfl hit
      rw [top] at hit
      cases hit
    · rename_i parent hit
      split
      · rename_i mem
        simp only [Option.some.injEq, true_iff]
        rintro _ _ rfl same
        rw [hit] at same
        cases same
        exact mem
      · rename_i gone
        simp only [remappedGroup_ne hit, false_iff]
        exact fun all => gone (all own parent rfl hit)

theorem folderChain_restoredGroup (closed : AncestorClosed surviving) {path : Text}
    (mem : path ∈ folderChain (restoredGroup surviving group)) :
    path ∈ surviving ∨ path ≠ [] ∧ group = some path ∧ restoredGroup surviving group = group := by
  obtain ⟨own, shape, ne, inside⟩ := mem_folderChain.mp mem
  unfold restoredGroup at shape ⊢
  split at shape
  · cases shape
  · split at shape
    · rename_i top
      cases shape
      have single : path = own := by
        refine eq_of_ancestor_of_depth inside ?_
        rw [parentPath_eq_none.mp top]
        exact depth_pos path
      subst single
      exact .inr ⟨ne, rfl, by simp⟩
    · rename_i parent hit
      split at shape
      · rename_i held
        cases shape
        rcases (mem_getAncestorPaths_parent hit).mp inside with above | rfl
        · exact .inl (closed parent held path above)
        · exact .inr ⟨ne, rfl, by simp [held]⟩
      · rcases remappedGroup_cases surviving hit with gone | ⟨ancestor, remapped, held, -⟩
        · rw [gone] at shape
          cases shape
        · rw [remapped] at shape
          cases shape
          exact .inl (closed own held path inside)

namespace Batch

variable {batch : Batch}

def serverAfterRollback (batch : Batch) (id : Text) (prior current : Option ServerConfig) : Option ServerConfig :=
  match (batch.batchWrittenServers.get? id).join, current with
  | some batchSnapshot, some current =>
    if serverConfigsEqual current batchSnapshot then prior
    else some (match prior with
      | none => current
      | some priorServer => mergeServerConfigFields priorServer batchSnapshot current)
  | _, _ => current

theorem rollbackServer_get? (core : NexusCore) (id : Text) (prior : Option ServerConfig) (other : Text) :
    (batch.rollbackServer core id prior).servers.get? other =
      if id = other then batch.serverAfterRollback id prior (core.servers.get? id)
      else core.servers.get? other := by
  have kept : core.servers.get? other =
      if id = other then core.servers.get? id else core.servers.get? other := by
    split
    · rename_i same
      rw [same]
    · rfl
  unfold rollbackServer serverAfterRollback
  cases written : (batch.batchWrittenServers.get? id).join with
  | none => exact kept
  | some batchSnapshot =>
    cases hit : core.servers.get? id with
    | none =>
      rw [hit] at kept
      exact kept
    | some current =>
      dsimp only
      split
      · cases prior with
        | none => exact SeqMap.get?_erase _ _ other
        | some priorServer => exact SeqMap.get?_set _ _ _ other
      · cases prior with
        | none =>
          rw [hit] at kept
          exact kept
        | some priorServer => exact SeqMap.get?_set _ _ _ other

theorem rollbackServer_rest (core : NexusCore) (id : Text) (prior : Option ServerConfig) :
    { batch.rollbackServer core id prior with servers := .empty } = { core with servers := .empty } := by
  unfold rollbackServer
  split
  · rfl
  · rfl
  · split
    · split <;> rfl
    · split <;> rfl

theorem rollbackServers_unnamed {entries : List (Text × Option ServerConfig)} {id : Text}
    (unnamed : id ∉ entries.map Prod.fst) (core : NexusCore) :
    (entries.foldl (fun core entry => batch.rollbackServer core entry.1 entry.2) core).servers.get? id =
      core.servers.get? id := by
  induction entries generalizing core with
  | nil => rfl
  | cons entry rest ih =>
    rw [List.map_cons, List.mem_cons, not_or] at unnamed
    rw [List.foldl_cons, ih unnamed.2, rollbackServer_get?, if_neg (Ne.symm unnamed.1)]

theorem rollbackServers_named {entries : List (Text × Option ServerConfig)}
    (nodup : (entries.map Prod.fst).Nodup) {id : Text} {prior : Option ServerConfig}
    (named : (id, prior) ∈ entries) (core : NexusCore) :
    (entries.foldl (fun core entry => batch.rollbackServer core entry.1 entry.2) core).servers.get? id =
      batch.serverAfterRollback id prior (core.servers.get? id) := by
  induction entries generalizing core with
  | nil => cases named
  | cons entry rest ih =>
    rw [List.map_cons, List.nodup_cons] at nodup
    rw [List.foldl_cons]
    rcases List.mem_cons.mp named with rfl | later
    · rw [rollbackServers_unnamed nodup.1, rollbackServer_get?, if_pos rfl]
    · have differ : entry.1 ≠ id := fun same => nodup.1 (same ▸ List.mem_map_of_mem later)
      rw [ih nodup.2 later, rollbackServer_get?, if_neg differ]

theorem rollbackServers_get? (core : NexusCore) (id : Text) :
    (batch.rollbackServers core).servers.get? id =
      match batch.priorServers.get? id with
      | none => core.servers.get? id
      | some prior => batch.serverAfterRollback id prior (core.servers.get? id) := by
  cases captured : batch.priorServers.get? id with
  | none =>
    refine rollbackServers_unnamed ?_ core
    rw [← SeqMap.keys, SeqMap.mem_keys, captured]
    exact Bool.false_ne_true
  | some prior =>
    exact rollbackServers_named batch.priorServers.distinct (SeqMap.mem_entries.mpr captured) core

theorem rollbackServers_rest (core : NexusCore) :
    { batch.rollbackServers core with servers := .empty } = { core with servers := .empty } :=
  foldl_same (fun core : NexusCore => { core with servers := .empty })
    (fun core entry => rollbackServer_rest core entry.1 entry.2) _ core

theorem mem_pendingRemovedServerRestores {id : Text} {prior : ServerConfig} :
    (id, prior) ∈ batch.pendingRemovedServerRestores ↔
      batch.priorServers.get? id = some (some prior) ∧ (batch.batchWrittenServers.get? id).join = none := by
  unfold pendingRemovedServerRestores
  simp only [List.mem_filterMap, Prod.exists, SeqMap.mem_entries]
  constructor
  · rintro ⟨key, old, held, shape⟩
    split at shape
    · rename_i absent
      obtain ⟨server, rfl, same⟩ := Option.map_eq_some_iff.mp shape
      cases same
      exact ⟨held, absent⟩
    · cases shape
  · rintro ⟨held, absent⟩
    exact ⟨id, some prior, held, by rw [absent]; rfl⟩

theorem pendingRemovedServerRestores_distinct (batch : Batch) :
    (batch.pendingRemovedServerRestores.map Prod.fst).Nodup := by
  have sublist : (batch.pendingRemovedServerRestores.map Prod.fst).Sublist
      (batch.priorServers.entries.map Prod.fst) := by
    unfold pendingRemovedServerRestores
    induction batch.priorServers.entries with
    | nil => exact List.Sublist.slnil
    | cons entry rest ih =>
      rw [List.filterMap_cons]
      split
      · exact ih.cons _
      · rename_i restored shape
        split at shape
        · obtain ⟨-, -, rfl⟩ := Option.map_eq_some_iff.mp shape
          exact ih.cons_cons _
        · cases shape
  exact batch.priorServers.distinct.sublist sublist

/-- The folders that stand once the collected ones are put back where their
parents stand. -/
inductive Stands (groups : Text → Prop) (collected : List Text) : Text → Prop
  | kept {folder : Text} : groups folder → Stands groups collected folder
  | top {folder : Text} : folder ∈ collected → parentPath folder = none → Stands groups collected folder
  | restored {folder parent : Text} : folder ∈ collected → parentPath folder = some parent →
      Stands groups collected parent → Stands groups collected folder

variable {groups : SeqSet Text} {path : Text}

theorem mem_restoreFolder {folder : Text} : path ∈ restoreFolder groups folder ↔
      path ∈ groups ∨ path = folder ∧ ∀ parent, parentPath folder = some parent → parent ∈ groups := by
  unfold restoreFolder
  split
  · rename_i held
    refine ⟨Or.inl, ?_⟩
    rintro (mem | ⟨rfl, -⟩)
    · exact mem
    · exact held
  · split
    · rename_i orphan
      refine ⟨Or.inl, ?_⟩
      rintro (mem | ⟨rfl, fits⟩)
      · exact mem
      · cases hit : parentPath path with
        | none => simp [hit] at orphan
        | some parent =>
          rw [hit] at orphan
          simp [fits parent hit] at orphan
    · rename_i fits
      rw [SeqSet.mem_add]
      refine or_congr Iff.rfl (and_iff_left ?_).symm
      intro parent hit
      simpa [hit] using fits

variable {folders : List Text}

theorem restoreFolders_kept (mem : path ∈ groups) : path ∈ folders.foldl restoreFolder groups := by
  induction folders generalizing groups with
  | nil => exact mem
  | cons folder rest ih => exact ih (mem_restoreFolder.mpr (.inl mem))

theorem restoreFolders_origin (mem : path ∈ folders.foldl restoreFolder groups) :
    path ∈ groups ∨ path ∈ folders := by
  induction folders generalizing groups with
  | nil => exact .inl mem
  | cons folder rest ih =>
    rcases ih mem with pre | later
    · rcases mem_restoreFolder.mp pre with held | ⟨rfl, -⟩
      · exact .inl held
      · exact .inr List.mem_cons_self
    · exact .inr (List.mem_cons_of_mem folder later)

theorem restoreFolders_stands {groups : Text → Prop} {collected : List Text}
    (named : ∀ folder ∈ folders, folder ∈ collected) {current : SeqSet Text}
    (stand : ∀ path ∈ current, Stands groups collected path) (mem : path ∈ folders.foldl restoreFolder current) :
    Stands groups collected path := by
  induction folders generalizing current with
  | nil => exact stand path mem
  | cons folder rest ih =>
    refine ih (fun other later => named other (List.mem_cons_of_mem folder later)) ?_ mem
    intro other held
    rcases mem_restoreFolder.mp held with pre | ⟨rfl, fits⟩
    · exact stand other pre
    · have listed := named other List.mem_cons_self
      cases hit : parentPath other with
      | none => exact .top listed hit
      | some parent => exact .restored listed hit (stand parent (fits parent hit))

theorem mem_shallowestFirst {folder : Text} :
    folder ∈ shallowestFirst folders ↔ folder ∈ folders := List.mem_mergeSort

theorem shallowestFirst_sorted (folders : List Text) :
    (shallowestFirst folders).Pairwise fun a b => depth a ≤ depth b := by
  have ordered := @List.pairwise_mergeSort Text (fun a b => decide (depth a ≤ depth b))
    (fun a b c first second => by simp only [decide_eq_true_eq] at *; omega)
    (fun a b => by simp only [Bool.or_eq_true, decide_eq_true_eq]; omega) folders
  exact ordered.imp fun fact => of_decide_eq_true fact

theorem mem_restoreFolders {collected : List Text} :
    path ∈ (shallowestFirst collected).foldl restoreFolder groups ↔ Stands (· ∈ groups) collected path := by
  constructor
  · exact restoreFolders_stands (fun folder mem => mem_shallowestFirst.mp mem) (fun _ held => .kept held)
  · intro stands
    induction stands with
    | kept held => exact restoreFolders_kept held
    | @top folder mem hit =>
      obtain ⟨pre, after, shape⟩ := List.append_of_mem (mem_shallowestFirst.mpr mem)
      rw [shape, List.foldl_append, List.foldl_cons]
      refine restoreFolders_kept (mem_restoreFolder.mpr (.inr ⟨rfl, fun parent above => ?_⟩))
      rw [hit] at above
      cases above
    | @restored folder parent mem hit stands ih =>
      obtain ⟨pre, after, shape⟩ := List.append_of_mem (mem_shallowestFirst.mpr mem)
      have sorted := shallowestFirst_sorted collected
      have shallower := depth_parentPath hit
      rw [shape] at ih sorted
      rw [shape, List.foldl_append, List.foldl_cons]
      rw [List.foldl_append, List.foldl_cons] at ih
      refine restoreFolders_kept (mem_restoreFolder.mpr (.inr ⟨rfl, fun above same => ?_⟩))
      rw [hit] at same
      cases same
      -- the parent is shallower than the folder and than everything after it
      rcases restoreFolders_origin ih with held | later
      · rcases mem_restoreFolder.mp held with early | ⟨rfl, -⟩
        · exact early
        · omega
      · have deep := (List.pairwise_cons.mp (List.pairwise_append.mp sorted).2.1).1 parent later
        omega

section Restoring

variable {core : NexusCore} {base : SeqSet Text}

/-- The deleted servers of a list put back one after the other. -/
def restoreAll (batch : Batch) (core : NexusCore) (base : SeqSet Text)
    (entries : List (Text × ServerConfig)) : NexusCore × SeqSet Text :=
  entries.foldl batch.restoreServer (core, base)

theorem restoreAll_append (batch : Batch) (core : NexusCore) (base : SeqSet Text)
    (first rest : List (Text × ServerConfig)) :
    batch.restoreAll core base (first ++ rest) =
      rest.foldl batch.restoreServer (batch.restoreAll core base first) := List.foldl_append

theorem restoreDroppedStatus_servers (core : NexusCore) (id : Text) :
    (batch.restoreDroppedStatus core id).servers = core.servers := by
  unfold restoreDroppedStatus
  split <;> rfl

variable {state : NexusCore × SeqSet Text} {entry : Text × ServerConfig}

theorem restoreServer_present (present : (state.1.servers.get? entry.1).isSome = true) :
    batch.restoreServer state entry = state := by
  exact if_pos present

theorem restoreServer_absent (absent : state.1.servers.get? entry.1 = none) : (batch.restoreServer state entry).2 =
        state.2.addAll (folderChain (restoredGroup state.2 entry.2.group)) ∧
      ∀ id, (batch.restoreServer state entry).1.servers.get? id =
        if entry.1 = id then some { entry.2 with group := restoredGroup state.2 entry.2.group }
        else state.1.servers.get? id := by
  have missing : ¬ state.1.servers.has entry.1 = true := by
    rw [SeqMap.has, absent]
    exact Bool.false_ne_true
  unfold restoreServer
  dsimp only
  rw [if_neg missing]
  refine ⟨rfl, fun id => ?_⟩
  rw [restoreDroppedStatus_servers]
  exact SeqMap.get?_set _ _ _ id

variable {server : ServerConfig}

theorem restoreServers_present (entries : List (Text × ServerConfig)) {id : Text}
    (hit : state.1.servers.get? id = some server) :
    (entries.foldl batch.restoreServer state).1.servers.get? id = some server := by
  induction entries generalizing state with
  | nil => exact hit
  | cons entry rest ih =>
    refine ih ?_
    cases present : state.1.servers.get? entry.1 with
    | some other =>
      rw [restoreServer_present (by rw [present]; rfl)]
      exact hit
    | none =>
      have differ : entry.1 ≠ id := by
        rintro same
        rw [same, hit] at present
        cases present
      rw [(restoreServer_absent present).2, if_neg differ]
      exact hit

variable {entries : List (Text × ServerConfig)}

theorem restoreServers_unnamed {id : Text} (unnamed : id ∉ entries.map Prod.fst) :
    (entries.foldl batch.restoreServer state).1.servers.get? id = state.1.servers.get? id := by
  induction entries generalizing state with
  | nil => rfl
  | cons entry rest ih =>
    rw [List.map_cons, List.mem_cons, not_or] at unnamed
    rw [List.foldl_cons, ih unnamed.2]
    cases present : state.1.servers.get? entry.1 with
    | some other => rw [restoreServer_present (by rw [present]; rfl)]
    | none => rw [(restoreServer_absent present).2, if_neg (Ne.symm unnamed.1)]

variable {done rest : List (Text × ServerConfig)}

theorem restoreAll_restored
    (nodup : ((done ++ entry :: rest).map Prod.fst).Nodup) (absent : core.servers.get? entry.1 = none) :
    (batch.restoreAll core base (done ++ entry :: rest)).1.servers.get? entry.1 =
      some { entry.2 with group := restoredGroup (batch.restoreAll core base done).2 entry.2.group } := by
  rw [restoreAll_append, List.foldl_cons]
  have unnamed : entry.1 ∉ done.map Prod.fst := by
    rw [List.map_append, List.map_cons] at nodup
    exact fun named => (List.nodup_append.mp nodup).2.2 entry.1 named entry.1 List.mem_cons_self rfl
  have missing : (batch.restoreAll core base done).1.servers.get? entry.1 = none :=
    (restoreServers_unnamed unnamed).trans absent
  refine restoreServers_present rest ?_
  rw [(restoreServer_absent missing).2, if_pos rfl]

/-- The folders that stand while the deleted servers come back. -/
structure Surviving (core : NexusCore) (base : SeqSet Text) (done : List (Text × ServerConfig))
    (surviving : SeqSet Text) : Prop where
  grown : ∀ path ∈ base, path ∈ surviving
  closed : AncestorClosed surviving
  origin : ∀ path ∈ surviving, path ∈ base ∨ path ≠ [] ∧
    ∃ entry ∈ done, core.servers.get? entry.1 = none ∧ entry.2.group = some path

theorem restoreAll_surviving (closed : AncestorClosed base) (nodup : (entries.map Prod.fst).Nodup) :
    Surviving core base entries (batch.restoreAll core base entries).2 := by
  induction entries using List.reverseRecOn with
  | nil => exact ⟨fun _ mem => mem, closed, fun _ mem => .inl mem⟩
  | append_singleton done entry ih =>
    rw [List.map_append, List.nodup_append] at nodup
    have pre := ih nodup.1
    rw [restoreAll_append, List.foldl_cons, List.foldl_nil]
    have unnamed : entry.1 ∉ done.map Prod.fst :=
      fun named => nodup.2.2 entry.1 named entry.1 (by simp) rfl
    have same : (batch.restoreAll core base done).1.servers.get? entry.1 = core.servers.get? entry.1 :=
      restoreServers_unnamed unnamed
    have kept : ∀ path, path ∈ (batch.restoreAll core base done).2 → path ∈ base ∨ path ≠ [] ∧
        ∃ other ∈ done ++ [entry], core.servers.get? other.1 = none ∧ other.2.group = some path := by
      intro path mem
      rcases pre.origin path mem with old | ⟨ne, other, earlier, missing, shape⟩
      · exact .inl old
      · exact .inr ⟨ne, other, List.mem_append_left _ earlier, missing, shape⟩
    cases present : core.servers.get? entry.1 with
    | some server =>
      rw [restoreServer_present (by rw [same, present]; rfl)]
      exact ⟨pre.grown, pre.closed, kept⟩
    | none =>
      rw [(restoreServer_absent (same.trans present)).1]
      refine ⟨fun path mem => SeqSet.mem_addAll.mpr (.inl (pre.grown path mem)), ?_, ?_⟩
      · intro path mem ancestor above
        rw [SeqSet.mem_addAll] at mem ⊢
        rcases mem with old | chain
        · exact .inl (pre.closed path old ancestor above)
        · exact .inr (folderChain_closed chain above)
      · intro path mem
        rcases SeqSet.mem_addAll.mp mem with old | chain
        · exact kept path old
        · rcases folderChain_restoredGroup pre.closed chain with old | ⟨ne, shape, -⟩
          · exact kept path old
          · exact .inr ⟨ne, entry, by simp, present, shape⟩

/-- The parent of the folder a deleted server was in stands, or another deleted
server was in it. -/
def ParentStands (core : NexusCore) (base : SeqSet Text) (entries : List (Text × ServerConfig))
    (parent : Text) : Prop :=
  parent ∈ base ∨ parent ≠ [] ∧ ∃ other ∈ entries, core.servers.get? other.1 = none ∧
    other.2.group = some parent

theorem groupDepth_of_parent {group parent : Text} (shape : server.group = some group)
    (hit : parentPath group = some parent) : groupDepth server = depth parent + 1 := by
  have ne : group.isEmpty = false := by
    cases group with
    | nil => cases hit
    | cons c rest => rfl
  unfold groupDepth
  rw [shape]
  dsimp only
  rw [ne, if_neg Bool.false_ne_true, depth_parentPath hit]

theorem groupDepth_of_nonempty {group : Text} (shape : server.group = some group) (ne : group ≠ []) :
    groupDepth server = depth group := by
  unfold groupDepth
  rw [shape]
  dsimp only
  rw [if_neg]
  simpa using ne

theorem earlier_of_shallower {other : Text × ServerConfig}
    (sorted : (done ++ entry :: rest).Pairwise fun a b => groupDepth a.2 ≤ groupDepth b.2)
    (mem : other ∈ done ++ entry :: rest) (shallower : groupDepth other.2 < groupDepth entry.2) :
    other ∈ done := by
  rcases List.mem_append.mp mem with first | later
  · exact first
  · rcases List.mem_cons.mp later with rfl | after
    · omega
    · have order := (List.pairwise_cons.mp (List.pairwise_append.mp sorted).2.1).1 other after
      omega

section Order

variable {entries : List (Text × ServerConfig)} (good : Text → Prop)

variable {entry : Text × ServerConfig}

variable (closed : AncestorClosed base) (nodup : (entries.map Prod.fst).Nodup)
include closed nodup

theorem surviving_before {done rest : List (Text × ServerConfig)} (shape : entries = done ++ rest) :
    Surviving core base done (batch.restoreAll core base done).2 := by
  rw [shape, List.map_append, List.nodup_append] at nodup
  exact restoreAll_surviving closed nodup.1

theorem parentStands_of_same (mem : entry ∈ entries) (absent : core.servers.get? entry.1 = none)
    (same : (batch.restoreAll core base entries).1.servers.get? entry.1 = some entry.2) {group parent : Text}
    (inside : entry.2.group = some group) (hit : parentPath group = some parent) :
    ParentStands core base entries parent := by
  obtain ⟨done, rest, shape⟩ := List.append_of_mem mem
  have pre := @surviving_before batch core _ _ closed nodup _ _ shape
  rw [shape, restoreAll_restored (shape ▸ nodup) absent, Option.some.injEq] at same
  have stays : restoredGroup (batch.restoreAll core base done).2 entry.2.group = entry.2.group :=
    congrArg ServerConfig.group same
  have standing := restoredGroup_eq_self.mp stays group parent inside hit
  rcases pre.origin parent standing with old | ⟨ne, other, listed, missing, above⟩
  · exact .inl old
  · exact .inr ⟨ne, other, by simp [shape, listed], missing, above⟩

variable (sorted : entries.Pairwise fun a b => groupDepth a.2 ≤ groupDepth b.2)
  (up : ∀ group parent, good group → parentPath group = some parent → good parent)
  (anchored : ∀ entry ∈ entries, core.servers.get? entry.1 = none → ∀ group parent,
    entry.2.group = some group → good group → parentPath group = some parent →
      ParentStands core base entries parent)
include sorted up anchored

theorem restoreAll_stands (done rest : List (Text × ServerConfig))
    (shape : entries = done ++ rest) (mem : entry ∈ done) (absent : core.servers.get? entry.1 = none)
    {group : Text} (inside : entry.2.group = some group) (fit : good group) (ne : group ≠ []) :
    group ∈ (batch.restoreAll core base done).2 := by
  induction done using List.reverseRecOn generalizing rest entry group with
  | nil => cases mem
  | append_singleton done last ih =>
    rw [List.append_assoc, List.singleton_append] at shape
    have pre := @surviving_before batch core _ _ closed nodup _ _ shape
    have earlier := nodup
    rw [shape, List.map_append, List.nodup_append] at earlier
    rw [restoreAll_append, List.foldl_cons, List.foldl_nil]
    have unnamed : last.1 ∉ done.map Prod.fst :=
      fun named => earlier.2.2 last.1 named last.1 List.mem_cons_self rfl
    have same : (batch.restoreAll core base done).1.servers.get? last.1 = core.servers.get? last.1 :=
      restoreServers_unnamed unnamed
    have kept : group ∈ (batch.restoreAll core base done).2 →
        group ∈ (batch.restoreServer (batch.restoreAll core base done) last).2 := by
      intro held
      cases present : core.servers.get? last.1 with
      | some server => rwa [restoreServer_present (by rw [same, present]; rfl)]
      | none =>
        rw [(restoreServer_absent (same.trans present)).1]
        exact SeqSet.mem_addAll.mpr (.inl held)
    rcases List.mem_append.mp mem with old | new
    · exact kept (ih (last :: rest) shape old absent inside fit ne)
    · cases List.mem_singleton.mp new
      have stays : restoredGroup (batch.restoreAll core base done).2 last.2.group = last.2.group := by
        refine restoredGroup_eq_self.mpr fun own parent held hit => ?_
        rw [inside] at held
        cases held
        rcases anchored last (by simp [shape]) absent group parent inside fit hit with
          standing | ⟨ne, other, listed, missing, above⟩
        · exact pre.grown parent standing
        · -- the other server is shallower, so it came first
          have deep := groupDepth_of_parent inside hit
          have shallow := groupDepth_of_nonempty above ne
          have first := earlier_of_shallower (shape ▸ sorted) (shape ▸ listed) (by omega)
          exact ih (last :: rest) shape first missing above (up group parent fit hit) ne
      rw [(restoreServer_absent (same.trans absent)).1, stays]
      refine SeqSet.mem_addAll.mpr (.inr (mem_folderChain.mpr ⟨group, inside, ne, ?_⟩))
      exact self_mem_getAncestorPaths group

theorem restoreAll_same (mem : entry ∈ entries) (absent : core.servers.get? entry.1 = none)
    (fit : ∀ group, entry.2.group = some group → good group) :
    (batch.restoreAll core base entries).1.servers.get? entry.1 = some entry.2 := by
  obtain ⟨done, rest, shape⟩ := List.append_of_mem mem
  have pre := @surviving_before batch core _ _ closed nodup _ _ shape
  have stays : restoredGroup (batch.restoreAll core base done).2 entry.2.group = entry.2.group := by
    refine restoredGroup_eq_self.mpr fun group parent inside hit => ?_
    have own := fit group inside
    rcases anchored entry mem absent group parent inside own hit with
      standing | ⟨ne, other, listed, missing, above⟩
    · exact pre.grown parent standing
    · have deep := groupDepth_of_parent inside hit
      have shallow := groupDepth_of_nonempty above ne
      have first := earlier_of_shallower (shape ▸ sorted) (shape ▸ listed) (by omega)
      exact restoreAll_stands good closed nodup sorted up anchored done (entry :: rest) shape first missing
        above (up group parent own hit) ne
  rw [shape, restoreAll_restored (shape ▸ nodup) absent, stays]

end Order

def besidesStatus (core : NexusCore) : NexusCore :=
  { core with servers := .empty, serverStatus := .empty, serverStatusSource := .empty }

theorem restoreDroppedStatus_besidesStatus (core : NexusCore) (id : Text) :
    besidesStatus (batch.restoreDroppedStatus core id) = besidesStatus core := by
  unfold restoreDroppedStatus
  split <;> rfl

theorem restoreServer_besidesStatus (state : NexusCore × SeqSet Text) (entry : Text × ServerConfig) :
    besidesStatus (batch.restoreServer state entry).1 = besidesStatus state.1 := by
  unfold restoreServer
  dsimp only
  split
  · rfl
  · exact restoreDroppedStatus_besidesStatus _ entry.1

theorem restoreRemovedServers_besidesStatus (collation : Collation) (core : NexusCore) :
    besidesStatus (batch.restoreRemovedServers collation core) = besidesStatus core :=
  foldl_same (fun state : NexusCore × SeqSet Text => besidesStatus state.1)
    restoreServer_besidesStatus _ _

/-- What the batch remembers of a server's status, laid over the current one. -/
def statusAfter (batch : Batch) (core : NexusCore) (id : Text) : Option ServerStatus × Option Text :=
  match batch.droppedServerStatus.get? id with
  | none => (core.serverStatus.get? id, core.serverStatusSource.get? id)
  | some (state, source) => (some state, source.or (core.serverStatusSource.get? id))

theorem restoreDroppedStatus_status (core : NexusCore) (id other : Text) :
    ((batch.restoreDroppedStatus core id).serverStatus.get? other,
        (batch.restoreDroppedStatus core id).serverStatusSource.get? other) =
      if id = other then batch.statusAfter core other
      else (core.serverStatus.get? other, core.serverStatusSource.get? other) := by
  unfold restoreDroppedStatus statusAfter
  split
  · rename_i nothing
    split
    · rename_i same
      rw [← same, nothing]
    · rfl
  · rename_i state source dropped
    rw [SeqMap.get?_set]
    split
    · rename_i same
      rw [← same, dropped]
      cases source with
      | none => rfl
      | some source => rw [SeqMap.get?_set, if_pos rfl]; rfl
    · rename_i differ
      cases source with
      | none => rfl
      | some source => rw [SeqMap.get?_set, if_neg differ]

theorem restoreServer_status (absent : state.1.servers.get? entry.1 = none) (id : Text) :
    ((batch.restoreServer state entry).1.serverStatus.get? id,
        (batch.restoreServer state entry).1.serverStatusSource.get? id) =
      if entry.1 = id then batch.statusAfter state.1 id
      else (state.1.serverStatus.get? id, state.1.serverStatusSource.get? id) := by
  have missing : ¬ state.1.servers.has entry.1 = true := by
    rw [SeqMap.has, absent]
    exact Bool.false_ne_true
  unfold restoreServer
  dsimp only
  rw [if_neg missing]
  exact restoreDroppedStatus_status _ entry.1 id

theorem restoreAll_status (batch : Batch) (base : SeqSet Text) (nodup : (entries.map Prod.fst).Nodup)
    (absent : ∀ entry ∈ entries, core.servers.get? entry.1 = none) (id : Text) :
    ((batch.restoreAll core base entries).1.serverStatus.get? id,
        (batch.restoreAll core base entries).1.serverStatusSource.get? id) =
      if id ∈ entries.map Prod.fst then batch.statusAfter core id
      else (core.serverStatus.get? id, core.serverStatusSource.get? id) := by
  induction entries using List.reverseRecOn with
  | nil => simp [restoreAll]
  | append_singleton done entry ih =>
    rw [List.map_append, List.nodup_append] at nodup
    have pre := ih nodup.1 fun other mem => absent other (List.mem_append_left _ mem)
    have unnamed : entry.1 ∉ done.map Prod.fst :=
      fun named => nodup.2.2 entry.1 named entry.1 (by simp) rfl
    have missing : (batch.restoreAll core base done).1.servers.get? entry.1 = none :=
      (restoreServers_unnamed unnamed).trans (absent entry (by simp))
    rw [restoreAll_append, List.foldl_cons, List.foldl_nil, restoreServer_status missing]
    by_cases same : entry.1 = id
    · subst same
      rw [if_neg unnamed, Prod.mk.injEq] at pre
      rw [if_pos rfl, if_pos (by simp)]
      unfold statusAfter
      rw [pre.1, pre.2]
    · have listed : id ∈ (done ++ [entry]).map Prod.fst ↔ id ∈ done.map Prod.fst := by
        simp [Ne.symm same]
      rw [if_neg same, pre]
      simp only [listed]

end Restoring

end Batch

theorem restoreOrder_perm (collation : Collation) (pending : List (Text × ServerConfig)) :
    (restoreOrder collation pending).Perm pending := List.mergeSort_perm _ _

/-- Servers are restored from the shallowest group down. -/
theorem restoreOrder_sorted (collation : Collation) (pending : List (Text × ServerConfig)) :
    (restoreOrder collation pending).Pairwise fun a b => groupDepth a.2 ≤ groupDepth b.2 := by
  have ordered := @List.pairwise_mergeSort (Text × ServerConfig)
    (fun a b => if groupDepth a.2 ≠ groupDepth b.2 then decide (groupDepth a.2 < groupDepth b.2)
      else collation.le a.1 b.1) ?_ ?_ pending
  · refine ordered.imp fun {a b} fact => ?_
    split at fact
    · have less := of_decide_eq_true fact
      omega
    · omega
  · intro a b c first second
    split at first
    · have less := of_decide_eq_true first
      split at second
      · have more := of_decide_eq_true second
        rw [if_pos (by omega)]
        exact decide_eq_true (by omega)
      · rw [if_pos (by omega)]
        exact decide_eq_true (by omega)
    · split at second
      · have more := of_decide_eq_true second
        rw [if_pos (by omega)]
        exact decide_eq_true (by omega)
      · rw [if_neg (by omega)]
        exact collation.trans a.1 b.1 c.1 first second
  · intro a b
    by_cases same : groupDepth a.2 = groupDepth b.2
    · simp [same, collation.total]
    · have other := Ne.symm same
      simp only [ne_eq, same, other, not_false_eq_true, if_true, Bool.or_eq_true, decide_eq_true_eq]
      omega

end NexTerminal.Inventory
