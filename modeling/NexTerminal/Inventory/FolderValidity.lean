import NexTerminal.Inventory.FolderTree

namespace NexTerminal.Inventory

open Library

namespace NexusCore

variable {core : NexusCore} {old target path : Text}

theorem renameFolderPath_moved (tidy : core.Tidy) (old target : Text) :
    Moved old target core (core.renameFolderPath old target) where
  folders := tree_renameFolderPath core old target
  records := recordsRegrouped_of tidy (fun _ normal => moveItem_regrouped normal) rfl rfl rfl rfl

theorem clearGatewayReferencesTo_nil (core : NexusCore) : core.clearGatewayReferencesTo [] = core := by
  have alone : ∀ server, linksTo [] server = false := by
    simp [linksTo]
  have same : core.servers.mapValues (fun server => if linksTo [] server then clearGatewayLink server else server) =
      core.servers := by
    refine SeqMap.ext_entries ?_
    simp only [alone]
    exact List.map_id' _
  rw [clearGatewayReferencesTo, same]

def shelves (core : NexusCore) :=
  (core.servers, core.serialProfiles, core.localShellProfiles, core.localServers, core.explicitGroups)

theorem removeFolderCascade_dissolved (tidy : core.Tidy) (path : Text) :
    Dissolved path core (core.removeFolderCascade path false) := by
  have members : ∀ folder, folder ∈ (core.removeFolderCascade path false).explicitGroups ↔
      (folder ∈ core.explicitGroups ∧ isDescendantOrSelf folder path = false) ∨
      ∃ inner, (inner ∈ core.explicitGroups ∧ isDescendantOrSelf inner path = true ∧ inner ≠ path) ∧
        liftItem path (some inner) = some folder := by
    simp [removeFolderCascade, clearGatewayReferencesTo_nil,
      SeqSet.mem_items]
  have raised : ∀ inner ∈ core.explicitGroups, isDescendantOrSelf inner path = true →
      ∃ rest, segments inner = segments path ++ rest ∧
        Hangs ((segments path).dropLast ++ rest) (liftItem path (some inner)) := by
    intro inner known below
    have normal : ∀ p ∈ some inner, Normal p := by
      intro p same
      obtain rfl := Option.some.inj same
      exact tidy.normal _ (mem_paths.mpr (.inl known))
    exact (liftItem_regrouped normal).1 inner rfl below
  refine ⟨?_, ?_⟩
  · ext -
    constructor
    · rintro ⟨folder, mem, rfl⟩
      rcases (members folder).mp mem with ⟨known, outside⟩ | ⟨inner, ⟨known, below, ne⟩, moved⟩
      · exact .inl ⟨segments_mem_tree.mpr known, not_below_iff.mp outside⟩
      · obtain ⟨rest, pre, hangs⟩ := raised inner known below
        rw [moved] at hangs
        refine .inr ⟨rest, ?_, pre ▸ segments_mem_tree.mpr known, hangs⟩
        rintro rfl
        rw [List.append_nil] at pre
        exact ne (segments_injective pre)
    · rintro (⟨⟨folder, known, rfl⟩, outside⟩ | ⟨rest, more, ⟨inner, known, shape⟩, rfl⟩)
      · exact ⟨folder, (members folder).mpr (.inl ⟨known, not_below_iff.mpr outside⟩), rfl⟩
      · have below : isDescendantOrSelf inner path = true :=
          isDescendantOrSelf_iff_segments.mpr (shape ▸ List.prefix_append _ _)
        have ne : inner ≠ path := by
          rintro rfl
          exact more (List.append_cancel_left ((List.append_nil _).trans shape)).symm
        obtain ⟨others, pre, hangs⟩ := raised inner known below
        have same : others = rest := List.append_cancel_left (pre.symm.trans shape)
        subst same
        cases lifted : liftItem path (some inner) with
        | none =>
          rw [lifted] at hangs
          exact absurd (List.append_eq_nil_iff.mp hangs).2 more
        | some folder =>
          rw [lifted] at hangs
          exact ⟨folder, (members folder).mpr (.inr ⟨inner, ⟨known, below, ne⟩, lifted⟩), hangs⟩
  · have plain : core.removeFolderCascade path false =
        { core with
          servers := core.servers.mapValues fun server => { server with group := liftItem path server.group }
          serialProfiles := core.serialProfiles.mapValues fun item => { item with group := liftItem path item.group }
          localShellProfiles :=
            core.localShellProfiles.mapValues fun item => { item with group := liftItem path item.group }
          localServers := core.localServers.mapValues fun item => { item with group := liftItem path item.group }
          explicitGroups := (core.removeFolderCascade path false).explicitGroups } := by
      simp [removeFolderCascade, clearGatewayReferencesTo_nil]
    rw [plain]
    exact recordsRegrouped_of tidy (fun _ normal => liftItem_regrouped normal) rfl rfl rfl rfl

theorem shelves_removeFolderCascade (core : NexusCore) (path : Text) :
    (core.removeFolderCascade path true).shelves =
      let deleted := (core.servers.entries.filter fun entry => inFolder path entry.2.group).map Prod.fst
      ((core.servers.filterValues fun server => !inFolder path server.group).mapValues fun server =>
          if linksTo deleted server then clearGatewayLink server else server,
        core.serialProfiles.filterValues fun item => !inFolder path item.group,
        core.localShellProfiles.filterValues fun item => !inFolder path item.group,
        core.localServers.filterValues fun item => !inFolder path item.group,
        core.explicitGroups.filter fun group => !isDescendantOrSelf group path) := by
  have servers : ∀ (core : NexusCore) (ids : List Text),
    (ids.foldl removeServerSessions core).shelves = core.shelves :=
    fun core ids => @foldl_same _ _ _ shelves removeServerSessions (fun _ _ => rfl) ids core
  have serials : ∀ (core : NexusCore) (ids : List Text),
    (ids.foldl removeSerialProfileSessions core).shelves = core.shelves :=
    fun core ids => @foldl_same _ _ _ shelves removeSerialProfileSessions (fun _ _ => rfl) ids core
  have shells : ∀ (core : NexusCore) (ids : List Text),
    (ids.foldl removeLocalShellProfileSessions core).shelves = core.shelves :=
    fun core ids => @foldl_same _ _ _ shelves removeLocalShellProfileSessions (fun _ _ => rfl) ids core
  have locals : ∀ (core : NexusCore) (ids : List Text),
    (ids.foldl removeLocalServerConfigSessions core).shelves = core.shelves :=
    fun core ids => @foldl_same _ _ _ shelves removeLocalServerConfigSessions (fun _ _ => rfl) ids core
  simp only [shelves, Prod.mk.injEq] at servers serials shells locals
  simp [removeFolderCascade, shelves, clearGatewayReferencesTo, SeqSet.addAll, servers, serials, shells, locals]

theorem mem_deleted {servers : SeqMap Text ServerConfig} {id : Text} :
    id ∈ (servers.entries.filter fun entry => inFolder path entry.2.group).map Prod.fst ↔
      ∃ server, servers.get? id = some server ∧ inFolder path server.group = true := by
  simp [SeqMap.mem_entries]

theorem removeFolderCascade_emptied (core : NexusCore) (path : Text) :
    Emptied path core (core.removeFolderCascade path true) := by
  have whole := shelves_removeFolderCascade core path
  simp only [shelves, Prod.mk.injEq] at whole
  obtain ⟨servers, serials, shells, configs, folders⟩ := whole
  have hit : ∀ id, (core.removeFolderCascade path true).servers.get? id =
      ((core.servers.get? id).filter fun server => !inFolder path server.group).map fun server =>
        if linksTo ((core.servers.entries.filter fun entry => inFolder path entry.2.group).map Prod.fst) server then
          clearGatewayLink server
        else server := by
    intro id
    rw [servers, SeqMap.get?_mapValues, SeqMap.get?_filterValues]
  have survives : ∀ id, (core.removeFolderCascade path true).servers.has id = true ↔
      ∃ server, core.servers.get? id = some server ∧ inFolder path server.group = false := by
    intro id
    simp only [SeqMap.has, hit, Option.isSome_map, Option.isSome_iff_exists, Option.filter_eq_some_iff,
      Bool.not_eq_true']
  have deleted : ∀ id, core.servers.has id = true → ((core.removeFolderCascade path true).servers.has id = false ↔
      id ∈ (core.servers.entries.filter fun entry => inFolder path entry.2.group).map Prod.fst) := by
    intro id known
    obtain ⟨server, held⟩ := Option.isSome_iff_exists.mp known
    rw [← Bool.not_eq_true, survives, mem_deleted]
    simp [held]
  refine ⟨?_, survives, ?_, ?_, ?_, ?_, ?_⟩
  · ext -
    constructor
    · rintro ⟨folder, mem, rfl⟩
      rw [folders, SeqSet.mem_filter, Bool.not_eq_true'] at mem
      exact ⟨segments_mem_tree.mpr mem.1, not_below_iff.mp mem.2⟩
    · rintro ⟨⟨folder, known, rfl⟩, outside⟩
      refine ⟨folder, ?_, rfl⟩
      rw [folders, SeqSet.mem_filter, Bool.not_eq_true']
      exact ⟨known, not_below_iff.mpr outside⟩
  · intro id pre server held after
    rw [hit, held] at after
    obtain ⟨kept, unmoved, rfl⟩ := Option.map_eq_some_iff.mp after
    obtain ⟨same, -⟩ := Option.filter_eq_some_iff.mp unmoved
    obtain rfl := Option.some.inj same
    split
    · rename_i linked
      obtain ⟨gateway, named, gone⟩ := (Option.any_eq_true _ _).mp linked
      have listed := List.contains_iff_mem.mp gone
      obtain ⟨lost, known, -⟩ := mem_deleted.mp listed
      have pre : core.servers.has gateway = true := by rw [SeqMap.has, known]; rfl
      exact .inr ⟨gateway, named, pre, (deleted gateway pre).mpr listed, rfl⟩
    · exact .inl rfl
  · intro server mem gateway named known
    obtain ⟨id, held⟩ := SeqMap.mem_values.mp mem
    rw [hit] at held
    obtain ⟨pre, -, rfl⟩ := Option.map_eq_some_iff.mp held
    by_contra lost
    have listed := (deleted gateway known).mp (Bool.not_eq_true _ ▸ lost)
    split at named
    · cases named
    · rename_i unlinked
      exact unlinked ((Option.any_eq_true _ _).mpr ⟨gateway, named, List.contains_iff_mem.mpr listed⟩)
  · intro id
    rw [serials, SeqMap.get?_filterValues]
  · intro id
    rw [shells, SeqMap.get?_filterValues]
  · intro id
    rw [configs, SeqMap.get?_filterValues]

theorem values_filtered {items kept : SeqMap Text FolderItem} {keep : FolderItem → Bool}
    (only : ∀ id, kept.get? id = (items.get? id).filter keep) {item : FolderItem} (mem : item ∈ kept.values) :
    item ∈ items.values := by
  obtain ⟨id, held⟩ := SeqMap.mem_values.mp mem
  rw [only] at held
  exact SeqMap.mem_values.mpr ⟨id, (Option.filter_eq_some_iff.mp held).1⟩

theorem Emptied.tidy {after : NexusCore} (emptied : Emptied old core after) (tidy : core.Tidy) : after.Tidy := by
  have records : ∀ group ∈ after.recordGroups, group ∈ core.recordGroups := by
    intro group mem
    rcases mem_recordGroups.mp mem with ⟨w, listed, rfl⟩ | ⟨w, listed, rfl⟩ | ⟨w, listed, rfl⟩ |
      ⟨w, listed, rfl⟩
    · obtain ⟨id, held⟩ := SeqMap.mem_values.mp listed
      obtain ⟨pre, known, -⟩ := (emptied.servers id).mp (by rw [SeqMap.has, held]; rfl)
      refine mem_recordGroups.mpr (.inl ⟨pre, SeqMap.mem_values.mpr ⟨id, known⟩, ?_⟩)
      rcases emptied.others id pre w known held with rfl | ⟨_, _, _, _, rfl⟩
      · rfl
      · rfl
    · exact mem_recordGroups.mpr (.inr (.inl ⟨w, values_filtered emptied.serialProfiles listed, rfl⟩))
    · exact mem_recordGroups.mpr (.inr (.inr (.inl ⟨w, values_filtered emptied.localShellProfiles listed, rfl⟩)))
    · exact mem_recordGroups.mpr (.inr (.inr (.inr ⟨w, values_filtered emptied.localServers listed, rfl⟩)))
  refine ⟨fun path mem => ?_, closed_iff.mpr ?_⟩
  · rcases mem_paths.mp mem with folder | record
    · have listed := segments_mem_tree.mpr folder
      rw [emptied.folders] at listed
      exact tidy.normal path (mem_paths.mpr (.inl (segments_mem_tree.mp listed.1)))
    · exact tidy.normal path (mem_paths.mpr (.inr (records _ record)))
  · rw [emptied.folders]
    exact (closed_iff.mp tidy.closed).outside (segments old)

end NexusCore

namespace FolderCall

variable {call : FolderCall} {old target : Text}

theorem normal_of_aimed {path : Text} (goes : aimed old path = some (old, target)) : Normal target := by
  obtain ⟨res, normalized, same⟩ := Option.map_eq_some_iff.mp goes
  obtain rfl := (Prod.mk.inj same).2
  exact normal_of_normalize normalized

theorem aimed_old {path from' : Text} (goes : aimed from' path = some (old, target)) : from' = old := by
  obtain ⟨res, -, same⟩ := Option.map_eq_some_iff.mp goes
  exact (Prod.mk.inj same).1

theorem normal_of_destination (goes : call.destination = some (old, target)) : Normal target := by
  have aims : ∃ path, aimed old path = some (old, target) := by
    cases call with
    | moveFolder oldPath newParentPath =>
      simp only [destination] at goes
      split at goes
      · obtain rfl := aimed_old goes
        exact ⟨_, goes⟩
      · split at goes
        · cases goes
        · obtain rfl := aimed_old goes
          exact ⟨_, goes⟩
    | renameFolder oldPath newName =>
      simp only [destination] at goes
      split at goes
      · obtain rfl := aimed_old goes
        exact ⟨_, goes⟩
      · obtain rfl := aimed_old goes
        exact ⟨_, goes⟩
    | removeFolderCascade => cases goes
  obtain ⟨path, aims⟩ := aims
  exact normal_of_aimed aims

/-- What a call does that is no removal: it rewrites the paths, or nothing. -/
def movesTo (core : NexusCore) : Option (Text × Text) → NexusCore
  | none => core
  | some (old, target) => core.renameFolderPath old target

theorem movesTo_aimed (core : NexusCore) (oldPath newPath : Text) :
    movesTo core (aimed oldPath newPath) = match normalizeFolderPath newPath with
      | none => core
      | some normalized => core.renameFolderPath oldPath normalized := by
  unfold aimed
  cases normalizeFolderPath newPath with
  | none | some normalized => rfl

theorem run_moveFolder (core : NexusCore) (oldPath : Text) (newParentPath : Option Text) :
    core.moveFolder oldPath newParentPath = movesTo core (moveFolder oldPath newParentPath).destination := by
  simp only [NexusCore.moveFolder, destination]
  cases newParentPath.filter fun parent => !parent.isEmpty with
  | none => exact (movesTo_aimed core oldPath _).symm
  | some parent =>
    cases inside : isDescendantOrSelf parent oldPath with
    | false =>
      simp only [Option.any_some, inside]
      exact (movesTo_aimed core oldPath _).symm
    | true =>
      simp only [Option.any_some, inside]
      split <;> rfl

theorem run_renameFolder (core : NexusCore) (oldPath newName : Text) :
    core.renameFolder oldPath newName = movesTo core (renameFolder oldPath newName).destination := by
  simp only [NexusCore.renameFolder, destination]
  cases (parentPath oldPath).filter fun parent => !parent.isEmpty with
  | none | some parent => exact (movesTo_aimed core oldPath _).symm

theorem moves_kept_iff {core : NexusCore} (tidy : core.Tidy) (call : FolderCall) :
    ((movesTo core call.destination).Tidy ∧ WentTo core (movesTo core call.destination) call.destination) ↔
      call.Fits core := by
  unfold Fits
  cases goes : call.destination with
  | none => exact ⟨fun _ => trivial, fun _ => ⟨tidy, rfl⟩⟩
  | some pair =>
    obtain ⟨old, target⟩ := pair
    have valid := normal_of_destination goes
    have moved := NexusCore.renameFolderPath_moved tidy old target
    have still := moved.tidy_iff tidy valid
    constructor
    · rintro ⟨after, -, ne⟩ path known below
      obtain ⟨shallow, short⟩ := still.mp after path known below
      exact ⟨shallow, short, ne path known below⟩
    · intro fits
      refine ⟨still.mpr fun path known below => ?_, moved, fun path known below => ?_⟩
      · obtain ⟨shallow, short, -⟩ := fits path known below
        exact ⟨shallow, short⟩
      · exact (fits path known below).2.2

end FolderCall

/-- The tree stays valid exactly when the rewritten paths stay shallow and short and nothing moves below itself. -/
theorem folder_operations_valid (core : NexusCore) (tidy : core.Tidy) (call : FolderCall) :
    call.Kept core ↔ call.Fits core := by
  cases call with
  | moveFolder oldPath newParentPath =>
    rw [← FolderCall.moves_kept_iff tidy, ← FolderCall.run_moveFolder]
    rfl
  | renameFolder oldPath newName =>
    rw [← FolderCall.moves_kept_iff tidy, ← FolderCall.run_renameFolder]
    rfl
  | removeFolderCascade path deleteContents =>
    refine ⟨fun _ => trivial, fun _ => ?_⟩
    cases deleteContents with
    | false =>
      have dissolved := NexusCore.removeFolderCascade_dissolved tidy path
      exact ⟨dissolved.tidy tidy, dissolved⟩
    | true =>
      have emptied := NexusCore.removeFolderCascade_emptied core path
      exact ⟨emptied.tidy tidy, emptied⟩

def lab : NexusCore where
  servers := SeqMap.empty.set "web".toList
    { id := "web".toList, name := "web".toList, group := some "lab/rack".toList, host := "h".toList, port := 22,
      username := none, authType := .agent }
  explicitGroups := .ofList (getAncestorPaths "lab/rack".toList ++ getAncestorPaths "a/b/c/d/e/f/g/h/i/j".toList ++
    ["old".toList])

theorem lab_tidy : lab.Tidy := ⟨by decide, by decide⟩

theorem folder_operations_valid_lab : (FolderCall.renameFolder "lab".toList "bench".toList).Kept lab :=
  (folder_operations_valid lab lab_tidy _).mpr (by decide)

/-- Moved one level down, the deepest folder is too deep; and a folder can be renamed into
itself. -/
theorem folder_sinks : lab.Tidy ∧ ¬ (FolderCall.moveFolder "a".toList (some "old".toList)).Kept lab ∧
    ¬ (FolderCall.renameFolder "lab".toList "lab/lab".toList).Kept lab := by
  refine ⟨lab_tidy, ?_, ?_⟩
  · rintro ⟨after, -⟩
    have deep : "old/a/b/c/d/e/f/g/h/i/j".toList ∈
      (lab.moveFolder "a".toList (some "old".toList)).explicitGroups := by
      decide
    exact absurd (after.normal _ (NexusCore.mem_paths.mpr (.inl deep))) (by decide)
  · rintro ⟨-, -, apart⟩
    exact absurd (apart "lab".toList (by decide) (by decide) (by decide)) (by decide)

end NexTerminal.Inventory
