import NexTerminal.Inventory.BatchFacts
import NexTerminal.Inventory.NormalPaths

namespace NexTerminal.Inventory

open Library

/-- A group that is given by its segments; records outside all folders have none. -/
def Hangs (parts : List Text) : Option Text → Prop
  | none => parts = []
  | some path => segments path = parts

/-- A group at or below `old` hangs from `stem` as it hung from `old`; any other is the same. -/
def Regrouped (old : Text) (stem : List Text) (before after : Option Text) : Prop :=
  (∀ path, before = some path → isDescendantOrSelf path old = true →
    ∃ rest, segments path = segments old ++ rest ∧ Hangs (stem ++ rest) after) ∧
  ((∀ path, before = some path → isDescendantOrSelf path old = false) → after = before)

def Throughout {V : Type} (R : V → V → Prop) (before after : SeqMap Text V) : Prop :=
  after.keys = before.keys ∧ ∀ id v w, before.get? id = some v → after.get? id = some w → R v w

namespace NexusCore

def recordGroups (core : NexusCore) : List (Option Text) :=
  core.servers.values.map ServerConfig.group ++ core.serialProfiles.values.map FolderItem.group ++
    core.localShellProfiles.values.map FolderItem.group ++ core.localServers.values.map FolderItem.group

def paths (core : NexusCore) : List Text := core.explicitGroups.items ++ core.recordGroups.filterMap id

structure Tidy (core : NexusCore) : Prop where
  normal : ∀ path ∈ core.paths, Normal path
  closed : ∀ path ∈ core.explicitGroups, ∀ above ∈ getAncestorPaths path, above ∈ core.explicitGroups

structure RecordsRegrouped (old : Text) (stem : List Text) (core after : NexusCore) : Prop where
  servers : Throughout (fun v w => w = { v with group := w.group } ∧ Regrouped old stem v.group w.group)
    core.servers after.servers
  serialProfiles : Throughout (fun v w => Regrouped old stem v.group w.group)
    core.serialProfiles after.serialProfiles
  localShellProfiles : Throughout (fun v w => Regrouped old stem v.group w.group)
    core.localShellProfiles after.localShellProfiles
  localServers : Throughout (fun v w => Regrouped old stem v.group w.group) core.localServers after.localServers

def tree (core : NexusCore) : Set (List Text) := {parts | ∃ path ∈ core.explicitGroups, segments path = parts}

/-- Everything at and below `old` hangs at `target`. -/
structure Moved (old target : Text) (core after : NexusCore) : Prop where
  folders : after.tree = regrafted core.tree (segments old) (segments target)
  records : RecordsRegrouped old (segments target) core after

/-- The folder is gone, and what was in it is where the folder was. -/
structure Dissolved (old : Text) (core after : NexusCore) : Prop where
  folders : after.tree = lifted core.tree (segments old)
  records : RecordsRegrouped old (segments old).dropLast core after

structure Emptied (old : Text) (core after : NexusCore) : Prop where
  folders : after.tree = {path | path ∈ core.tree ∧ ¬ segments old <+: path}
  servers : ∀ id, after.servers.has id = true ↔
    ∃ server, core.servers.get? id = some server ∧ inFolder old server.group = false
  others : ∀ id before server, core.servers.get? id = some before → after.servers.get? id = some server →
    server = before ∨ ∃ gateway, before.ipmiGatewayServerId = some gateway ∧
      core.servers.has gateway = true ∧ after.servers.has gateway = false ∧ server = clearGatewayLink before
  gateways : ∀ server ∈ after.servers.values, ∀ gateway, server.ipmiGatewayServerId = some gateway →
    core.servers.has gateway = true → after.servers.has gateway = true
  serialProfiles : ∀ id, after.serialProfiles.get? id =
    (core.serialProfiles.get? id).filter fun item => !inFolder old item.group
  localShellProfiles : ∀ id, after.localShellProfiles.get? id =
    (core.localShellProfiles.get? id).filter fun item => !inFolder old item.group
  localServers : ∀ id, after.localServers.get? id =
    (core.localServers.get? id).filter fun item => !inFolder old item.group

end NexusCore

inductive FolderCall
  | moveFolder (oldPath : Text) (newParentPath : Option Text)
  | renameFolder (oldPath newName : Text)
  | removeFolderCascade (path : Text) (deleteContents : Bool)

namespace FolderCall

def run (core : NexusCore) : FolderCall → NexusCore
  | moveFolder oldPath newParentPath => core.moveFolder oldPath newParentPath
  | renameFolder oldPath newName => core.renameFolder oldPath newName
  | removeFolderCascade path deleteContents => core.removeFolderCascade path deleteContents

def aimed (oldPath newPath : Text) : Option (Text × Text) :=
  (normalizeFolderPath newPath).map fun target => (oldPath, target)

/-- The path a call moves the folder to; nothing where that is no path, or its parent lies at or below the folder. -/
def destination : FolderCall → Option (Text × Text)
  | moveFolder oldPath newParentPath =>
    match newParentPath.filter fun parent => !parent.isEmpty with
    | none => aimed oldPath (folderDisplayName oldPath)
    | some parent =>
      if isDescendantOrSelf parent oldPath then none
      else aimed oldPath (parent ++ ['/'] ++ folderDisplayName oldPath)
  | renameFolder oldPath newName =>
    match (parentPath oldPath).filter fun parent => !parent.isEmpty with
    | none => aimed oldPath newName
    | some parent => aimed oldPath (parent ++ ['/'] ++ newName)
  | removeFolderCascade _ _ => none

/-- What a call that is no removal does: the folder goes to its destination, never below
itself, or everything stays. -/
def WentTo (core after : NexusCore) : Option (Text × Text) → Prop
  | none => after = core
  | some (old, target) => core.Moved old target after ∧
    ∀ path ∈ core.paths, isDescendantOrSelf path old = true →
      isDescendantOrSelf target old = true → target = old

def Accounted (core after : NexusCore) : FolderCall → Prop
  | removeFolderCascade path true => core.Emptied path after
  | removeFolderCascade path false => core.Dissolved path after
  | call => WentTo core after call.destination

def Kept (core : NexusCore) (call : FolderCall) : Prop := (call.run core).Tidy ∧ call.Accounted core (call.run core)

/-- Each path that moves stays shallow and short, and nothing moves below itself. -/
def FitsAt (core : NexusCore) : Option (Text × Text) → Prop
  | none => True
  | some (old, target) => ∀ path ∈ core.paths, isDescendantOrSelf path old = true →
    depth target + depth path ≤ maxFolderDepth + depth old ∧
    utf16Length target + utf16Length path ≤ maxFolderPathLength + utf16Length old ∧
    (isDescendantOrSelf target old = true → target = old)

instance (core : NexusCore) (destination : Option (Text × Text)) : Decidable (FitsAt core destination) :=
  match destination with
  | none => inferInstanceAs (Decidable True)
  | some (_, _) => inferInstanceAs (Decidable (∀ path ∈ core.paths, _ → _ ∧ _ ∧ (_ → _)))

def Fits (core : NexusCore) (call : FolderCall) : Prop := FitsAt core call.destination

instance (core : NexusCore) (call : FolderCall) : Decidable (call.Fits core) :=
  inferInstanceAs (Decidable (FitsAt core call.destination))

end FolderCall

theorem segments_joinPath {parts : List Text} {path : Text} (first : parts <+: segments path) (ne : parts ≠ []) :
    segments (joinPath parts) = parts :=
  split_joinPath (fun _ mem => slash_notMem_split (first.subset mem)) ne

namespace NexusCore

variable {core after : NexusCore} {old target path : Text}

theorem segments_mem_tree : segments path ∈ core.tree ↔ path ∈ core.explicitGroups := by
  constructor
  · rintro ⟨other, mem, same⟩
    exact segments_injective same ▸ mem
  · intro mem
    exact ⟨path, mem, rfl⟩

theorem closed_iff :
    (∀ path ∈ core.explicitGroups, ∀ above ∈ getAncestorPaths path, above ∈ core.explicitGroups) ↔
    PrefixClosed core.tree := by
  constructor
  · rintro closed - ⟨path, mem, rfl⟩ above first ne
    have named := segments_joinPath first ne
    refine ⟨joinPath above, closed path mem _ (mem_getAncestorPaths.mpr ?_), named⟩
    change segments (joinPath above) <+: segments path
    rw [named]
    exact first
  · intro closed path mem above higher
    exact segments_mem_tree.mp (closed _ (segments_mem_tree.mpr mem) _ (mem_getAncestorPaths.mp higher)
      (segments_ne_nil above))

theorem not_below_iff : isDescendantOrSelf path old = false ↔ ¬ segments old <+: segments path := by
  rw [← isDescendantOrSelf_iff_segments, Bool.not_eq_true]

theorem tree_renameFolderPath (core : NexusCore) (old target : Text) :
    (core.renameFolderPath old target).tree = regrafted core.tree (segments old) (segments target) := by
  have members : ∀ path, path ∈ (core.renameFolderPath old target).explicitGroups ↔
      ((path ∈ core.explicitGroups ∧ isDescendantOrSelf path old = false) ∨
        ∃ folder, (folder ∈ core.explicitGroups ∧ isDescendantOrSelf folder old = true) ∧
          rebase old target folder = path) ∨ path ∈ getAncestorPaths target := by
    simp [renameFolderPath, SeqSet.mem_items]
  ext parts
  constructor
  · rintro ⟨path, mem, rfl⟩
    rcases (members path).mp mem with (⟨known, outside⟩ | ⟨folder, ⟨known, below⟩, rfl⟩) | laid
    · exact .inl (.inl ⟨segments_mem_tree.mpr known, not_below_iff.mp outside⟩)
    · obtain ⟨rest, before, moved⟩ := rebase_spec target below
      exact .inl (.inr ⟨rest, before ▸ segments_mem_tree.mpr known, moved⟩)
    · exact .inr ⟨mem_getAncestorPaths.mp laid, segments_ne_nil path⟩
  · rintro ((⟨⟨path, known, rfl⟩, outside⟩ | ⟨rest, ⟨folder, known, shape⟩, rfl⟩) | ⟨laid, ne⟩)
    · exact ⟨path, (members path).mpr (.inl (.inl ⟨known, not_below_iff.mpr outside⟩)), rfl⟩
    · have below : isDescendantOrSelf folder old = true :=
        isDescendantOrSelf_iff_segments.mpr (shape ▸ List.prefix_append _ _)
      obtain ⟨others, before, moved⟩ := rebase_spec target below
      have same : others = rest := List.append_cancel_left (before.symm.trans shape)
      exact ⟨_, (members _).mpr (.inl (.inr ⟨folder, ⟨known, below⟩, rfl⟩)), same ▸ moved⟩
    · have named := segments_joinPath laid ne
      refine ⟨joinPath parts, (members _).mpr (.inr (mem_getAncestorPaths.mpr ?_)), named⟩
      change segments (joinPath parts) <+: segments target
      rw [named]
      exact laid

end NexusCore

theorem throughout_mapValues {V : Type} {R : V → V → Prop} {map : SeqMap Text V} {f : V → V}
    (each : ∀ v ∈ map.values, R v (f v)) : Throughout R map (map.mapValues f) := by
  refine ⟨SeqMap.keys_mapValues map f, fun id v w before after => ?_⟩
  rw [SeqMap.get?_mapValues, before] at after
  exact Option.some.inj after ▸ each v (SeqMap.mem_values.mpr ⟨id, before⟩)

theorem moveItem_regrouped {old target : Text} {group : Option Text} (normal : ∀ path ∈ group, Normal path) :
    Regrouped old (segments target) group (NexusCore.moveItem old target group) := by
  cases group with
  | none => exact ⟨fun _ absent => (Option.some_ne_none _ absent.symm).elim, fun _ => rfl⟩
  | some path =>
    have filled := (normal path rfl).nonempty
    refine ⟨?_, fun outside => ?_⟩
    · rintro other same below
      obtain rfl := Option.some.inj same
      obtain ⟨rest, before, moved⟩ := rebase_spec target below
      refine ⟨rest, before, ?_⟩
      simpa [NexusCore.moveItem, filled, below, Hangs] using moved
    · simp [NexusCore.moveItem, outside path rfl]

theorem liftItem_regrouped {old : Text} {group : Option Text} (normal : ∀ path ∈ group, Normal path) :
    Regrouped old (segments old).dropLast group (NexusCore.liftItem old group) := by
  cases group with
  | none => exact ⟨fun _ absent => (Option.some_ne_none _ absent.symm).elim, fun _ => rfl⟩
  | some path =>
    have filled := (normal path rfl).nonempty
    refine ⟨?_, fun outside => ?_⟩
    · rintro other same below
      obtain rfl := Option.some.inj same
      have inside : NexusCore.inFolder old (some path) = true := by
        simp [NexusCore.inFolder, filled, below]
      cases held : parentPath old with
      | some parent =>
        have higher : isDescendantOrSelf path parent = true := isDescendantOrSelf_iff.mpr
          (getAncestorPaths_trans (parent_mem_getAncestorPaths held) (isDescendantOrSelf_iff.mp below))
        have named := ((normal path rfl).above higher).nonempty
        obtain ⟨rest, before, moved⟩ := rebase_spec parent below
        rw [show segments parent = (segments old).dropLast from (parentPath_eq_some held).1] at moved
        refine ⟨rest, before, ?_⟩
        simpa [NexusCore.liftItem, inside, held, named, Hangs, Option.filter, NexusCore.rebase] using moved
      | none =>
        obtain ⟨segment, single⟩ := List.length_eq_one_iff.mp (parentPath_eq_none.mp held)
        have bare : (segments old).dropLast = [] := by rw [segments, single, List.dropLast_singleton]
        rcases below_cases below with rfl | ⟨tail, rfl⟩
        · exact ⟨[], (List.append_nil _).symm,
            by simp [NexusCore.liftItem, inside, held, bare, Hangs, Option.filter]⟩
        · have named : tail ≠ [] := by
            rintro rfl
            have last : Proper [] := (normal _ rfl).proper [] (segments_append old [] ▸ by simp [segments])
            exact last.nonempty rfl
          refine ⟨segments tail, segments_append old tail, ?_⟩
          simp [NexusCore.liftItem, inside, held, bare, Hangs, named, Option.filter]
    · have ne : NexusCore.inFolder old (some path) = false := by
        simp [NexusCore.inFolder, outside path rfl]
      simp [NexusCore.liftItem, ne]

namespace NexusCore

variable {core after : NexusCore} {old target path : Text} {stem : List Text}

theorem mem_paths : path ∈ core.paths ↔ path ∈ core.explicitGroups ∨ some path ∈ core.recordGroups := by
  simp [paths, SeqSet.mem_items]

theorem Tidy.ofRecord (tidy : core.Tidy) {group : Option Text} (mem : group ∈ core.recordGroups) :
    ∀ path ∈ group, Normal path := by
  rintro path rfl
  exact tidy.normal path (mem_paths.mpr (.inr mem))

theorem mem_recordGroups {group : Option Text} : group ∈ core.recordGroups ↔
    (∃ v ∈ core.servers.values, v.group = group) ∨ (∃ v ∈ core.serialProfiles.values, v.group = group) ∨
    (∃ v ∈ core.localShellProfiles.values, v.group = group) ∨
      ∃ v ∈ core.localServers.values, v.group = group := by
  simp [recordGroups]

theorem recordsRegrouped_of (tidy : core.Tidy) {move : Option Text → Option Text}
    (each : ∀ group, (∀ path ∈ group, Normal path) → Regrouped old stem group (move group))
    (servers : after.servers = core.servers.mapValues fun server => { server with group := move server.group })
    (serialProfiles : after.serialProfiles = core.serialProfiles.mapValues fun item =>
      { item with group := move item.group })
    (localShellProfiles : after.localShellProfiles =
      core.localShellProfiles.mapValues fun item => { item with group := move item.group })
    (localServers : after.localServers = core.localServers.mapValues fun item =>
      { item with group := move item.group }) :
    RecordsRegrouped old stem core after where
  servers := servers ▸ throughout_mapValues fun v mem =>
    ⟨rfl, each _ (tidy.ofRecord (mem_recordGroups.mpr (.inl ⟨v, mem, rfl⟩)))⟩
  serialProfiles := serialProfiles ▸ throughout_mapValues fun v mem =>
    each _ (tidy.ofRecord (mem_recordGroups.mpr (.inr (.inl ⟨v, mem, rfl⟩))))
  localShellProfiles := localShellProfiles ▸ throughout_mapValues fun v mem =>
    each _ (tidy.ofRecord (mem_recordGroups.mpr (.inr (.inr (.inl ⟨v, mem, rfl⟩)))))
  localServers := localServers ▸ throughout_mapValues fun v mem =>
    each _ (tidy.ofRecord (mem_recordGroups.mpr (.inr (.inr (.inr ⟨v, mem, rfl⟩)))))

end NexusCore

section
variable {V : Type} {R : V → V → Prop} {before after : SeqMap Text V}

theorem Throughout.forth (each : Throughout R before after) {v : V} (mem : v ∈ before.values) :
    ∃ w ∈ after.values, R v w := by
  obtain ⟨id, held⟩ := SeqMap.mem_values.mp mem
  have known : id ∈ after.keys := each.1 ▸ SeqMap.mem_keys.mpr (by rw [held]; rfl)
  obtain ⟨w, hit⟩ := Option.isSome_iff_exists.mp (SeqMap.mem_keys.mp known)
  exact ⟨w, SeqMap.mem_values.mpr ⟨id, hit⟩, each.2 id v w held hit⟩

theorem Throughout.back (each : Throughout R before after) {w : V} (mem : w ∈ after.values) :
    ∃ v ∈ before.values, R v w := by
  obtain ⟨id, held⟩ := SeqMap.mem_values.mp mem
  have known : id ∈ before.keys := each.1 ▸ SeqMap.mem_keys.mpr (by rw [held]; rfl)
  obtain ⟨v, hit⟩ := Option.isSome_iff_exists.mp (SeqMap.mem_keys.mp known)
  exact ⟨v, SeqMap.mem_values.mpr ⟨id, hit⟩, each.2 id v w hit held⟩

end

namespace NexusCore

variable {core after : NexusCore} {old target path : Text} {stem : List Text}

section

variable (records : RecordsRegrouped old stem core after)
include records

theorem RecordsRegrouped.forth {group : Option Text} (mem : group ∈ core.recordGroups) :
    ∃ moved ∈ after.recordGroups, Regrouped old stem group moved := by
  rcases mem_recordGroups.mp mem with ⟨v, listed, rfl⟩ | ⟨v, listed, rfl⟩ | ⟨v, listed, rfl⟩ |
    ⟨v, listed, rfl⟩
  · obtain ⟨w, hit, -, moved⟩ := records.servers.forth listed
    exact ⟨_, mem_recordGroups.mpr (.inl ⟨w, hit, rfl⟩), moved⟩
  · obtain ⟨w, hit, moved⟩ := records.serialProfiles.forth listed
    exact ⟨_, mem_recordGroups.mpr (.inr (.inl ⟨w, hit, rfl⟩)), moved⟩
  · obtain ⟨w, hit, moved⟩ := records.localShellProfiles.forth listed
    exact ⟨_, mem_recordGroups.mpr (.inr (.inr (.inl ⟨w, hit, rfl⟩))), moved⟩
  · obtain ⟨w, hit, moved⟩ := records.localServers.forth listed
    exact ⟨_, mem_recordGroups.mpr (.inr (.inr (.inr ⟨w, hit, rfl⟩))), moved⟩

theorem RecordsRegrouped.back {moved : Option Text} (mem : moved ∈ after.recordGroups) :
    ∃ group ∈ core.recordGroups, Regrouped old stem group moved := by
  rcases mem_recordGroups.mp mem with ⟨w, listed, rfl⟩ | ⟨w, listed, rfl⟩ | ⟨w, listed, rfl⟩ |
    ⟨w, listed, rfl⟩
  · obtain ⟨v, hit, -, moved⟩ := records.servers.back listed
    exact ⟨_, mem_recordGroups.mpr (.inl ⟨v, hit, rfl⟩), moved⟩
  · obtain ⟨v, hit, moved⟩ := records.serialProfiles.back listed
    exact ⟨_, mem_recordGroups.mpr (.inr (.inl ⟨v, hit, rfl⟩)), moved⟩
  · obtain ⟨v, hit, moved⟩ := records.localShellProfiles.back listed
    exact ⟨_, mem_recordGroups.mpr (.inr (.inr (.inl ⟨v, hit, rfl⟩))), moved⟩
  · obtain ⟨v, hit, moved⟩ := records.localServers.back listed
    exact ⟨_, mem_recordGroups.mpr (.inr (.inr (.inr ⟨v, hit, rfl⟩))), moved⟩

theorem RecordsRegrouped.origin (mem : some path ∈ after.recordGroups) :
    some path ∈ core.recordGroups ∨ ∃ group rest, some group ∈ core.recordGroups ∧
      segments group = segments old ++ rest ∧ segments path = stem ++ rest := by
  obtain ⟨group, known, below, ne⟩ := records.back mem
  cases group with
  | none => exact absurd (ne fun _ absent => (Option.some_ne_none _ absent.symm).elim) (Option.some_ne_none path)
  | some group =>
    cases inside : isDescendantOrSelf group old with
    | false =>
      have same := ne fun other named => Option.some.inj named ▸ inside
      exact .inl (same ▸ known)
    | true =>
      obtain ⟨rest, before, hangs⟩ := below group rfl inside
      exact .inr ⟨group, rest, known, before, hangs⟩

end

/-- A move keeps the tree tidy exactly when no folder gets too deep or too long. -/
theorem Moved.tidy_iff (moved : Moved old target core after) (tidy : core.Tidy) (valid : Normal target) :
    after.Tidy ↔ ∀ path ∈ core.paths, isDescendantOrSelf path old = true →
      depth target + depth path ≤ maxFolderDepth + depth old ∧
      utf16Length target + utf16Length path ≤ maxFolderPathLength + utf16Length old := by
  constructor
  · intro still path known below
    have normal := tidy.normal path known
    rcases mem_paths.mp known with folder | record
    · obtain ⟨rest, before⟩ := isDescendantOrSelf_iff_segments.mp below
      have planted : segments target ++ rest ∈ after.tree := by
        rw [moved.folders]
        exact .inl (.inr ⟨rest, before ▸ segments_mem_tree.mpr folder, rfl⟩)
      obtain ⟨new, mem, hangs⟩ := planted
      exact (normal_moved_iff valid normal before.symm hangs).mp (still.normal new (mem_paths.mpr (.inl mem)))
    · obtain ⟨group, mem, inside, -⟩ := moved.records.forth record
      obtain ⟨rest, before, hangs⟩ := inside path rfl below
      cases group with
      | none => exact absurd (List.append_eq_nil_iff.mp hangs).1 (segments_ne_nil target)
      | some new =>
        exact (normal_moved_iff valid normal before hangs).mp (still.normal new (mem_paths.mpr (.inr mem)))
  · intro fits
    have grafted : ∀ path ∈ core.paths, ∀ new rest, segments path = segments old ++ rest →
        segments new = segments target ++ rest → Normal new := by
      intro path known new rest before hangs
      have below := isDescendantOrSelf_iff_segments.mpr (before ▸ List.prefix_append (segments old) rest)
      exact (normal_moved_iff valid (tidy.normal path known) before hangs).mpr (fits path known below)
    refine ⟨fun new mem => ?_, closed_iff.mpr ?_⟩
    · rcases mem_paths.mp mem with folder | record
      · have listed := segments_mem_tree.mpr folder
        rw [moved.folders] at listed
        rcases listed with (⟨known, -⟩ | ⟨rest, ⟨path, known, before⟩, hangs⟩) | ⟨laid, -⟩
        · exact tidy.normal new (mem_paths.mpr (.inl (segments_mem_tree.mp known)))
        · exact grafted path (mem_paths.mpr (.inl known)) new rest before hangs
        · exact valid.sublist laid.sublist
      · rcases moved.records.origin record with known | ⟨group, rest, known, before, hangs⟩
        · exact tidy.normal new (mem_paths.mpr (.inr known))
        · exact grafted group (mem_paths.mpr (.inr known)) new rest before hangs
    · rw [moved.folders]
      exact (closed_iff.mp tidy.closed).regrafted (segments_ne_nil old)

theorem Dissolved.tidy (dissolved : Dissolved old core after) (tidy : core.Tidy) : after.Tidy := by
  have raised : ∀ path ∈ core.paths, ∀ new rest, segments path = segments old ++ rest →
      segments new = (segments old).dropLast ++ rest → Normal new := by
    intro path known new rest before hangs
    refine (tidy.normal path known).sublist ?_
    rw [before, hangs]
    exact (List.dropLast_sublist _).append_right rest
  refine ⟨fun new mem => ?_, closed_iff.mpr ?_⟩
  · rcases mem_paths.mp mem with folder | record
    · have listed := segments_mem_tree.mpr folder
      rw [dissolved.folders] at listed
      rcases listed with ⟨known, -⟩ | ⟨rest, -, ⟨path, known, before⟩, hangs⟩
      · exact tidy.normal new (mem_paths.mpr (.inl (segments_mem_tree.mp known)))
      · exact raised path (mem_paths.mpr (.inl known)) new rest before hangs
    · rcases dissolved.records.origin record with known | ⟨group, rest, known, before, hangs⟩
      · exact tidy.normal new (mem_paths.mpr (.inr known))
      · exact raised group (mem_paths.mpr (.inr known)) new rest before hangs
  · rw [dissolved.folders]
    exact (closed_iff.mp tidy.closed).lifted (segments_ne_nil old)

end NexusCore

end NexTerminal.Inventory
