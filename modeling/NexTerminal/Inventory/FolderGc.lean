import NexTerminal.Inventory.BatchFacts

namespace NexTerminal.Inventory

open Library

def below (folder ancestor : Text) : Prop := ancestor ∈ getAncestorPaths folder ∧ folder ≠ ancestor

theorem below.trans {a b c : Text} (first : below a b) (second : below b c) : below a c := by
  refine ⟨getAncestorPaths_trans second.1 first.1, ?_⟩
  rintro rfl
  exact second.2 (eq_of_ancestor_of_depth first.1 (depth_le_of_ancestor second.1))

variable {folder ancestor : Text}

theorem below.depth_lt (under : below folder ancestor) : depth ancestor < depth folder := by
  by_contra shallow
  exact under.2 (eq_of_ancestor_of_depth under.1 (Nat.le_of_not_lt shallow)).symm

theorem below_iff :
    below folder ancestor ↔ folder ≠ ancestor ∧ (ancestor ++ ['/']).isPrefixOf folder = true := by
  unfold below
  rw [← isDescendantOrSelf_iff, isDescendantOrSelf, Bool.or_eq_true, beq_iff_eq]
  constructor
  · rintro ⟨same | under, ne⟩
    · exact absurd same ne
    · exact ⟨ne, under⟩
  · rintro ⟨ne, under⟩
    exact ⟨.inr under, ne⟩

variable {core : NexusCore}

theorem hasDescendant_iff {candidate : Text} :
    hasDescendant core candidate = true ↔ ∃ folder ∈ core.explicitGroups, below folder candidate := by
  simp only [hasDescendant, List.any_eq_true, Bool.and_eq_true, bne_iff_ne, below_iff]
  rfl

def occupies (path : Text) (group : Option Text) : Prop := ∃ own, group = some own ∧ path ∈ getAncestorPaths own

theorem isOccupied_iff {path : Text} : isOccupied core path = true ↔
      (∃ id server, core.servers.get? id = some server ∧ occupies path server.group) ∨
        (∃ profile ∈ core.serialProfiles.values, occupies path profile.group) ∨
        ∃ profile ∈ core.localShellProfiles.values, occupies path profile.group := by
  have one : ∀ group : Option Text,
      (group.any fun own => isDescendantOrSelf own path) = true ↔ occupies path group := by
    intro group
    cases group with
    | none => simp [occupies]
    | some own => simp [occupies, isDescendantOrSelf_iff]
  simp only [isOccupied, Bool.or_eq_true, List.any_eq_true, one, or_assoc, SeqMap.mem_values]
  constructor
  · rintro (⟨server, ⟨id, hit⟩, inside⟩ | profiles)
    · exact .inl ⟨id, server, hit, inside⟩
    · exact .inr profiles
  · rintro (⟨id, server, hit, inside⟩ | profiles)
    · exact .inl ⟨server, ⟨id, hit⟩, inside⟩
    · exact .inr profiles

theorem occupies_of_below {group : Option Text} (under : below folder ancestor)
    (inside : occupies folder group) : occupies ancestor group := by
  obtain ⟨own, shape, above⟩ := inside
  exact ⟨own, shape, getAncestorPaths_trans under.1 above⟩

theorem isOccupied_of_below (under : below folder ancestor)
    (occupied : isOccupied core folder = true) : isOccupied core ancestor = true := by
  rw [isOccupied_iff] at occupied ⊢
  rcases occupied with ⟨id, server, hit, inside⟩ | ⟨profile, hit, inside⟩ | ⟨profile, hit, inside⟩
  · exact .inl ⟨id, server, hit, occupies_of_below under inside⟩
  · exact .inr (.inl ⟨profile, hit, occupies_of_below under inside⟩)
  · exact .inr (.inr ⟨profile, hit, occupies_of_below under inside⟩)

/-- A folder the collection removes: nothing sits in it, and every folder below it
may be collected as well. -/
structure Collected (core : NexusCore) (candidates : List Text) (folder : Text) : Prop where
  candidate : folder ∈ candidates
  unoccupied : isOccupied core folder = false
  alone : ∀ other ∈ core.explicitGroups, below other folder → other ∈ candidates

theorem Collected.of_below {candidates : List Text} {folder other : Text}
    (collected : Collected core candidates folder) (mem : other ∈ core.explicitGroups) (under : below other folder) :
    Collected core candidates other := by
  refine ⟨collected.alone other mem under, ?_, fun deeper explicit further =>
    collected.alone deeper explicit (further.trans under)⟩
  rw [← Bool.not_eq_true]
  intro occupied
  have above := isOccupied_of_below under occupied
  rw [collected.unoccupied] at above
  cases above

structure CollectInv (core : NexusCore) (candidates done : List Text) (state : NexusCore × List Text) :
    Prop where
  rest : { state.1 with explicitGroups := core.explicitGroups } = core
  removed : ∀ folder, folder ∈ state.2 ↔ folder ∈ done ∧ Collected core candidates folder
  groups : ∀ folder, folder ∈ state.1.explicitGroups ↔ folder ∈ core.explicitGroups ∧ folder ∉ state.2

section Collection

variable {core : NexusCore} {candidates done : List Text} {state : NexusCore × List Text}

theorem CollectInv.occupied (inv : CollectInv core candidates done state) (folder : Text) :
    isOccupied state.1 folder = isOccupied core folder := by
  rw [← congrArg (isOccupied · folder) inv.rest]
  rfl

theorem CollectInv.step (explicit : ∀ folder ∈ candidates, folder ∈ core.explicitGroups) {candidate : Text}
    (named : candidate ∈ candidates)
    (deeper : ∀ folder ∈ candidates, depth candidate < depth folder → folder ∈ done)
    (inv : CollectInv core candidates done state) :
    CollectInv core candidates (done ++ [candidate]) (collectFolder state candidate) := by
  have kept : ¬ Collected core candidates candidate → CollectInv core candidates (done ++ [candidate]) state := by
    intro unfit
    refine ⟨inv.rest, fun folder => ?_, inv.groups⟩
    rw [inv.removed, List.mem_append, List.mem_singleton]
    constructor
    · exact fun hit => ⟨.inl hit.1, hit.2⟩
    · rintro ⟨pre | rfl, collected⟩
      · exact ⟨pre, collected⟩
      · exact absurd collected unfit
  unfold collectFolder
  dsimp only
  split
  · rename_i gone
    have removed : candidate ∈ state.2 := by
      by_contra held
      exact gone ((inv.groups candidate).mpr ⟨explicit candidate named, held⟩)
    refine ⟨inv.rest, fun folder => ?_, inv.groups⟩
    rw [List.mem_append, List.mem_singleton, inv.removed]
    constructor
    · exact fun hit => ⟨.inl hit.1, hit.2⟩
    · rintro ⟨pre | rfl, collected⟩
      · exact ⟨pre, collected⟩
      · exact (inv.removed _).mp removed
  · split
    · rename_i occupied
      refine kept fun collected => ?_
      rw [inv.occupied, collected.unoccupied] at occupied
      cases occupied
    · rename_i unoccupied
      split
      · rename_i crowded
        obtain ⟨folder, mem, under⟩ := hasDescendant_iff.mp crowded
        obtain ⟨held, stays⟩ := (inv.groups folder).mp mem
        refine kept fun collected => stays ?_
        have fit := collected.of_below held under
        exact (inv.removed folder).mpr ⟨deeper folder fit.candidate under.depth_lt, fit⟩
      · rename_i alone
        have collected : Collected core candidates candidate := by
          refine ⟨named, ?_, fun other mem under => ?_⟩
          · rw [← inv.occupied, ← Bool.not_eq_true]
            exact unoccupied
          · by_contra outside
            refine alone (hasDescendant_iff.mpr ⟨other, (inv.groups other).mpr ⟨mem, fun removed => ?_⟩, under⟩)
            exact outside ((inv.removed other).mp removed).2.candidate
        refine ⟨inv.rest, fun folder => ?_, fun folder => ?_⟩
        · rw [List.mem_append, List.mem_append, List.mem_singleton, inv.removed]
          constructor
          · rintro (⟨pre, fit⟩ | rfl)
            · exact ⟨.inl pre, fit⟩
            · exact ⟨.inr rfl, collected⟩
          · rintro ⟨pre | same, fit⟩
            · exact .inl ⟨pre, fit⟩
            · exact .inr same
        · rw [SeqSet.mem_erase, inv.groups, List.mem_append, List.mem_singleton, not_or, and_assoc]

theorem CollectInv.run (explicit : ∀ folder ∈ candidates, folder ∈ core.explicitGroups) (todo : List Text)
    (done : List Text) (state : NexusCore × List Text)
    (sorted : (done ++ todo).Pairwise fun a b => depth b ≤ depth a)
    (all : ∀ folder, folder ∈ done ++ todo ↔ folder ∈ candidates)
    (inv : CollectInv core candidates done state) :
    CollectInv core candidates (done ++ todo) (todo.foldl collectFolder state) := by
  induction todo generalizing done state with
  | nil => simpa using inv
  | cons cand rest ih =>
    have named : cand ∈ candidates := (all cand).mp (by simp)
    have deeper : ∀ folder ∈ candidates, depth cand < depth folder → folder ∈ done := by
      intro folder mem deep
      have later := (List.pairwise_cons.mp (List.pairwise_append.mp sorted).2.1).1
      rcases List.mem_append.mp ((all folder).mpr mem) with pre | after
      · exact pre
      · rcases List.mem_cons.mp after with rfl | tail
        · exact absurd deep (Nat.lt_irrefl _)
        · exact absurd (later folder tail) (Nat.not_le.mpr deep)
    have next := ih (done ++ [cand]) (collectFolder state cand)
      (by simpa using sorted) (by simpa using all) (inv.step explicit named deeper)
    simpa using next

end Collection

theorem pruneEmptyFolders_inv (core : NexusCore) (targetFolder : Text) (keepFolders ownedCandidates
    crossSourceProtectedPaths : List Text) :
    CollectInv core (ownedCandidates.filter
        (isGcCandidate core targetFolder keepFolders crossSourceProtectedPaths))
      (deepestFirst (ownedCandidates.filter
        (isGcCandidate core targetFolder keepFolders crossSourceProtectedPaths)))
      (pruneEmptyFoldersUnderTarget core targetFolder keepFolders ownedCandidates
        crossSourceProtectedPaths) := by
  have sorted : ∀ folders : List Text, (deepestFirst folders).Pairwise fun a b => depth b ≤ depth a := by
    intro folders
    have ordered := @List.pairwise_mergeSort Text (fun a b => decide (depth b ≤ depth a))
      (fun a b c first second => by simp only [decide_eq_true_eq] at *; omega)
      (fun a b => by simp only [Bool.or_eq_true, decide_eq_true_eq]; omega) folders
    exact ordered.imp fun fact => of_decide_eq_true fact
  have start : CollectInv core (ownedCandidates.filter
      (isGcCandidate core targetFolder keepFolders crossSourceProtectedPaths)) [] (core, []) :=
    ⟨rfl, by simp, by simp⟩
  refine start.run (fun folder mem => ?_) _ _ _ (sorted _) fun folder => List.mem_mergeSort
  have fit := (List.mem_filter.mp mem).2
  simp only [isGcCandidate, Bool.and_eq_true, decide_eq_true_eq] at fit
  exact fit.2

/-- Whether an item sits in the folder once the batch is through. -/
def OccupiedAfter (core : NexusCore) (accepted : AcceptedApplication) (path : Text) : Prop :=
  (∃ id server, Batch.planned core accepted id = some server ∧ occupies path server.group) ∨
    (∃ profile ∈ core.serialProfiles.values, occupies path profile.group) ∨
    ∃ profile ∈ core.localShellProfiles.values, occupies path profile.group

/-- Whether the source owns the folder and no rule protects it. -/
def Collectable (core : NexusCore) (apply : InventorySyncApplication) (source : InventorySourceConfig)
    (folder : Text) : Prop :=
  folder ∈ source.managedFolders.getD [] ∧
    isGcCandidate core source.targetFolder (Batch.namedFolders apply.folders)
      (otherSourcesProtectedPaths core apply.sourceId).items folder = true

structure Garbage (core : NexusCore) (apply : InventorySyncApplication) (accepted : AcceptedApplication)
    (source : InventorySourceConfig) (folder : Text) : Prop where
  collectable : Collectable core apply source folder
  unoccupied : ¬ OccupiedAfter core accepted folder
  alone : ∀ other, other ∈ core.explicitGroups ∨ other ∈ Batch.namedFolders apply.folders →
    below other folder → Collectable core apply source other

namespace Batch

section Settling

variable (core : NexusCore) (apply : InventorySyncApplication) (accepted : AcceptedApplication)

theorem gatewaysCleared_fixed :
    (gatewaysCleared core apply accepted).core.serialProfiles = core.serialProfiles ∧
      (gatewaysCleared core apply accepted).core.localShellProfiles = core.localShellProfiles ∧
      (gatewaysCleared core apply accepted).core.inventorySources = core.inventorySources := by
  have same := gatewaysCleared_scaffold core apply accepted
  exact ⟨(congrArg (fun batch => batch.core.serialProfiles) same :),
    (congrArg (fun batch => batch.core.localShellProfiles) same :),
    (congrArg (fun batch => batch.core.inventorySources) same :)⟩

theorem gatewaysCleared_occupied {path : Text} :
    isOccupied (gatewaysCleared core apply accepted).core path = true ↔ OccupiedAfter core accepted path := by
  obtain ⟨serial, shell, -⟩ := gatewaysCleared_fixed core apply accepted
  have same : ∀ id, (∃ server, (gatewaysCleared core apply accepted).core.servers.get? id = some server ∧
        occupies path server.group) ↔
      ∃ server, planned core accepted id = some server ∧ occupies path server.group := by
    intro id
    have groups := gatewaysCleared_group core apply accepted id
    cases left : (gatewaysCleared core apply accepted).core.servers.get? id with
    | none =>
      cases plan : planned core accepted id with
      | none => simp
      | some server => simp [left, plan] at groups
    | some server =>
      cases plan : planned core accepted id with
      | none => simp [left, plan] at groups
      | some other =>
        rw [left, plan, Option.map_some, Option.map_some, Option.some.injEq] at groups
        simp [groups]
  rw [isOccupied_iff, serial, shell, OccupiedAfter, exists_congr same]

theorem otherSourcesProtectedPaths_congr {a b : NexusCore} (same : a.inventorySources = b.inventorySources)
    (sourceId : Text) : otherSourcesProtectedPaths a sourceId = otherSourcesProtectedPaths b sourceId := by
  unfold otherSourcesProtectedPaths
  rw [same]

theorem mem_collectionCandidates {source : InventorySourceConfig} {folder : Text}
    (unoccupied : ¬ OccupiedAfter core accepted folder) :
    folder ∈ ((gatewaysCleared core apply accepted).gcOwnedCandidates source apply.sourceId).items.filter
        (isGcCandidate (gatewaysCleared core apply accepted).core source.targetFolder
          (gatewaysCleared core apply accepted).applicationFolderSet.items
          (otherSourcesProtectedPaths (gatewaysCleared core apply accepted).core apply.sourceId).items) ↔
      Collectable core apply source folder := by
  obtain ⟨groups, named, added⟩ := gatewaysCleared_folders core apply accepted folder
  have sources := (gatewaysCleared_fixed core apply accepted).2.2
  have empty : folder ∉ sourceOwnedFootprint (gatewaysCleared core apply accepted).core source
      apply.sourceId := by
    intro mem
    simp only [sourceOwnedFootprint, SeqSet.mem_ofList, List.mem_flatMap, List.mem_filter] at mem
    obtain ⟨server, ⟨held, -⟩, inside⟩ := mem
    refine unoccupied ((gatewaysCleared_occupied core apply accepted).mp ?_)
    obtain ⟨id, hit⟩ := SeqMap.mem_values.mp held
    refine isOccupied_iff.mpr (.inl ⟨id, server, hit, ?_⟩)
    split at inside
    · rename_i group shape
      split at inside
      · cases inside
      · exact ⟨group, shape, (List.mem_filter.mp inside).1⟩
    · cases inside
  have fresh : folder ∉ namedFolders apply.folders →
      folder ∉ (gatewaysCleared core apply accepted).newManagedFolders source apply.sourceId := by
    intro unnamed mem
    unfold newManagedFolders at mem
    split at mem
    · simp only [SeqSet.mem_addAll, SeqSet.mem_filter, SeqSet.mem_items,
        Bool.or_eq_true, decide_eq_true_eq] at mem
      rcases mem with ⟨-, footprint | mention⟩ | created
      · exact empty footprint
      · exact unnamed (named.mp mention.1)
      · exact unnamed (added.mp created.1).1
    · exact SeqSet.not_mem_empty folder mem
  rw [List.mem_filter, Collectable, SeqSet.mem_items, gcOwnedCandidates, SeqSet.mem_filter,
    SeqSet.mem_ofList, otherSourcesProtectedPaths_congr sources]
  have keep : (gatewaysCleared core apply accepted).applicationFolderSet.items.contains folder =
      (namedFolders apply.folders).contains folder := by
    rw [Bool.eq_iff_iff, List.contains_iff_mem, List.contains_iff_mem, SeqSet.mem_items, named]
  have guard : isGcCandidate (gatewaysCleared core apply accepted).core source.targetFolder
        (gatewaysCleared core apply accepted).applicationFolderSet.items
        (otherSourcesProtectedPaths core apply.sourceId).items folder = true ↔
      isGcCandidate core source.targetFolder (namedFolders apply.folders)
        (otherSourcesProtectedPaths core apply.sourceId).items folder = true := by
    simp only [isGcCandidate, keep, Bool.and_eq_true, decide_eq_true_eq, groups, Bool.not_eq_true',
      Bool.or_eq_false_iff, List.contains_eq_mem, decide_eq_false_iff_not]
    constructor
    · rintro ⟨⟨⟨⟨⟨other, unnamed⟩, protect⟩, slash⟩, normal⟩, explicit | mention⟩
      · exact ⟨⟨⟨⟨⟨other, unnamed⟩, protect⟩, slash⟩, normal⟩, explicit⟩
      · exact absurd mention unnamed
    · rintro ⟨front, explicit⟩
      exact ⟨front, .inl explicit⟩
  rw [guard]
  constructor
  · rintro ⟨⟨managed, -⟩, fit⟩
    exact ⟨managed, fit⟩
  · rintro ⟨managed, fit⟩
    refine ⟨⟨managed, ?_⟩, fit⟩
    simp only [isGcCandidate, Bool.and_eq_true, Bool.not_eq_true', Bool.or_eq_false_iff,
      List.contains_eq_mem, decide_eq_false_iff_not] at fit
    exact decide_eq_true (fresh fit.1.1.1.1.2)

theorem collectFolders_inv (source : InventorySourceConfig) {expected : InventorySourceConfig}
    (mode : apply.expectedSource = .config expected) :
    ∃ candidates done, CollectInv (gatewaysCleared core apply accepted).core candidates done
        ((gatewaysCleared core apply accepted).collectFolders apply source) ∧
      (∀ folder, folder ∈ done ↔ folder ∈ candidates) ∧
      ∀ folder, ¬ OccupiedAfter core accepted folder →
        (folder ∈ candidates ↔ Collectable core apply source folder) := by
  unfold collectFolders
  rw [mode]
  exact ⟨_, _, pruneEmptyFolders_inv _ _ _ _ _, fun _ => List.mem_mergeSort,
    fun _ unoccupied => mem_collectionCandidates core apply accepted unoccupied⟩

theorem collected_iff_garbage {source : InventorySourceConfig} {candidates : List Text} {folder : Text}
    (fit : ∀ folder, ¬ OccupiedAfter core accepted folder →
      (folder ∈ candidates ↔ Collectable core apply source folder)) :
    Collected (gatewaysCleared core apply accepted).core candidates folder ↔
      Garbage core apply accepted source folder := by
  have lower : ∀ {other : Text}, below other folder → ¬ OccupiedAfter core accepted folder →
      ¬ OccupiedAfter core accepted other := by
    intro other under unoccupied occupied
    rw [← gatewaysCleared_occupied core apply] at occupied unoccupied
    exact unoccupied (isOccupied_of_below under occupied)
  have free : isOccupied (gatewaysCleared core apply accepted).core folder = false ↔
      ¬ OccupiedAfter core accepted folder := by
    rw [← gatewaysCleared_occupied core apply, Bool.not_eq_true]
  constructor
  · rintro ⟨cand, unoccupied, alone⟩
    have vacant := free.mp unoccupied
    refine ⟨(fit folder vacant).mp cand, vacant, fun other mem under => ?_⟩
    exact (fit other (lower under vacant)).mp
      (alone other ((gatewaysCleared_folders core apply accepted other).1.mpr mem) under)
  · rintro ⟨collectable, vacant, alone⟩
    refine ⟨(fit folder vacant).mpr collectable, free.mpr vacant, fun other mem under => ?_⟩
    exact (fit other (lower under vacant)).mpr
      (alone other ((gatewaysCleared_folders core apply accepted other).1.mp mem) under)

theorem mutate_removedEmptyGroups (folder : Text) :
    folder ∈ (mutate core apply accepted).removedEmptyGroups ↔
      ∃ source expected, apply.expectedSource = .config expected ∧
        core.inventorySources.get? apply.sourceId = some source ∧ Garbage core apply accepted source folder := by
  have sources := (gatewaysCleared_fixed core apply accepted).2.2
  rw [mutate_eq]
  unfold settleFolders
  rw [sources]
  split
  · rename_i absent
    have noneRemoved : (gatewaysCleared core apply accepted).removedEmptyGroups = [] :=
      (congrArg (fun batch => batch.removedEmptyGroups) (gatewaysCleared_scaffold core apply accepted) :)
    simp [noneRemoved, absent]
  · rename_i source hit
    cases mode : apply.expectedSource with
    | absent => simp [collectFolders, mode]
    | config expected =>
      obtain ⟨candidates, done, inv, all, fit⟩ := collectFolders_inv core apply accepted source mode
      rw [inv.removed, all, collected_iff_garbage core apply accepted fit]
      constructor
      · rintro ⟨-, garbage⟩
        exact ⟨source, expected, rfl, hit, garbage⟩
      · rintro ⟨other, -, -, same, garbage⟩
        rw [hit] at same
        cases same
        exact ⟨(fit folder garbage.unoccupied).mpr garbage.collectable, garbage⟩

theorem mutate_groups (path : Text) :
    path ∈ (mutate core apply accepted).core.explicitGroups ↔
      (path ∈ core.explicitGroups ∨ path ∈ namedFolders apply.folders) ∧
        path ∉ (mutate core apply accepted).removedEmptyGroups := by
  have groups := (gatewaysCleared_folders core apply accepted path).1
  have sources := (gatewaysCleared_fixed core apply accepted).2.2
  have removed := mutate_removedEmptyGroups core apply accepted path
  rw [removed, mutate_eq]
  unfold settleFolders
  rw [sources]
  split
  · rename_i absent
    rw [groups]
    simp [absent]
  · rename_i source hit
    cases mode : apply.expectedSource with
    | absent => simp [collectFolders, mode, groups]
    | config expected =>
      obtain ⟨candidates, done, inv, all, fit⟩ := collectFolders_inv core apply accepted source mode
      rw [inv.groups, groups, inv.removed, all, collected_iff_garbage core apply accepted fit]
      refine and_congr Iff.rfl (not_congr ?_)
      constructor
      · rintro ⟨-, garbage⟩
        exact ⟨source, expected, rfl, hit, garbage⟩
      · rintro ⟨other, -, -, same, garbage⟩
        rw [hit] at same
        cases same
        exact ⟨(fit path garbage.unoccupied).mpr garbage.collectable, garbage⟩

/-- A batch without what the settling of the folders changes. -/
def besidesSettling (batch : Batch) : Batch :=
  { batch with
    core := { batch.core with explicitGroups := .empty, inventorySources := .empty }
    removedEmptyGroups := []
    batchWrittenFocusedSessionId := none
    source := none
    writtenSourceRecord := none }

theorem collectFolders_rest (batch : Batch) (source : InventorySourceConfig) :
    { (batch.collectFolders apply source).1 with explicitGroups := batch.core.explicitGroups } = batch.core := by
  unfold collectFolders
  split
  · rfl
  · exact (pruneEmptyFolders_inv _ _ _ _ _).rest

theorem settleFolders_besidesSettling (batch : Batch) :
    (batch.settleFolders apply).besidesSettling = batch.besidesSettling := by
  unfold settleFolders
  split
  · rfl
  · rename_i source hit
    exact congrArg (fun core : NexusCore => { batch with core := core }.besidesSettling)
      (collectFolders_rest apply batch source)

theorem mutate_besidesSettling :
    (mutate core apply accepted).besidesSettling = (gatewaysCleared core apply accepted).besidesSettling :=
  settleFolders_besidesSettling apply _

theorem mutate_focus :
    (mutate core apply accepted).batchWrittenFocusedSessionId =
      (mutate core apply accepted).core.focusedSessionId := by
  rw [mutate_eq]
  unfold settleFolders
  split
  · rfl
  · rename_i source hit
    have rest := collectFolders_rest apply (gatewaysCleared core apply accepted) source
    exact (congrArg NexusCore.focusedSessionId rest :).symm

theorem mutate_source :
    (mutate core apply accepted).core.inventorySources = core.inventorySources ∧
        (mutate core apply accepted).source = none ∨
      ∃ source written, (mutate core apply accepted).source = some source ∧
        (mutate core apply accepted).writtenSourceRecord = some written ∧
        core.inventorySources.get? apply.sourceId = some source ∧
        (mutate core apply accepted).core.inventorySources = core.inventorySources.set apply.sourceId written := by
  have sources := (gatewaysCleared_fixed core apply accepted).2.2
  rw [mutate_eq]
  unfold settleFolders
  rw [sources]
  split
  · refine .inl ⟨sources, ?_⟩
    exact (congrArg (fun batch => batch.source) (gatewaysCleared_scaffold core apply accepted) :)
  · rename_i source hit
    refine .inr ⟨source, _, rfl, rfl, hit, ?_⟩
    have rest := collectFolders_rest apply (gatewaysCleared core apply accepted) source
    have same : ((gatewaysCleared core apply accepted).collectFolders apply source).1.inventorySources =
        (gatewaysCleared core apply accepted).core.inventorySources :=
      (congrArg NexusCore.inventorySources rest :)
    dsimp only
    rw [same, sources]

theorem mutate_tracked : Tracked core [] (mutate core apply accepted) := by
  have same := mutate_besidesSettling core apply accepted
  exact (gatewaysCleared_tracked core apply accepted).congr
    (congrArg (fun batch => batch.priorServers) same :)
    (congrArg (fun batch => batch.batchWrittenServers) same :)
    (congrArg (fun batch => batch.core.servers) same :)

theorem mutate_deleted (id : Text) :
    (mutate core apply accepted).Deleted id ↔
      id ∈ accepted.removeServerIds ∧ id ∉ accepted.upsertServers.map ServerConfig.id := by
  rw [← gatewaysCleared_deleted core apply]
  have written := congrArg (fun batch => batch.batchWrittenServers.get? id)
    (mutate_besidesSettling core apply accepted)
  exact Eq.congr written rfl

theorem mutate_live (sid id : Text) : LiveAfter core accepted (mutate core apply accepted) sid id := by
  have same : (mutate core apply accepted).live = (gatewaysCleared core apply accepted).live :=
    (congrArg live (mutate_besidesSettling core apply accepted) :)
  exact (gatewaysCleared_live core apply accepted sid id).congr same

theorem mutate_recorded :
    (mutate core apply accepted).priorFocusedSessionId = core.focusedSessionId ∧
      (mutate core apply accepted).priorActiveSessions = sessionsToClose core accepted ∧
      (mutate core apply accepted).priorActivitySessionIds =
        ((sessionsToClose core accepted).map Prod.fst).filter
          fun sid => sid ∈ core.activitySessionIds := by
  have settled := mutate_besidesSettling core apply accepted
  have later := gatewaysCleared_besidesServers core apply accepted
  have deletes := serversDeleted_besidesDeletes core apply accepted
  have added := foldersAdded_besidesFolders core apply accepted
  have start := begin_besidesServers core accepted
  let record (batch : Batch) : Option Text × List (Text × ActiveSession) × List Text :=
    (batch.priorFocusedSessionId, batch.priorActiveSessions, batch.priorActivitySessionIds)
  have whole : record (mutate core apply accepted) = record (begin core accepted) :=
    calc
      _ = record (gatewaysCleared core apply accepted) := (congrArg record settled :)
      _ = record (serversDeleted core apply accepted) := (congrArg record later :)
      _ = record (foldersAdded core apply accepted) := (congrArg record deletes :)
      _ = record (begin core accepted) := (congrArg record added :)
  have first := whole.trans (congrArg record start :)
  rw [Prod.mk.injEq, Prod.mk.injEq] at first
  exact first

/-- Besides servers, deletes and folders, the batch changes nothing before it settles. -/
theorem mutate_scaffold :
    (mutate core apply accepted).besidesSettling.scaffold = scaffold (besidesSettling { core := core }) := by
  rw [mutate_besidesSettling]
  exact congrArg besidesSettling (gatewaysCleared_scaffold core apply accepted)

end Settling

end Batch

end NexTerminal.Inventory
