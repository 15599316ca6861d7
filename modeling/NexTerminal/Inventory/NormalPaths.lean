import Mathlib.Algebra.Order.BigOperators.Group.List
import Mathlib.Algebra.Order.Group.Nat
import NexTerminal.Library.PrefixTree
import NexTerminal.Inventory.NexusCore

namespace NexTerminal.Inventory

open Library

def segments (path : Text) : List Text := path.splitOn '/'

structure Proper (segment : Text) : Prop where
  nonempty : segment ≠ []
  trimmed : trim segment = segment
  parent : segment ≠ "..".toList
  self : segment ≠ ".".toList
  backslash : '\\' ∉ segment

def Normal (path : Text) : Prop := normalizeFolderPath path = some path

instance (path : Text) : Decidable (Normal path) := inferInstanceAs (Decidable (_ = _))

theorem utf16Length_append (first rest : Text) :
    utf16Length (first ++ rest) = utf16Length first + utf16Length rest := by
  simp [utf16Length]

theorem utf16Length_sublist {part whole : Text} (within : List.Sublist part whole) :
    utf16Length part ≤ utf16Length whole := by
  induction within with
  | slnil => exact le_rfl
  | @cons part whole c _ ih =>
    have more := utf16Length_append [c] whole
    rw [List.singleton_append] at more
    omega
  | @cons_cons part whole c _ ih =>
    have more := utf16Length_append [c] whole
    have less := utf16Length_append [c] part
    rw [List.singleton_append] at more less
    omega

theorem trim_sublist (text : Text) : List.Sublist (trim text) text := by
  have inner :
    List.Sublist ((text.dropWhile isTrimmed).reverse.dropWhile isTrimmed) (text.dropWhile isTrimmed).reverse :=
    List.dropWhile_sublist _
  have back := List.reverse_sublist.mpr inner
  rw [List.reverse_reverse] at back
  exact back.trans (List.dropWhile_sublist _)

theorem trim_trim (text : Text) : trim (trim text) = trim text :=
  @trimWith_trimWith _ isTrimmed isTrimmed (fun _ dropped => dropped) text

def size (parts : List Text) : Nat := (parts.map fun part => utf16Length part + 1).sum

theorem size_append (first rest : List Text) : size (first ++ rest) = size first + size rest := by
  simp [size]

theorem size_sublist {few many : List Text} (within : List.Sublist few many) : size few ≤ size many :=
  (within.map _).sum_le_sum fun _ _ => Nat.zero_le _

theorem utf16Length_joinPath {parts : List Text} (ne : parts ≠ []) :
    utf16Length (joinPath parts) + 1 = size parts := by
  induction parts with
  | nil => exact absurd rfl ne
  | cons part rest ih =>
    cases rest with
    | nil => simp [joinPath, size]
    | cons next rest =>
      have whole : joinPath (part :: next :: rest) = part ++ ['/'] ++ joinPath (next :: rest) :=
        @joinPath_append [part] _ (List.cons_ne_nil _ _) (List.cons_ne_nil _ _) |>.trans (by
          rw [joinPath, List.intercalate_singleton])
      have one : utf16Length ['/'] = 1 := rfl
      rw [whole, utf16Length_append, utf16Length_append, one, size, List.map_cons, List.sum_cons,
        ← size, ← ih (List.cons_ne_nil _ _)]
      omega

theorem utf16Length_segments (path : Text) : utf16Length path + 1 = size (segments path) := by
  have joined := utf16Length_joinPath (List.splitOn_ne_nil '/' path)
  rw [joinPath_split] at joined
  exact joined

theorem size_kept (parts : List Text) : size ((parts.map trim).filter fun part => !part.isEmpty) ≤ size parts := by
  unfold size
  induction parts with
  | nil => exact le_rfl
  | cons part rest ih =>
    have short := utf16Length_sublist (trim_sublist part)
    simp only [List.map_cons, List.filter_cons, List.sum_cons]
    split
    · rw [List.map_cons, List.sum_cons]
      omega
    · omega

def keptSegments (path : Text) : List Text := ((path.splitOn '/').map trim).filter fun segment => !segment.isEmpty

variable {path : Text}

theorem mem_keptSegments {segment : Text} (mem : segment ∈ keptSegments path) :
    segment ≠ [] ∧ trim segment = segment ∧ '/' ∉ segment := by
  obtain ⟨trimmed, ne⟩ := List.mem_filter.mp mem
  obtain ⟨raw, known, rfl⟩ := List.mem_map.mp trimmed
  refine ⟨by simpa using ne, trim_trim raw, fun slash => ?_⟩
  exact slash_notMem_split known ((trim_sublist raw).subset slash)

theorem normalizeFolderPath_eq_some {result : Text} : normalizeFolderPath path = some result ↔
      utf16Length path ≤ maxFolderPathLength ∧ keptSegments path ≠ [] ∧
      (∀ segment ∈ keptSegments path, Proper segment) ∧ (keptSegments path).length ≤ maxFolderDepth ∧
      joinPath (keptSegments path) = result := by
  have whole : normalizeFolderPath path =
      if utf16Length path > maxFolderPathLength then none
      else if (keptSegments path).isEmpty then none
      else if (keptSegments path).any fun segment =>
          segment == "..".toList || segment == ".".toList || segment.contains '\\' then none
      else if (keptSegments path).length > maxFolderDepth then none
      else some (joinPath (keptSegments path)) := rfl
  rw [whole]
  constructor
  · intro hit
    split at hit
    · cases hit
    rename_i short
    split at hit
    · cases hit
    rename_i ne
    split at hit
    · cases hit
    rename_i plain
    split at hit
    · cases hit
    rename_i shallow
    refine ⟨Nat.le_of_not_gt short, by simpa using ne, ?_, Nat.le_of_not_gt shallow, Option.some.inj hit⟩
    intro segment mem
    obtain ⟨filled, trimmed, -⟩ := mem_keptSegments mem
    have fine : ¬ (segment == "..".toList || segment == ".".toList || segment.contains '\\') = true :=
      fun bad => plain (List.any_eq_true.mpr ⟨segment, mem, bad⟩)
    simp only [Bool.or_eq_true, beq_iff_eq, List.contains_iff_mem, not_or] at fine
    exact ⟨filled, trimmed, fine.1.1, fine.1.2, fine.2⟩
  · rintro ⟨short, ne, proper, shallow, rfl⟩
    have plain : ¬ ((keptSegments path).any fun segment =>
        segment == "..".toList || segment == ".".toList || segment.contains '\\') = true := by
      intro bad
      obtain ⟨segment, mem, bad⟩ := List.any_eq_true.mp bad
      have fine := proper segment mem
      simp only [Bool.or_eq_true, beq_iff_eq, List.contains_iff_mem] at bad
      rcases bad with (parent | self) | backslash
      · exact fine.parent parent
      · exact fine.self self
      · exact fine.backslash backslash
    rw [if_neg (by omega), if_neg (by simpa using ne), if_neg plain, if_neg (by omega)]

theorem keptSegments_of_proper (proper : ∀ segment ∈ segments path, Proper segment) :
    keptSegments path = segments path := by
  have same : (path.splitOn '/').map trim = path.splitOn '/' :=
    (List.map_congr_left fun segment mem => (proper segment mem).trimmed).trans (List.map_id' _)
  rw [keptSegments, same]
  exact List.filter_eq_self.mpr fun segment mem => by simp [(proper segment mem).nonempty]

theorem normal_iff : Normal path ↔ utf16Length path ≤ maxFolderPathLength ∧ depth path ≤ maxFolderDepth ∧
      ∀ segment ∈ segments path, Proper segment := by
  rw [Normal, normalizeFolderPath_eq_some]
  constructor
  · rintro ⟨short, ne, proper, shallow, whole⟩
    have split : path.splitOn '/' = keptSegments path := by
      conv_lhs => rw [← whole]
      exact split_joinPath (fun segment mem => (mem_keptSegments mem).2.2) ne
    refine ⟨short, ?_, ?_⟩
    · rw [depth, split]
      exact shallow
    · rw [segments, split]
      exact proper
  · rintro ⟨short, shallow, proper⟩
    have same := keptSegments_of_proper proper
    refine ⟨short, ?_, ?_, ?_, ?_⟩
    · rw [same]
      exact List.splitOn_ne_nil _ _
    · rw [same]
      exact proper
    · rw [same]
      exact shallow
    · rw [same]
      exact joinPath_split path

theorem Normal.proper (normal : Normal path) : ∀ segment ∈ segments path, Proper segment :=
  (normal_iff.mp normal).2.2

theorem normal_of_normalize {result : Text} (hit : normalizeFolderPath path = some result) : Normal result := by
  obtain ⟨short, ne, proper, shallow, rfl⟩ := normalizeFolderPath_eq_some.mp hit
  have split : segments (joinPath (keptSegments path)) = keptSegments path :=
    split_joinPath (fun segment mem => (mem_keptSegments mem).2.2) ne
  refine normal_iff.mpr ⟨?_, ?_, ?_⟩
  · have joined := utf16Length_joinPath ne
    have pre := utf16Length_segments path
    have fewer : size (keptSegments path) ≤ size (segments path) := size_kept _
    omega
  · exact (congrArg List.length split).trans_le shallow
  · rw [split]
    exact proper

theorem segments_injective {first second : Text} (same : segments first = segments second) : first = second := by
  rw [← joinPath_split first, ← joinPath_split second]
  exact congrArg joinPath same

theorem segments_ne_nil (path : Text) : segments path ≠ [] := List.splitOn_ne_nil _ _

theorem isDescendantOrSelf_iff_segments {above : Text} :
    isDescendantOrSelf path above = true ↔ segments above <+: segments path :=
  isDescendantOrSelf_iff.trans mem_getAncestorPaths

theorem below_cases {above : Text} (below : isDescendantOrSelf path above = true) :
    path = above ∨ ∃ tail, path = above ++ '/' :: tail := by
  simp only [isDescendantOrSelf, Bool.or_eq_true, beq_iff_eq, List.isPrefixOf_iff_prefix] at below
  rcases below with same | ⟨tail, whole⟩
  · exact .inl same
  · exact .inr ⟨tail, by rw [← whole, List.append_assoc, List.singleton_append]⟩

theorem segments_append (above tail : Text) : segments (above ++ '/' :: tail) = segments above ++ segments tail :=
  List.splitOn_append_cons_self ..

theorem Normal.nonempty (normal : Normal path) : path ≠ [] := by
  rintro rfl
  have empty : Proper [] := normal.proper [] (by simp [segments])
  exact empty.nonempty rfl

theorem bare_joinPath {parts : List Text} (proper : ∀ part ∈ parts, Proper part) :
    Bare isTrimmed (joinPath parts) := by
  induction parts with
  | nil =>
    exact @bare_trimWith _ isTrimmed []
  | cons part rest ih =>
    have first := proper part List.mem_cons_self
    have bare : Bare isTrimmed part := by
      have trimmed := @bare_trimWith _ isTrimmed part
      exact first.trimmed ▸ trimmed
    cases rest with
    | nil => rwa [joinPath, List.intercalate_singleton]
    | cons next rest =>
      have later := ih fun other mem => proper other (List.mem_cons_of_mem _ mem)
      obtain ⟨c, more, rfl⟩ := List.exists_cons_of_ne_nil first.nonempty
      rw [joinPath, List.intercalate_cons_cons]
      refine ⟨bare.head, fun a last => ?_⟩
      rw [← joinPath, List.getLast?_append] at last
      cases final : (joinPath (next :: rest)).getLast? with
      | some b =>
        rw [final] at last
        obtain rfl := Option.some.inj last
        exact later.last b final
      | none =>
        rw [final, List.getLast?_append] at last
        obtain rfl := Option.some.inj last
        decide

theorem Normal.trimmed (normal : Normal path) : trim path = path := by
  have bare := bare_joinPath normal.proper
  rw [segments, joinPath_split] at bare
  exact trimWith_bare bare

theorem Normal.sublist {part : Text} (normal : Normal path) (within : List.Sublist (segments part) (segments path)) :
    Normal part := by
  obtain ⟨short, shallow, proper⟩ := normal_iff.mp normal
  have shorter := size_sublist within
  rw [← utf16Length_segments, ← utf16Length_segments] at shorter
  exact normal_iff.mpr ⟨by omega, within.length_le.trans shallow,
    fun segment mem => proper segment (within.subset mem)⟩

theorem Normal.above {above : Text} (normal : Normal path) (below : isDescendantOrSelf path above = true) :
    Normal above :=
  normal.sublist (isDescendantOrSelf_iff_segments.mp below).sublist

/-- Rebasing replaces the old stem by the new one. -/
theorem rebase_spec {oldPath : Text} (newPath : Text) (below : isDescendantOrSelf path oldPath = true) :
    ∃ rest, segments path = segments oldPath ++ rest ∧
      segments (NexusCore.rebase oldPath newPath path) = segments newPath ++ rest := by
  rcases below_cases below with rfl | ⟨tail, rfl⟩
  · refine ⟨[], (List.append_nil _).symm, ?_⟩
    rw [NexusCore.rebase, List.drop_length, List.append_nil, List.append_nil]
  · have shape : NexusCore.rebase oldPath newPath (oldPath ++ '/' :: tail) = newPath ++ '/' :: tail := by
      rw [NexusCore.rebase, List.drop_left]
    refine ⟨segments tail, segments_append oldPath tail, ?_⟩
    rw [shape, segments_append]

theorem depth_eq (path : Text) : depth path = (segments path).length := rfl

theorem normal_moved_iff {oldPath newPath moved : Text} {rest : List Text} (target : Normal newPath)
    (normal : Normal path) (pre : segments path = segments oldPath ++ rest)
    (after : segments moved = segments newPath ++ rest) :
    Normal moved ↔ depth newPath + depth path ≤ maxFolderDepth + depth oldPath ∧
      utf16Length newPath + utf16Length path ≤ maxFolderPathLength + utf16Length oldPath := by
  have deep := congrArg List.length pre
  have deeper := congrArg List.length after
  have long := congrArg size pre
  have longer := congrArg size after
  rw [List.length_append, ← depth_eq, ← depth_eq] at deep deeper
  rw [size_append, ← utf16Length_segments, ← utf16Length_segments] at long longer
  constructor
  · intro still
    obtain ⟨short, shallow, -⟩ := normal_iff.mp still
    exact ⟨by omega, by omega⟩
  · rintro ⟨shallow, short⟩
    refine normal_iff.mpr ⟨by omega, by omega, ?_⟩
    rw [after]
    intro segment mem
    rcases List.mem_append.mp mem with front | back
    · exact target.proper segment front
    · exact normal.proper segment (pre ▸ List.mem_append_right _ back)

end NexTerminal.Inventory
