import NexTerminal.Inventory.Config
import NexTerminal.Library.Sequences

/-! Folder paths (`utils/folderPaths.ts`). -/

namespace NexTerminal.Inventory

open Library

def maxFolderDepth : Nat := 10
def maxFolderPathLength : Nat := 4096

def utf16Length (text : Text) : Nat := (text.map fun c => if c.toNat < 0x10000 then 1 else 2).sum

/-- What `String.prototype.trim` removes. -/
def isTrimmed (c : Char) : Bool :=
  let n := c.toNat
  (9 ≤ n && n ≤ 13) || n == 0x20 || n == 0xA0 || n == 0x1680 || (0x2000 ≤ n && n ≤ 0x200A)
    || n == 0x2028 || n == 0x2029 || n == 0x202F || n == 0x205F || n == 0x3000 || n == 0xFEFF

def trim (text : Text) : Text := ((text.dropWhile isTrimmed).reverse.dropWhile isTrimmed).reverse

def joinPath (segments : List Text) : Text := List.intercalate ['/'] segments

def normalizeFolderPath (path : Text) : Option Text :=
  if utf16Length path > maxFolderPathLength then none
  else
    let segments := ((path.splitOn '/').map trim).filter fun segment => !segment.isEmpty
    if segments.isEmpty then none
    else if segments.any fun segment =>
        segment == "..".toList || segment == ".".toList || segment.contains '\\' then none
    else if segments.length > maxFolderDepth then none
    else some (joinPath segments)

def isDescendantOrSelf (candidate ancestor : Text) : Bool :=
  candidate == ancestor || (ancestor ++ ['/']).isPrefixOf candidate

def parentPath (path : Text) : Option Text :=
  match path.splitOn '/' with
  | [] | [_] => none
  | segments => some (joinPath segments.dropLast)

def folderDisplayName (path : Text) : Text := (path.splitOn '/').getLastD []

def getAncestorPaths (path : Text) : List Text :=
  let segments := path.splitOn '/'
  (List.range segments.length).map fun i => joinPath (segments.take (i + 1))

/-- `path.split("/").length`. -/
def depth (path : Text) : Nat := (path.splitOn '/').length

variable {path : Text}

theorem slash_notMem_split {segment : Text} (mem : segment ∈ path.splitOn '/') : '/' ∉ segment :=
  notMem_splitOn mem

theorem joinPath_split (path : Text) : joinPath (path.splitOn '/') = path := List.intercalate_splitOn '/'

theorem split_joinPath {segments : List Text} (plain : ∀ seg ∈ segments, '/' ∉ seg)
    (ne : segments ≠ []) : (joinPath segments).splitOn '/' = segments :=
  List.splitOn_intercalate '/' plain ne

theorem joinPath_append {first rest : List Text} (ne : first ≠ []) (more : rest ≠ []) :
    joinPath (first ++ rest) = joinPath first ++ ['/'] ++ joinPath rest := by
  unfold joinPath
  induction first with
  | nil => exact absurd rfl ne
  | cons seg tail ih =>
    cases tail with
    | nil =>
      obtain ⟨-, -, rfl⟩ := List.exists_cons_of_ne_nil more
      rw [List.singleton_append, List.intercalate_cons_cons, List.intercalate_singleton]
    | cons next tail =>
      rw [List.cons_append, List.cons_append, List.intercalate_cons_cons, ← List.cons_append,
        ih (List.cons_ne_nil _ _), List.intercalate_cons_cons]
      simp

theorem depth_pos (path : Text) : 0 < depth path := List.length_pos_of_ne_nil (List.splitOn_ne_nil _ _)

variable {ancestor : Text}

theorem mem_getAncestorPaths :
    ancestor ∈ getAncestorPaths path ↔ ancestor.splitOn '/' <+: path.splitOn '/' := by
  have plain : ∀ segment ∈ path.splitOn '/', '/' ∉ segment := fun _ => slash_notMem_split
  simp only [getAncestorPaths, List.mem_map, List.mem_range]
  constructor
  · rintro ⟨i, within, rfl⟩
    have ne : (path.splitOn '/').take (i + 1) ≠ [] := by
      intro nothing
      have len := congrArg List.length nothing
      rw [List.length_take, List.length_nil] at len
      omega
    rw [split_joinPath (fun segment mem => plain segment (List.mem_of_mem_take mem)) ne]
    exact List.take_prefix _ _
  · intro first
    have positive := depth_pos ancestor
    have short := first.length_le
    simp only [depth] at positive
    refine ⟨(ancestor.splitOn '/').length - 1, by omega, ?_⟩
    have whole : (ancestor.splitOn '/').length - 1 + 1 = (ancestor.splitOn '/').length := by omega
    rw [whole, ← List.prefix_iff_eq_take.mp first, joinPath_split]

theorem self_mem_getAncestorPaths (path : Text) : path ∈ getAncestorPaths path :=
  mem_getAncestorPaths.mpr (List.prefix_refl _)

theorem getAncestorPaths_trans {a b c : Text} (first : a ∈ getAncestorPaths b)
    (second : b ∈ getAncestorPaths c) : a ∈ getAncestorPaths c :=
  mem_getAncestorPaths.mpr ((mem_getAncestorPaths.mp first).trans (mem_getAncestorPaths.mp second))

theorem depth_le_of_ancestor (above : ancestor ∈ getAncestorPaths path) :
    depth ancestor ≤ depth path := (mem_getAncestorPaths.mp above).length_le

theorem eq_of_ancestor_of_depth (above : ancestor ∈ getAncestorPaths path)
    (same : depth path ≤ depth ancestor) : ancestor = path := by
  have segs := (mem_getAncestorPaths.mp above).eq_of_length_le same
  rw [← joinPath_split ancestor, segs, joinPath_split]

theorem isDescendantOrSelf_iff {candidate ancestor : Text} :
    isDescendantOrSelf candidate ancestor = true ↔ ancestor ∈ getAncestorPaths candidate := by
  rw [mem_getAncestorPaths]
  simp only [isDescendantOrSelf, Bool.or_eq_true, beq_iff_eq, List.isPrefixOf_iff_prefix]
  constructor
  · rintro (rfl | ⟨-, rfl⟩)
    · exact List.prefix_refl _
    · rw [List.append_assoc, List.singleton_append, List.splitOn_append_cons_self]
      exact List.prefix_append _ _
  · rintro ⟨rest, shape⟩
    cases rest with
    | nil =>
      refine .inl ?_
      rw [List.append_nil] at shape
      rw [← joinPath_split candidate, ← shape, joinPath_split]
    | cons next rest =>
      refine .inr ⟨joinPath (next :: rest), ?_⟩
      rw [← joinPath_split candidate, ← shape,
        joinPath_append (List.splitOn_ne_nil _ _) (List.cons_ne_nil _ _), joinPath_split]

variable {parent : Text}

theorem parentPath_eq_some (hit : parentPath path = some parent) :
    parent.splitOn '/' = (path.splitOn '/').dropLast ∧ 2 ≤ depth path := by
  have plain : ∀ segment ∈ path.splitOn '/', '/' ∉ segment := fun _ => slash_notMem_split
  unfold parentPath at hit
  unfold depth
  split at hit
  · cases hit
  · cases hit
  · rename_i many single
    cases hit
    obtain ⟨first, tail, shape⟩ := List.exists_cons_of_ne_nil (List.splitOn_ne_nil '/' path)
    obtain ⟨second, tail, rfl⟩ : ∃ second rest, tail = second :: rest := by
      refine List.exists_cons_of_ne_nil ?_
      rintro rfl
      exact single _ shape
    refine ⟨split_joinPath (fun segment mem => plain segment (List.dropLast_subset _ mem)) ?_, ?_⟩
    · rw [shape]
      simp
    · simp [shape]

theorem depth_parentPath (hit : parentPath path = some parent) : depth path = depth parent + 1 := by
  obtain ⟨segs, deep⟩ := parentPath_eq_some hit
  unfold depth at *
  rw [segs, List.length_dropLast]
  omega

theorem mem_getAncestorPaths_parent {parent ancestor : Text} (hit : parentPath path = some parent) :
    ancestor ∈ getAncestorPaths path ↔ ancestor ∈ getAncestorPaths parent ∨ ancestor = path := by
  have segs := (parentPath_eq_some hit).1
  have whole := List.dropLast_append_getLast (List.splitOn_ne_nil '/' path)
  rw [mem_getAncestorPaths, mem_getAncestorPaths, segs]
  constructor
  · intro first
    rw [← whole, List.prefix_concat_iff] at first
    rcases first with same | above
    · refine .inr ?_
      rw [← joinPath_split ancestor, same, whole, joinPath_split]
    · exact .inl above
  · rintro (above | rfl)
    · exact above.trans (List.dropLast_prefix _)
    · exact List.prefix_refl _

theorem parent_mem_getAncestorPaths (hit : parentPath path = some parent) :
    parent ∈ getAncestorPaths path :=
  (mem_getAncestorPaths_parent hit).mpr (.inl (self_mem_getAncestorPaths parent))

theorem getAncestorPaths_dropLast (hit : parentPath path = some parent) :
    (getAncestorPaths path).dropLast = getAncestorPaths parent := by
  obtain ⟨segs, deep⟩ := parentPath_eq_some hit
  unfold depth at deep
  unfold getAncestorPaths
  dsimp only
  rw [← List.map_dropLast, segs, List.length_dropLast]
  have shorter : (List.range (path.splitOn '/').length).dropLast =
      List.range ((path.splitOn '/').length - 1) := by
    have whole : (path.splitOn '/').length = (path.splitOn '/').length - 1 + 1 := by omega
    rw [whole, List.range_succ, List.dropLast_concat, Nat.add_sub_cancel]
  rw [shorter]
  refine List.map_congr_left fun i within => ?_
  have bound := List.mem_range.mp within
  rw [List.dropLast_eq_take, List.take_take]
  congr 2
  omega

/-- The folders of depth one have no parent. -/
theorem parentPath_eq_none : parentPath path = none ↔ depth path = 1 := by
  unfold parentPath depth
  constructor
  · intro nothing
    split at nothing
    · rename_i empty
      exact absurd empty (List.splitOn_ne_nil _ _)
    · rename_i single
      rw [single]
      rfl
    · cases nothing
  · intro single
    obtain ⟨seg, shape⟩ := List.length_eq_one_iff.mp single
    rw [shape]

end NexTerminal.Inventory
