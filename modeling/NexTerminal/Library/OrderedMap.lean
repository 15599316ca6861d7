import Std.Data.TreeMap
import Mathlib.Data.List.Nodup

namespace NexTerminal.Library

open Std

variable {K V W : Type*} [Ord K] [TransOrd K] [LawfulEqOrd K]

variable {map : TreeMap K V compare}

theorem TreeMap.any_toList {test : K × V → Bool} :
    map.toList.any test = true ↔ ∃ k v, map[k]? = some v ∧ test (k, v) = true := by
  simp

theorem TreeMap.any_toList_eq_false {test : K × V → Bool} :
    map.toList.any test = false ↔ ∀ k v, map[k]? = some v → test (k, v) = false := by
  simp

theorem TreeMap.getElem?_insert_eq {k a : K} {v : V} [DecidableEq K] :
    (map.insert k v)[a]? = if k = a then some v else map[a]? := by
  rw [TreeMap.getElem?_insert]
  simp

theorem TreeMap.getElem?_erase_eq {k a : K} [DecidableEq K] :
    (map.erase k)[a]? = if k = a then none else map[a]? := by
  rw [TreeMap.getElem?_erase]
  simp

theorem TreeMap.nodup_keys_toList (map : TreeMap K V compare) : (map.toList.map Prod.fst).Nodup := by
  have nodup := TreeMap.distinct_keys_toList (t := map)
  rw [List.Nodup, List.pairwise_map]
  refine nodup.imp ?_
  intro a b differ same
  exact differ (LawfulEqCmp.compare_eq_iff_eq.mpr same)

/-- A walk that may overwrite the entry under each key it meets. -/
def overwriteWith (update : K → W → Option V → Option V) (map : TreeMap K V compare)
    (entry : K × W) : TreeMap K V compare :=
  match update entry.1 entry.2 map[entry.1]? with
  | some v => map.insert entry.1 v
  | none => map

section

variable [DecidableEq K] (update : K → W → Option V → Option V)
include update

theorem overwriteWith_getElem? (map : TreeMap K V compare) (entry : K × W) (k : K) :
    (overwriteWith update map entry)[k]? =
      if entry.1 = k then (update entry.1 entry.2 map[entry.1]?).or map[entry.1]? else map[k]? := by
  unfold overwriteWith
  cases hit : update entry.1 entry.2 map[entry.1]? with
  | none =>
    by_cases same : entry.1 = k
    · simp [same]
    · simp [same]
  | some v => simp [TreeMap.getElem?_insert_eq]

theorem foldl_overwriteWith_untouched (entries : List (K × W)) (map : TreeMap K V compare) {k : K}
    (absent : k ∉ entries.map Prod.fst) : (entries.foldl (overwriteWith update) map)[k]? = map[k]? := by
  induction entries generalizing map with
  | nil => rfl
  | cons entry rest ih =>
    simp only [List.map_cons, List.mem_cons, not_or] at absent
    rw [List.foldl_cons, ih _ absent.2, overwriteWith_getElem?, if_neg (Ne.symm absent.1)]

theorem foldl_overwriteWith_getElem? (entries : List (K × W)) (map : TreeMap K V compare)
    (nodup : (entries.map Prod.fst).Nodup) {k : K} {w : W} (mem : (k, w) ∈ entries) :
    (entries.foldl (overwriteWith update) map)[k]? = (update k w map[k]?).or map[k]? := by
  induction entries generalizing map with
  | nil => simp at mem
  | cons entry rest ih =>
    rw [List.map_cons, List.nodup_cons] at nodup
    rw [List.foldl_cons]
    rcases List.mem_cons.mp mem with same | later
    · subst same
      rw [foldl_overwriteWith_untouched update rest _ nodup.1, overwriteWith_getElem?, if_pos rfl]
    · have ne : entry.1 ≠ k := by
        rintro rfl
        exact nodup.1 (List.mem_map.mpr ⟨_, later, rfl⟩)
      rw [ih _ nodup.2 later, overwriteWith_getElem?, if_neg ne]

theorem foldl_toList_getElem? (source : TreeMap K W compare) (map : TreeMap K V compare) (k : K) :
    (source.toList.foldl (overwriteWith update) map)[k]? =
      match source[k]? with
      | some w => (update k w map[k]?).or map[k]?
      | none => map[k]? := by
  cases hit : source[k]? with
  | some w =>
    exact foldl_overwriteWith_getElem? update _ map (TreeMap.nodup_keys_toList source)
      (TreeMap.mem_toList_iff_getElem?_eq_some.mpr hit)
  | none =>
    refine foldl_overwriteWith_untouched update _ map ?_
    intro present
    obtain ⟨⟨key, w⟩, mem, rfl⟩ := List.mem_map.mp present
    rw [TreeMap.mem_toList_iff_getElem?_eq_some.mp mem] at hit
    cases hit

end

theorem foldl_erase_getElem? [DecidableEq K] (keys : List K) (map : TreeMap K V compare) (k : K) :
    (keys.foldl (fun m key => m.erase key) map)[k]? = if k ∈ keys then none else map[k]? := by
  induction keys generalizing map with
  | nil => simp
  | cons key rest ih =>
    rw [List.foldl_cons, ih, TreeMap.getElem?_erase_eq]
    by_cases later : k ∈ rest
    · simp [later]
    · by_cases same : key = k
      · simp [same]
      · simp [same, Ne.symm same]

/-- In a list whose keys ascend, the first `n` entries are those with fewer than
`n` smaller keys. -/
theorem mem_take_iff_of_ascending {entries : List (K × W)}
    (ascending : entries.Pairwise fun a b => compare a.1 b.1 = .lt) {entry : K × W}
    (mem : entry ∈ entries) (n : Nat) :
    entry ∈ entries.take n ↔ (entries.filter fun other => compare other.1 entry.1 == .lt).length < n := by
  induction entries generalizing n with
  | nil => cases mem
  | cons first rest ih =>
    obtain ⟨least, ascending⟩ := List.pairwise_cons.mp ascending
    cases n with
    | zero => simp
    | succ n =>
      by_cases same : entry = first
      · subst same
        have none_below : rest.filter (fun other => compare other.1 entry.1 == .lt) = [] := by
          rw [List.filter_eq_nil_iff]
          intro other inside
          have above := OrientedCmp.gt_of_lt (least other inside)
          simp [above]
        simp [none_below]
      · have inside : entry ∈ rest := (List.mem_cons.mp mem).resolve_left same
        have counted : (compare first.1 entry.1 == .lt) = true := by
          rw [least entry inside]
          rfl
        rw [List.take_succ_cons, List.mem_cons, or_iff_right same, ih ascending inside,
          List.filter_cons, if_pos counted, List.length_cons]
        omega

end NexTerminal.Library
