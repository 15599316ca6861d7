import Mathlib.Algebra.GroupWithZero.Nat
import Mathlib.Data.List.Nodup

namespace NexTerminal.Library

variable {K V : Type*}

structure SeqMap (K V : Type*) where
  entries : List (K × V)
  distinct : (entries.map Prod.fst).Nodup

namespace SeqMap

variable [DecidableEq K]

def empty : SeqMap K V := ⟨[], List.nodup_nil⟩

instance : Inhabited (SeqMap K V) := ⟨empty⟩

def get? (map : SeqMap K V) (k : K) : Option V := map.entries.lookup k

def has (map : SeqMap K V) (k : K) : Bool := (map.get? k).isSome

def keys (map : SeqMap K V) : List K := map.entries.map Prod.fst

def values (map : SeqMap K V) : List V := map.entries.map Prod.snd

variable {map : SeqMap K V} {k : K}

theorem mem_entries {v : V} : (k, v) ∈ map.entries ↔ map.get? k = some v := by
  obtain ⟨entries, nodup⟩ := map
  simp only [get?]
  induction entries with
  | nil => simp
  | cons entry rest ih =>
    obtain ⟨key, value⟩ := entry
    rw [List.map_cons, List.nodup_cons] at nodup
    rw [List.mem_cons, ih nodup.2, List.lookup_cons, Prod.mk.injEq]
    by_cases same : k = key
    · subst same
      have absent : rest.lookup k ≠ some v := by
        intro hit
        exact nodup.1 (List.mem_map.mpr ⟨(k, v), (ih nodup.2).mpr hit, rfl⟩)
      simp only [beq_self_eq_true, true_and, absent, or_false, Option.some.injEq]
      exact eq_comm
    · have differ : (k == key) = false := by simpa using same
      simp [same, differ]

theorem mem_values {v : V} : v ∈ map.values ↔ ∃ k, map.get? k = some v := by
  simp [values, mem_entries]

theorem mem_keys : k ∈ map.keys ↔ (map.get? k).isSome = true := by
  simp [keys, mem_entries, Option.isSome_iff_exists]

def set (map : SeqMap K V) (k : K) (v : V) : SeqMap K V :=
  if known : k ∈ map.keys then
    ⟨map.entries.map fun entry => if entry.1 = k then (entry.1, v) else entry, by
      rw [List.map_map]
      convert map.distinct using 2
      funext entry
      simp only [Function.comp_apply]
      split <;> rfl⟩
  else
    ⟨map.entries ++ [(k, v)], by
      rw [List.map_append, List.nodup_append]
      refine ⟨map.distinct, by simp, ?_⟩
      intro key member other single same
      rw [List.map_singleton, List.mem_singleton] at single
      subst single same
      exact known member⟩

def erase (map : SeqMap K V) (k : K) : SeqMap K V :=
  ⟨map.entries.filter fun entry => entry.1 ≠ k, map.distinct.sublist (List.filter_sublist.map _)⟩

def mapEntries (map : SeqMap K V) (f : K → V → V) : SeqMap K V :=
  ⟨map.entries.map fun entry => (entry.1, f entry.1 entry.2), by
    rw [List.map_map]
    exact map.distinct⟩

def mapValues (map : SeqMap K V) (f : V → V) : SeqMap K V := map.mapEntries fun _ => f

def filterValues (map : SeqMap K V) (keep : V → Bool) : SeqMap K V :=
  ⟨map.entries.filter fun entry => keep entry.2, map.distinct.sublist (List.filter_sublist.map _)⟩

theorem get?_empty (k : K) : (empty : SeqMap K V).get? k = none := rfl

/-- Setting a key changes what is under that key only. -/
theorem get?_set (map : SeqMap K V) (k : K) (v : V) (a : K) :
    (map.set k v).get? a = if k = a then some v else map.get? a := by
  refine Option.ext fun w => ?_
  rw [← mem_entries, set]
  by_cases known : k ∈ map.keys
  · rw [dif_pos known]
    obtain ⟨old, hit⟩ := Option.isSome_iff_exists.mp (mem_keys.mp known)
    simp only [List.mem_map, Prod.exists, mem_entries]
    by_cases same : k = a
    · subst same
      rw [if_pos rfl]
      constructor
      · rintro ⟨key, value, -, shape⟩
        by_cases own : key = k
        · rw [if_pos own, Prod.mk.injEq] at shape
          exact congrArg some shape.2
        · rw [if_neg own, Prod.mk.injEq] at shape
          exact absurd shape.1 own
      · intro shape
        exact ⟨k, old, hit, by rw [if_pos rfl, Option.some.inj shape]⟩
    · rw [if_neg same]
      constructor
      · rintro ⟨key, value, held, shape⟩
        by_cases own : key = k
        · rw [if_pos own, Prod.mk.injEq] at shape
          exact absurd (own.symm.trans shape.1) same
        · rw [if_neg own, Prod.mk.injEq] at shape
          obtain ⟨rfl, rfl⟩ := shape
          exact held
      · intro held
        exact ⟨a, w, held, by rw [if_neg (Ne.symm same)]⟩
  · rw [dif_neg known]
    have absent : map.get? k = none := by simpa [mem_keys] using known
    simp only [List.mem_append, mem_entries]
    by_cases same : k = a
    · subst same
      rw [if_pos rfl, absent]
      simp [eq_comm]
    · simp [same, Ne.symm same]

theorem get?_erase (map : SeqMap K V) (k a : K) :
    (map.erase k).get? a = if k = a then none else map.get? a := by
  refine Option.ext fun w => ?_
  rw [← mem_entries, erase, List.mem_filter, mem_entries]
  by_cases same : k = a
  · simp [same]
  · simp [same, Ne.symm same]

theorem get?_foldl_erase {L : Type*} (key : L → K) (map : SeqMap K V) (names : List L) (a : K) :
    (names.foldl (fun map name => map.erase (key name)) map).get? a =
      if a ∈ names.map key then none else map.get? a := by
  induction names generalizing map with
  | nil => simp
  | cons name rest ih =>
    rw [List.foldl_cons, ih, get?_erase, List.map_cons]
    by_cases here : a = key name
    · simp [here]
    · simp [here, Ne.symm here]

theorem get?_foldl_set_other {L : Type*} {key : L → K} (map : SeqMap K V) {writes : List (L × V)} {a : K}
    (unwritten : a ∉ writes.map fun write => key write.1) :
    (writes.foldl (fun map write => map.set (key write.1) write.2) map).get? a = map.get? a := by
  induction writes generalizing map with
  | nil => rfl
  | cons write rest ih =>
    rw [List.map_cons, List.mem_cons, not_or] at unwritten
    rw [List.foldl_cons, ih _ unwritten.2, get?_set, if_neg (Ne.symm unwritten.1)]

theorem get?_foldl_set {L : Type*} {key : L → K} (map : SeqMap K V) {writes : List (L × V)}
    (ne : (writes.map fun write => key write.1).Nodup) {name : L} {v : V} (written : (name, v) ∈ writes) :
    (writes.foldl (fun map write => map.set (key write.1) write.2) map).get? (key name) = some v := by
  induction writes generalizing map with
  | nil => exact absurd written List.not_mem_nil
  | cons write rest ih =>
    rw [List.map_cons, List.nodup_cons] at ne
    rw [List.foldl_cons]
    obtain rfl | later := List.mem_cons.mp written
    · rw [get?_foldl_set_other _ ne.1, get?_set, if_pos rfl]
    · exact ih _ ne.2 later

theorem get?_mapEntries (map : SeqMap K V) (f : K → V → V) (a : K) :
    (map.mapEntries f).get? a = (map.get? a).map (f a) := by
  refine Option.ext fun w => ?_
  rw [← mem_entries, mapEntries]
  simp only [List.mem_map, Prod.exists, mem_entries, Prod.mk.injEq, Option.map_eq_some_iff]
  constructor
  · rintro ⟨key, value, held, rfl, rfl⟩
    exact ⟨value, held, rfl⟩
  · rintro ⟨value, held, rfl⟩
    exact ⟨a, value, held, rfl, rfl⟩

theorem get?_mapValues (map : SeqMap K V) (f : V → V) (a : K) :
    (map.mapValues f).get? a = (map.get? a).map f := get?_mapEntries map _ a

omit [DecidableEq K] in
theorem keys_mapValues (map : SeqMap K V) (f : V → V) : (map.mapValues f).keys = map.keys := by
  simp only [keys, mapValues, mapEntries, List.map_map]
  rfl

theorem get?_filterValues (map : SeqMap K V) (keep : V → Bool) (a : K) :
    (map.filterValues keep).get? a = (map.get? a).filter keep := by
  refine Option.ext fun w => ?_
  rw [← mem_entries, filterValues, List.mem_filter, mem_entries, Option.filter_eq_some_iff]

omit [DecidableEq K] in
theorem ext_entries {other : SeqMap K V} (same : map.entries = other.entries) : map = other := by
  cases map
  cases other
  cases same
  rfl

theorem entries_set_known (known : k ∈ map.keys) (v : V) :
    (map.set k v).entries = map.entries.map fun entry => if entry.1 = k then (entry.1, v) else entry := by
  rw [set, dif_pos known]

theorem entries_set_new (unknown : k ∉ map.keys) (v : V) : (map.set k v).entries = map.entries ++ [(k, v)] := by
  rw [set, dif_neg unknown]

theorem set_self {v : V} (held : map.get? k = some v) : map.set k v = map := by
  have known : k ∈ map.keys := mem_keys.mpr (by rw [held]; rfl)
  apply ext_entries
  rw [entries_set_known known]
  conv_rhs => rw [← List.map_id map.entries]
  refine List.map_congr_left fun entry mem => ?_
  split
  · rename_i same
    have value := mem_entries.mp (show (entry.1, entry.2) ∈ map.entries from mem)
    rw [same, held] at value
    rw [Option.some.inj value]
    rfl
  · rfl

theorem keys_set_known (known : k ∈ map.keys) (v : V) : (map.set k v).keys = map.keys := by
  rw [keys, entries_set_known known, keys, List.map_map]
  refine List.map_congr_left fun entry _ => ?_
  rw [Function.comp_apply]
  split <;> rfl

theorem keys_set_new (unknown : k ∉ map.keys) (v : V) : (map.set k v).keys = map.keys ++ [k] := by
  rw [keys, entries_set_new unknown, keys, List.map_append, List.map_singleton]

theorem set_set (map : SeqMap K V) (k : K) (v w : V) : (map.set k v).set k w = map.set k w := by
  apply ext_entries
  have there : k ∈ (map.set k v).keys := mem_keys.mpr (by rw [get?_set, if_pos rfl]; rfl)
  rw [entries_set_known there]
  by_cases known : k ∈ map.keys
  · rw [entries_set_known known, entries_set_known known, List.map_map]
    refine List.map_congr_left fun entry _ => ?_
    by_cases own : entry.1 = k <;> simp [own]
  · rw [entries_set_new known, entries_set_new known, List.map_append, List.map_singleton, if_pos rfl]
    congr 1
    conv_rhs => rw [← List.map_id map.entries]
    refine List.map_congr_left fun entry mem => ?_
    refine if_neg fun own => known ?_
    rw [← own]
    exact List.mem_map_of_mem mem

theorem entries_erase (map : SeqMap K V) (k : K) :
    (map.erase k).entries = map.entries.filter fun entry => entry.1 ≠ k := rfl

theorem erase_set (map : SeqMap K V) (k : K) (v : V) : (map.set k v).erase k = map.erase k := by
  apply ext_entries
  rw [entries_erase, entries_erase]
  by_cases known : k ∈ map.keys
  · rw [entries_set_known known]
    induction map.entries with
    | nil => rfl
    | cons entry rest ih =>
      rw [List.map_cons]
      by_cases own : entry.1 = k
      · rw [if_pos own, List.filter_cons_of_neg (by simpa using own), List.filter_cons_of_neg (by simpa using own), ih]
      · rw [if_neg own, List.filter_cons_of_pos (by simpa using own), List.filter_cons_of_pos (by simpa using own), ih]
  · rw [entries_set_new known, List.filter_append, List.filter_singleton]
    simp

theorem keys_erase (map : SeqMap K V) (k : K) : (map.erase k).keys = map.keys.filter (· ≠ k) := by
  rw [keys, erase, keys, List.filter_map]
  rfl

theorem erase_absent (absent : map.get? k = none) : map.erase k = map := by
  apply ext_entries
  rw [entries_erase, List.filter_eq_self]
  intro entry mem
  have held := mem_entries.mp (show (entry.1, entry.2) ∈ map.entries from mem)
  rw [decide_eq_true_eq]
  intro own
  rw [own, absent] at held
  cases held

theorem length_keys_erase (known : k ∈ map.keys) : (map.erase k).keys.length + 1 = map.keys.length := by
  have nodup : map.keys.Nodup := map.distinct
  have erased : map.keys.filter (· ≠ k) = map.keys.erase k := by
    rw [nodup.erase_eq_filter]
    refine List.filter_congr fun key _ => ?_
    by_cases own : key = k <;> simp [own]
  rw [keys_erase, erased, List.length_erase_of_mem known]
  have some := List.length_pos_of_mem known
  omega

omit [DecidableEq K] in
theorem length_keys_filterValues (map : SeqMap K V) (keep : V → Bool) :
    (map.filterValues keep).keys.length ≤ map.keys.length := by
  rw [keys, keys, filterValues, List.length_map, List.length_map]
  exact List.length_filter_le _ _

end SeqMap

structure SeqSet (K : Type*) where
  items : List K
  distinct : items.Nodup

namespace SeqSet

instance : Membership K (SeqSet K) where
  mem set k := k ∈ set.items

variable {set : SeqSet K}

theorem mem_items {k : K} : k ∈ set.items ↔ k ∈ set := Iff.rfl

def filter (set : SeqSet K) (keep : K → Bool) : SeqSet K :=
  ⟨set.items.filter keep, set.distinct.filter _⟩

@[simp] theorem mem_filter {keep : K → Bool} {a : K} :
    a ∈ set.filter keep ↔ a ∈ set ∧ keep a = true := List.mem_filter

def empty : SeqSet K := ⟨[], List.nodup_nil⟩

@[simp] theorem not_mem_empty (k : K) : k ∉ (empty : SeqSet K) := List.not_mem_nil

variable [DecidableEq K]

instance (k : K) (set : SeqSet K) : Decidable (k ∈ set) := inferInstanceAs (Decidable (k ∈ set.items))

def add (set : SeqSet K) (k : K) : SeqSet K :=
  if known : k ∈ set.items then set
  else ⟨set.items ++ [k], by
    rw [List.nodup_append]
    refine ⟨set.distinct, by simp, ?_⟩
    intro item member other single same
    rw [List.mem_singleton] at single
    subst single same
    exact known member⟩

def erase (set : SeqSet K) (k : K) : SeqSet K := set.filter (· ≠ k)

def addAll (set : SeqSet K) (items : List K) : SeqSet K := items.foldl add set

def ofList (items : List K) : SeqSet K := empty.addAll items

variable {items : List K}

@[simp] theorem mem_add {k a : K} : a ∈ set.add k ↔ a ∈ set ∨ a = k := by
  unfold add
  split
  · rename_i known
    refine ⟨Or.inl, ?_⟩
    rintro (mem | rfl)
    · exact mem
    · exact known
  · exact List.mem_append.trans (or_congr Iff.rfl List.mem_singleton)

@[simp] theorem mem_erase {k a : K} : a ∈ set.erase k ↔ a ∈ set ∧ a ≠ k := by
  simp [erase]

theorem mem_foldl_erase {a : K} : a ∈ items.foldl erase set ↔ a ∈ set ∧ a ∉ items := by
  induction items generalizing set with
  | nil => simp
  | cons item rest ih => rw [List.foldl_cons, ih, mem_erase, List.mem_cons, not_or, and_assoc]

@[simp] theorem mem_addAll {a : K} : a ∈ set.addAll items ↔ a ∈ set ∨ a ∈ items := by
  unfold addAll
  induction items generalizing set with
  | nil => simp
  | cons item rest ih => rw [List.foldl_cons, ih, mem_add, List.mem_cons, or_assoc]

@[simp] theorem mem_ofList {a : K} : a ∈ ofList items ↔ a ∈ items := by
  simp [ofList]

end SeqSet

end NexTerminal.Library
