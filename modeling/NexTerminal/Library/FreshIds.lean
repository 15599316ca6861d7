import Mathlib.Data.List.Forall2
import NexTerminal.Library.SeqMap

namespace NexTerminal.Library

variable {K A B : Type*} [DecidableEq K]

structure Minting (K : Type*) where
  idMap : SeqMap K K
  drawn : Nat

namespace Minting

def empty : Minting K := ⟨.empty, 0⟩

variable (fresh : Nat → K)

def mint (given : Minting K) (id : K) : Minting K := ⟨given.idMap.set id (fresh given.drawn), given.drawn + 1⟩

def mintAll (given : Minting K) (ids : List K) : Minting K := ids.foldl (mint fresh) given

/-- Copies the records one after another. A copy sees the ids given up to its own. -/
def copyEach (key : A → K) (copy : SeqMap K K → K → A → B) (given : Minting K) :
    List A → List B × Minting K
  | [] => ([], given)
  | item :: rest =>
    let next := given.mint fresh (key item)
    let copies := copyEach key copy next rest
    (copy next.idMap (fresh given.drawn) item :: copies.1, copies.2)

/-- Whatever the earlier one maps, the later one maps in the same way. -/
def Within (earlier later : SeqMap K K) : Prop :=
  ∀ id new, earlier.get? id = some new → later.get? id = some new

theorem Within.trans {a b c : SeqMap K K} (first : Within a b) (second : Within b c) : Within a c :=
  fun id new hit => second id new (first id new hit)

variable {fresh} {given : Minting K} {id : K} {ids : List K}

theorem get?_mint (given : Minting K) (id other : K) :
    (given.mint fresh id).idMap.get? other =
      if id = other then some (fresh given.drawn) else given.idMap.get? other :=
  SeqMap.get?_set _ _ _ _

theorem within_mint (unknown : given.idMap.get? id = none) : Within given.idMap (given.mint fresh id).idMap := by
  intro other new hit
  rw [get?_mint, if_neg, hit]
  rintro rfl
  rw [unknown] at hit
  cases hit

theorem mintAll_append (given : Minting K) (front back : List K) :
    given.mintAll fresh (front ++ back) = (given.mintAll fresh front).mintAll fresh back :=
  List.foldl_append

theorem drawn_mintAll (given : Minting K) (ids : List K) :
    (given.mintAll fresh ids).drawn = given.drawn + ids.length := by
  induction ids generalizing given with
  | nil => rfl
  | cons id rest ih =>
    rw [mintAll, List.foldl_cons, ← mintAll, ih, List.length_cons]
    simp only [mint]
    omega

theorem get?_mintAll_absent (absent : id ∉ ids) : (given.mintAll fresh ids).idMap.get? id = given.idMap.get? id := by
  induction ids generalizing given with
  | nil => rfl
  | cons first rest ih =>
    rw [List.mem_cons, not_or] at absent
    rw [mintAll, List.foldl_cons, ← mintAll, ih absent.2, get?_mint, if_neg (Ne.symm absent.1)]

theorem get?_mintAll_given (mem : id ∈ ids) : ∃ k, (given.mintAll fresh ids).idMap.get? id = some (fresh k) := by
  induction ids generalizing given with
  | nil => cases mem
  | cons first rest ih =>
    rw [mintAll, List.foldl_cons, ← mintAll]
    by_cases later : id ∈ rest
    · exact ih later
    · obtain rfl := (List.mem_cons.mp mem).resolve_right later
      exact ⟨given.drawn, by rw [get?_mintAll_absent later, get?_mint, if_pos rfl]⟩

theorem isSome_mintAll : ((given.mintAll fresh ids).idMap.get? id).isSome ↔
    id ∈ ids ∨ (given.idMap.get? id).isSome := by
  by_cases mem : id ∈ ids
  · obtain ⟨k, hit⟩ := @get?_mintAll_given _ _ fresh given id ids mem
    simp [hit, mem]
  · simp [get?_mintAll_absent mem, mem]

theorem within_mintAll (unknown : ∀ id ∈ ids, given.idMap.get? id = none) :
    Within given.idMap (given.mintAll fresh ids).idMap := by
  intro id new hit
  rw [get?_mintAll_absent, hit]
  intro mem
  rw [unknown id mem] at hit
  cases hit

def Drawn (fresh : Nat → K) (ids : SeqMap K K) : Prop := ∀ id new, ids.get? id = some new → ∃ k, new = fresh k

theorem drawn_empty : Drawn fresh (empty : Minting K).idMap := nofun

theorem Drawn.mint (drawn : Drawn fresh given.idMap) (id : K) : Drawn fresh (given.mint fresh id).idMap := by
  intro other new hit
  rw [get?_mint] at hit
  split at hit
  · exact ⟨given.drawn, (Option.some.inj hit).symm⟩
  · exact drawn other new hit

theorem Drawn.mintAll (drawn : Drawn fresh given.idMap) (ids : List K) :
    Drawn fresh (given.mintAll fresh ids).idMap := by
  induction ids generalizing given with
  | nil => exact drawn
  | cons id rest ih => exact ih (drawn.mint id)

variable {key : A → K} {copy : SeqMap K K → K → A → B} {items : List A}

theorem copyEach_snd (given : Minting K) (items : List A) :
    (copyEach fresh key copy given items).2 = given.mintAll fresh (items.map key) := by
  induction items generalizing given with
  | nil => rfl
  | cons item rest ih => exact ih (given.mint fresh (key item))

/-- A record and its copy: the copy was made from a map that grew into the last one, and its
own id is already in there. -/
def CopyOf (fresh : Nat → K) (key : A → K) (copy : SeqMap K K → K → A → B) (first last : SeqMap K K)
    (item : A) (made : B) : Prop :=
  ∃ (seen : SeqMap K K) (k : Nat), made = copy seen (fresh k) item ∧ seen.get? (key item) = some (fresh k) ∧
    Within first seen ∧ Within seen last ∧ Drawn fresh seen

theorem copyEach_spec (nodup : (items.map key).Nodup) (unknown : ∀ item ∈ items, given.idMap.get? (key item) = none)
    (drawn : Drawn fresh given.idMap) :
    List.Forall₂ (CopyOf fresh key copy given.idMap (given.mintAll fresh (items.map key)).idMap) items
      (copyEach fresh key copy given items).1 := by
  induction items generalizing given with
  | nil => exact .nil
  | cons item rest ih =>
    rw [List.map_cons, List.nodup_cons] at nodup
    have head := unknown item List.mem_cons_self
    have grows : Within given.idMap (given.mint fresh (key item)).idMap := within_mint head
    have later : ∀ other ∈ rest, (given.mint fresh (key item)).idMap.get? (key other) = none := by
      intro other mem
      rw [get?_mint, if_neg, unknown other (List.mem_cons_of_mem _ mem)]
      exact fun same => nodup.1 (same ▸ List.mem_map_of_mem mem)
    have tail := ih nodup.2 later (drawn.mint (key item))
    refine .cons ⟨_, given.drawn, rfl, by rw [get?_mint, if_pos rfl], grows, ?_, drawn.mint _⟩ (tail.imp ?_)
    · refine within_mintAll fun id mem => ?_
      obtain ⟨other, present, rfl⟩ := List.mem_map.mp mem
      exact later other present
    · rintro other made ⟨seen, k, shape, own, from', to', stream⟩
      exact ⟨seen, k, shape, own, grows.trans from', to', stream⟩

theorem copyEach_map_same {seenAs : A → A} (sameKey : ∀ item, key (seenAs item) = key item)
    (sameCopy : ∀ seen new item, copy seen new (seenAs item) = copy seen new item) (given : Minting K)
    (items : List A) :
    copyEach fresh key copy given (items.map seenAs) = copyEach fresh key copy given items := by
  induction items generalizing given with
  | nil => rfl
  | cons item rest ih =>
    simp [copyEach, sameKey, sameCopy, ih]

theorem mem_zip_of_forall₂ {ids : SeqMap K K} {key' : B → K} {made : List B} {new : K}
    (images : List.Forall₂ (fun item image => ids.get? (key item) = some (key' image)) items made)
    (mem : id ∈ items.map key) (hit : ids.get? id = some new) :
    (id, new) ∈ (items.map key).zip (made.map key') := by
  induction images with
  | nil => cases mem
  | @cons item image rest made head tail ih =>
    rw [List.map_cons, List.map_cons, List.zip_cons_cons, List.mem_cons]
    rcases List.mem_cons.mp mem with rfl | later
    · exact .inl (Prod.ext rfl (Option.mem_unique hit head))
    · exact .inr (ih later)

variable {fresh' : Nat → K} {ρ : K → K}

def Renamed (ρ : K → K) (given given' : Minting K) : Prop :=
  given'.drawn = given.drawn ∧ ∀ id, given'.idMap.get? id = (given.idMap.get? id).map ρ

theorem renamed_empty : Renamed ρ (empty : Minting K) empty := ⟨rfl, fun _ => rfl⟩

variable {given' : Minting K}

theorem Renamed.mint (renamed : Renamed ρ given given') (renames : ∀ k, ρ (fresh k) = fresh' k)
    (id : K) : Renamed ρ (given.mint fresh id) (given'.mint fresh' id) := by
  refine ⟨congrArg (· + 1) renamed.1, fun other => ?_⟩
  rw [get?_mint, get?_mint, renamed.1]
  split
  · rw [Option.map_some, renames]
  · exact renamed.2 other

/-- Minting commutes with renaming the fresh ids. -/
theorem Renamed.mintAll (renamed : Renamed ρ given given') (renames : ∀ k, ρ (fresh k) = fresh' k)
    (ids : List K) : Renamed ρ (given.mintAll fresh ids) (given'.mintAll fresh' ids) := by
  induction ids generalizing given given' with
  | nil => exact renamed
  | cons id rest ih => exact ih (renamed.mint renames id)

theorem Renamed.copyEach {copy' : SeqMap K K → K → A → B} {rename : B → B} {items' : List A}
    (renamed : Renamed ρ given given') (renames : ∀ k, ρ (fresh k) = fresh' k)
    (alike : List.Forall₂ (fun item item' => key item' = key item ∧
      ∀ (seen seen' : SeqMap K K) (new : K), (∀ id, seen'.get? id = (seen.get? id).map ρ) →
        copy' seen' (ρ new) item' = rename (copy seen new item)) items items') :
    (copyEach fresh' key copy' given' items').1 = (copyEach fresh key copy given items).1.map rename := by
  induction alike generalizing given given' with
  | nil => rfl
  | @cons item item' rest rest' head tail ih =>
    have next := renamed.mint renames (key item)
    have first := head.2 _ _ (fresh given.drawn) next.2
    simp only [Minting.copyEach, head.1, renamed.1, ← renames]
    exact congrArg₂ List.cons first (ih next)

end Minting

end NexTerminal.Library
