import Mathlib.Data.List.Basic
import Mathlib.Data.List.Infix
import Mathlib.Tactic.Common
import NexTerminal.Library.Sequences

namespace NexTerminal.Library

inductive Move (N : Type*)
  | enter (name : N)
  | stay
  | leave
deriving DecidableEq

namespace Move

variable {N : Type*}

def isEnter : Move N → Bool
  | .enter _ => true
  | _ => false

def isLeave : Move N → Bool
  | .leave => true
  | _ => false

end Move

section
variable {N : Type*}

/-- The directories entered and not left, from those already entered. Nothing is left above
the start. -/
def walk (names : List N) : List (Move N) → Option (List N)
  | [] => some names
  | .enter name :: rest => walk (names ++ [name]) rest
  | .stay :: rest => walk names rest
  | .leave :: rest => if names.isEmpty then none else walk names.dropLast rest

/-- The same from the top of everything, which is its own parent. -/
def settleNames (names : List N) : List (Move N) → List N
  | [] => names
  | .enter name :: rest => settleNames (names ++ [name]) rest
  | .stay :: rest => settleNames names rest
  | .leave :: rest => settleNames names.dropLast rest

/-- At no point have more directories been left than entered. -/
def NeverAbove (moves : List (Move N)) : Prop :=
  ∀ before, before <+: moves → before.countP Move.isLeave ≤ before.countP Move.isEnter

/-- The names that are left once each departure has cancelled the entry before it. -/
inductive Survive : List (Move N) → List N → Prop
  | entered (names : List N) : Survive (names.map .enter) names
  | stayed {before after names} : Survive (before ++ after) names → Survive (before ++ .stay :: after) names
  | left {before after name names} : Survive (before ++ after) names →
      Survive (before ++ .enter name :: .leave :: after) names

variable {names reached : List N} {moves : List (Move N)}

theorem walk_append (names : List N) (moves more : List (Move N)) :
    walk names (moves ++ more) = (walk names moves).bind fun reached => walk reached more := by
  induction moves generalizing names with
  | nil => rfl
  | cons move rest ih =>
    cases move with
    | enter name | stay => exact ih _
    | leave =>
      rw [List.cons_append, walk, walk]
      split
      · rfl
      · exact ih _

theorem walk_enters (names more : List N) : walk names (more.map .enter) = some (names ++ more) := by
  induction more generalizing names with
  | nil => rw [List.map_nil, walk, List.append_nil]
  | cons name rest ih => rw [List.map_cons, walk, ih, List.append_assoc, List.singleton_append]

theorem walk_enter_leave (names : List N) (name : N) (more : List (Move N)) :
    walk names (.enter name :: .leave :: more) = walk names more := by
  rw [walk, walk, if_neg (by simp), List.dropLast_concat]

theorem Survive.walks (survive : Survive moves names) : walk [] moves = some names := by
  induction survive with
  | entered names => exact walk_enters [] names
  | stayed _ ih =>
    rw [walk_append] at ih ⊢
    exact ih
  | left _ ih =>
    rw [walk_append] at ih ⊢
    simp only [walk_enter_leave]
    exact ih

theorem survive_of_walk (run : walk names moves = some reached) : Survive (names.map .enter ++ moves) reached := by
  induction moves generalizing names with
  | nil =>
    cases run
    rw [List.append_nil]
    exact .entered reached
  | cons move rest ih =>
    cases move with
    | enter name =>
      have later := ih run
      rwa [List.map_append, List.append_assoc] at later
    | stay => exact .stayed (ih run)
    | leave =>
      rw [walk] at run
      split at run
      · cases run
      · rename_i some_
        obtain ⟨front, last, rfl⟩ := List.eq_nil_or_concat names |>.resolve_left (by simpa using some_)
        rw [List.concat_eq_append] at run ⊢
        rw [List.dropLast_concat] at run
        rw [List.map_append, List.append_assoc]
        exact .left (ih run)

theorem walk_eq_some_iff : walk [] moves = some reached ↔ Survive moves reached :=
  ⟨survive_of_walk, Survive.walks⟩

theorem forall_prefix_cons {α : Type*} {P : List α → Prop} (first : α) (rest : List α) :
    (∀ pre, pre <+: first :: rest → P pre) ↔ P [] ∧ ∀ pre, pre <+: rest → P (first :: pre) := by
  constructor
  · intro all
    exact ⟨all [] List.nil_prefix, fun pre start => all _ (List.cons_prefix_cons.mpr ⟨rfl, start⟩)⟩
  · rintro ⟨none, later⟩ pre start
    rcases pre with _ | ⟨head, pre⟩
    · exact none
    · obtain ⟨rfl, within⟩ := List.cons_prefix_cons.mp start
      exact later pre within

theorem walk_isSome (names : List N) (moves : List (Move N)) : (walk names moves).isSome ↔
    ∀ pre, pre <+: moves → pre.countP Move.isLeave ≤ names.length + pre.countP Move.isEnter := by
  induction moves generalizing names with
  | nil => simp [walk]
  | cons move rest ih =>
    rw [forall_prefix_cons]
    simp only [List.countP_nil, Nat.zero_le, true_and, List.countP_cons]
    cases move with
    | enter name =>
      rw [walk, ih, List.length_append, List.length_singleton]
      refine forall₂_congr fun pre _ => ?_
      simp only [Move.isEnter, Move.isLeave, if_true, Bool.false_eq_true, if_false]
      omega
    | stay =>
      rw [walk, ih]
      refine forall₂_congr fun pre _ => ?_
      simp only [Move.isEnter, Move.isLeave, Bool.false_eq_true]
      omega
    | leave =>
      rw [walk]
      simp only [Move.isEnter, Move.isLeave, if_true, Bool.false_eq_true, if_false]
      split
      · rename_i none_
        rw [List.isEmpty_iff] at none_
        subst none_
        refine iff_of_false (by simp) fun within => ?_
        have bound := within [] List.nil_prefix
        simp at bound
      · rename_i some_
        have positive : 0 < names.length := List.length_pos_iff.mpr (by simpa using some_)
        rw [ih, List.length_dropLast]
        refine forall₂_congr fun pre _ => ?_
        omega

theorem mem_walk (run : walk names moves = some reached) {name : N} (mem : name ∈ reached) :
    name ∈ names ∨ .enter name ∈ moves := by
  induction moves generalizing names with
  | nil =>
    cases run
    exact .inl mem
  | cons move rest ih =>
    cases move with
    | enter first =>
      rcases ih run with pre | later
      · rcases List.mem_append.mp pre with pre | new
        · exact .inl pre
        · exact .inr (List.mem_singleton.mp new ▸ List.mem_cons_self)
      · exact .inr (List.mem_cons_of_mem _ later)
    | stay => exact (ih run).imp_right (List.mem_cons_of_mem _)
    | leave =>
      rw [walk] at run
      split at run
      · cases run
      · exact (ih run).imp List.mem_of_mem_dropLast (List.mem_cons_of_mem _)

theorem exists_survive_iff : (∃ names, Survive moves names) ↔ NeverAbove moves := by
  have counted := walk_isSome [] moves
  simp only [List.length_nil, Nat.zero_add] at counted
  rw [NeverAbove, ← counted, Option.isSome_iff_exists]
  exact exists_congr fun names => walk_eq_some_iff.symm

end

section
variable {α : Type*} [BEq α] (separator : α)

def segments (text : List α) : List (List α) := (text.splitOn separator).filter (! ·.isEmpty)

structure IsSegment (segment : List α) : Prop where
  nonempty : segment ≠ []
  plain : separator ∉ segment

def joined (names : List (List α)) : List α := names.flatMap (separator :: ·)

@[simp] theorem segments_nil : segments separator [] = [] := by simp [segments]

variable {separator} [LawfulBEq α] {text more : List α} {names : List (List α)}

theorem mem_segments {segment : List α} (mem : segment ∈ segments separator text) : IsSegment separator segment := by
  obtain ⟨split, filled⟩ := List.mem_filter.mp mem
  exact ⟨by simpa using filled, notMem_splitOn split⟩

theorem segments_append_cons (text more : List α) :
    segments separator (text ++ separator :: more) = segments separator text ++ segments separator more := by
  rw [segments, List.splitOn_append_cons_self, List.filter_append]
  rfl

theorem segments_single (single : IsSegment separator text) : segments separator text = [text] := by
  rw [segments, List.splitOn_eq_singleton single.plain]
  exact List.filter_eq_self.mpr (by simpa using single.nonempty)

theorem segments_append_joined (all : ∀ name ∈ names, IsSegment separator name) (text : List α) :
    segments separator (text ++ joined separator names) = segments separator text ++ names := by
  induction names generalizing text with
  | nil => rw [joined, List.flatMap_nil, List.append_nil, List.append_nil]
  | cons name rest ih =>
    have later := ih (fun other mem => all other (List.mem_cons_of_mem _ mem)) (text ++ separator :: name)
    rw [segments_append_cons, segments_single (all name List.mem_cons_self), List.append_assoc,
      List.append_assoc] at later
    exact later

/-- Names that are segments come back from the joined path. -/
theorem segments_joined (all : ∀ name ∈ names, IsSegment separator name) :
    segments separator (joined separator names) = names := by
  have read := segments_append_joined all []
  rwa [segments_nil, List.nil_append, List.nil_append] at read

end

end NexTerminal.Library
