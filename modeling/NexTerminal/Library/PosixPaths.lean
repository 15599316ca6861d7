import NexTerminal.Library.PathNames

namespace NexTerminal.Library

section
variable {N : Type*}

theorem settleNames_enters (names more : List N) : settleNames names (more.map .enter) = names ++ more := by
  induction more generalizing names with
  | nil => rw [List.map_nil, settleNames, List.append_nil]
  | cons name rest ih => rw [List.map_cons, settleNames, ih, List.append_assoc, List.singleton_append]

theorem mem_settleNames {names : List N} {moves : List (Move N)} {name : N} (mem : name ∈ settleNames names moves) :
    name ∈ names ∨ .enter name ∈ moves := by
  induction moves generalizing names with
  | nil => exact .inl mem
  | cons move rest ih =>
    cases move with
    | enter first =>
      rcases ih mem with pre | later
      · rcases List.mem_append.mp pre with pre | new
        · exact .inl pre
        · exact .inr (List.mem_singleton.mp new ▸ List.mem_cons_self)
      · exact .inr (List.mem_cons_of_mem _ later)
    | stay => exact (ih mem).imp_right (List.mem_cons_of_mem _)
    | leave => exact (ih mem).imp List.mem_of_mem_dropLast (List.mem_cons_of_mem _)

/-- How many directories to leave, and the names to enter then. -/
def relativeNames [DecidableEq N] : List N → List N → Nat × List N
  | a :: start, b :: target => if a = b then relativeNames start target else (start.length + 1, b :: target)
  | start, target => (start.length, target)

theorem relativeNames_below [DecidableEq N] (start below : List N) :
    relativeNames start (start ++ below) = (0, below) := by
  induction start with
  | nil => cases below <;> rfl
  | cons a start ih => rw [List.cons_append, relativeNames, if_pos rfl, ih]

theorem relativeNames_zero [DecidableEq N] {start target : List N} (none : (relativeNames start target).1 = 0) :
    target = start ++ (relativeNames start target).2 := by
  induction start generalizing target with
  | nil => cases target <;> rfl
  | cons a start ih =>
    cases target with
    | nil => cases none
    | cons b target =>
      rw [relativeNames] at none ⊢
      split at none
      · rename_i same
        rw [if_pos same, List.cons_append, ← ih none, same]
      · cases none

end

namespace Posix

abbrev Path := List Char

/-- What a part of a path does to the directory it is met in. -/
def moveOf (segment : Path) : Move Path :=
  if segment = ['.'] then .stay
  else if segment = ['.', '.'] then .leave
  else .enter segment

def moves (path : Path) : List (Move Path) := (segments '/' path).map moveOf

def isAbsolute (path : Path) : Bool := path.head? = some '/'

def absolutePath (names : List Path) : Path := if names.isEmpty then ['/'] else joined '/' names

def relativePath : List Path → Path
  | [] => []
  | first :: rest => first ++ joined '/' rest

/-- The last absolute path and those after it, or all of them from the working directory. -/
def fromLastAbsolute (cwd : Path) (paths : List Path) : List Path :=
  paths.foldl (fun before path => if isAbsolute path then [path] else before ++ [path]) [cwd]

def resolve (cwd : Path) (paths : List Path) : Path :=
  absolutePath (settleNames [] ((fromLastAbsolute cwd paths).flatMap moves))

def relative (cwd start target : Path) : Path :=
  let (ups, downs) := relativeNames (segments '/' (resolve cwd [start])) (segments '/' (resolve cwd [target]))
  relativePath (List.replicate ups ['.', '.'] ++ downs)

def dirname (path : Path) : Path :=
  let front := (segments '/' path).dropLast
  if isAbsolute path then absolutePath front
  else if front.isEmpty then ['.']
  else relativePath front

structure IsName (segment : Path) : Prop where
  single : IsSegment '/' segment
  notCurrent : segment ≠ ['.']
  notParent : segment ≠ ['.', '.']

def names (path : Path) : List Path := settleNames [] (moves path)

variable {list : List Path}

theorem moveOf_name {segment : Path} (name : IsName segment) : moveOf segment = .enter segment := by
  rw [moveOf, if_neg name.notCurrent, if_neg name.notParent]

theorem isName_of_moves {path segment : Path} (entered : .enter segment ∈ moves path) : IsName segment := by
  obtain ⟨part, inside, same⟩ := List.mem_map.mp entered
  unfold moveOf at same
  split at same
  · cases same
  · split at same
    · cases same
    · cases same
      exact ⟨mem_segments inside, ‹_›, ‹_›⟩

theorem isName_of_settle {paths : List Path} {segment : Path}
    (mem : segment ∈ settleNames [] (paths.flatMap moves)) : IsName segment := by
  rcases mem_settleNames mem with none | entered
  · exact absurd none List.not_mem_nil
  · obtain ⟨path, _, inside⟩ := List.mem_flatMap.mp entered
    exact isName_of_moves inside

theorem isName_of_names {path segment : Path} (mem : segment ∈ names path) : IsName segment := by
  refine @isName_of_settle [path] segment ?_
  rwa [List.flatMap_singleton]

theorem segments_absolutePath (all : ∀ name ∈ list, IsName name) : segments '/' (absolutePath list) = list := by
  unfold absolutePath
  split
  · rename_i none
    rw [List.isEmpty_iff.mp none]
    decide
  · exact segments_joined fun name mem => (all name mem).single

theorem names_absolutePath (all : ∀ name ∈ list, IsName name) : names (absolutePath list) = list := by
  have entered : moves (absolutePath list) = list.map .enter := by
    rw [moves, segments_absolutePath all]
    exact List.map_congr_left fun name mem => moveOf_name (all name mem)
  rw [names, entered, settleNames_enters, List.nil_append]

theorem isAbsolute_absolutePath (list : List Path) : isAbsolute (absolutePath list) = true := by
  cases list <;> rfl

theorem resolve_single {path : Path} (absolute : isAbsolute path = true) (cwd : Path) :
    resolve cwd [path] = absolutePath (names path) := by
  rw [resolve, fromLastAbsolute, List.foldl_cons, List.foldl_nil, if_pos absolute, List.flatMap_singleton]
  rfl

theorem resolve_from {base : Path} (absolute : isAbsolute base = true) (cwd path : Path) :
    resolve cwd [base, path] =
      absolutePath (settleNames [] (if isAbsolute path then moves path else moves base ++ moves path)) := by
  rw [resolve, fromLastAbsolute, List.foldl_cons, List.foldl_cons, List.foldl_nil, if_pos absolute]
  split
  · rw [List.flatMap_singleton]
  · rw [List.singleton_append, List.flatMap_cons, List.flatMap_singleton]

theorem dirname_absolutePath (all : ∀ name ∈ list, IsName name) :
    dirname (absolutePath list) = absolutePath list.dropLast := by
  rw [dirname, segments_absolutePath all, if_pos (isAbsolute_absolutePath list)]

/-- A relative path that starts upwards reads `..` or begins with `../`. -/
def startsUp (rel : Path) : Bool := rel == ['.', '.'] || ['.', '.', '/'].isPrefixOf rel

theorem startsUp_ups (ups : Nat) (downs : List Path) :
    startsUp (relativePath (List.replicate (ups + 1) ['.', '.'] ++ downs)) = true := by
  rw [List.replicate_succ, List.cons_append, relativePath]
  cases List.replicate ups ['.', '.'] ++ downs with
  | nil | cons next rest => rfl

section

variable (all : ∀ name ∈ list, IsName name)
include all

/-- A relative path has the segments that it was made of. -/
theorem segments_relativePath : segments '/' (relativePath list) = list := by
  cases list with
  | nil => exact segments_nil '/'
  | cons first rest =>
    rw [relativePath, segments_append_joined fun name mem => (all name (List.mem_cons_of_mem _ mem)).single,
      segments_single (all first List.mem_cons_self).single]
    rfl

theorem startsUp_down : startsUp (relativePath list) = false := by
  have read := segments_relativePath all
  have notParent : ∀ rest, ¬ list = ['.', '.'] :: rest := by
    rintro rest rfl
    exact (all _ List.mem_cons_self).notParent rfl
  rw [startsUp, Bool.or_eq_false_iff, beq_eq_false_iff_ne, ← Bool.not_eq_true, List.isPrefixOf_iff_prefix]
  constructor
  · intro up
    rw [up] at read
    exact notParent [] (read.symm.trans (by decide))
  · rintro ⟨rest, up⟩
    have parts : segments '/' (['.', '.'] ++ '/' :: rest) = segments '/' ['.', '.'] ++ segments '/' rest :=
      segments_append_cons _ _
    have parent : segments '/' ['.', '.'] = [['.', '.']] := by decide
    rw [show ['.', '.'] ++ '/' :: rest = relativePath list from up, read, parent] at parts
    exact notParent _ parts

theorem isAbsolute_relativePath : isAbsolute (relativePath list) = false := by
  cases list with
  | nil => rfl
  | cons first rest =>
    have single := (all first List.mem_cons_self).single
    obtain ⟨letter, letters, rfl⟩ := List.exists_cons_of_ne_nil single.nonempty
    have other : letter ≠ '/' := fun same => single.plain (same ▸ List.mem_cons_self)
    simpa [isAbsolute, relativePath] using other

end

end Posix

end NexTerminal.Library
