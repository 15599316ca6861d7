import NexTerminal.Library.PosixPaths
import NexTerminal.Tftp.Engine

/-! The sandbox around the files of a TFTP server (`path_guard.rs`): the lexical part, with
Unix paths. -/

namespace NexTerminal.Tftp

open Dhcp (Text)
open Library
open Library.Posix (IsName)

/-- What a path is made of; a prefix exists on Windows only. -/
inductive Component
  | rootDir
  | curDir
  | parentDir
  | normal (segment : Text)
deriving DecidableEq

def component (segment : Text) : Option Component :=
  if segment = ['.'] then none
  else if segment = ['.', '.'] then some .parentDir
  else some (.normal segment)

/-- `Path::components`. Only at the start of a relative path is a current directory kept. -/
def components (path : Text) : List Component :=
  let first :=
    if path.head? = some '/' then [.rootDir]
    else if (path.splitOn '/').head? = some ['.'] then [.curDir]
    else []
  first ++ (segments '/' path).filterMap component

/-- `PathBuf::push`. An absolute path takes the place of what was there. -/
def push (path segment : Text) : Text :=
  if segment.head? = some '/' then segment
  else if path.isEmpty || path.getLast? = some '/' then path ++ segment
  else path ++ '/' :: segment

/-- `Path::starts_with`: by whole components. -/
def startsWith (path base : Text) : Bool := (components base).isPrefixOf (components path)

/-- What canonicalising a path leaves: it is absolute and goes straight down. -/
structure Canonical (path : Text) : Prop where
  absolute : path.head? = some '/'
  straight : ∀ segment ∈ segments '/' path, segment ≠ ['.'] ∧ segment ≠ ['.', '.']

def GuardError.message : GuardError → String
  | .pathViolation name => "Path traversal blocked: " ++ String.ofList name
  | .notAFile name => "Not a file: " ++ String.ofList name
  | .fileAlreadyExists name => "File already exists: " ++ String.ofList name
  | .io error => error.message

structure PathGuard where
  root : Text
  canonical : Canonical root

def reserved : List String :=
  ["CON", "PRN", "AUX", "NUL", "COM1", "COM2", "COM3", "COM4", "COM5", "COM6", "COM7", "COM8", "COM9",
    "LPT1", "LPT2", "LPT3", "LPT4", "LPT5", "LPT6", "LPT7", "LPT8", "LPT9"]

/-- Everything from the first dot is ignored, and so are spaces before it. -/
def deviceStem (segment : Text) : Text := (segment.takeWhile (· ≠ '.')).rdropWhile fun c => c = ' ' || c = '.'

def eqIgnoreAsciiCase (a b : Text) : Bool := a.map Char.toLower == b.map Char.toLower

def isReserved (segment : Text) : Bool :=
  reserved.any fun device => eqIgnoreAsciiCase (deviceStem segment) device.toList

def rejectReservedDeviceName (segment filename : Text) : Except GuardError Unit :=
  if isReserved segment then .error (.pathViolation filename) else .ok ()

def cleaned (filename : Text) : Text := filename.dropWhile fun c => c = '/' || c = '\\'

namespace PathGuard

/-- The loop over the components; `segments` are those collected so far. -/
def collect (filename : Text) (segments : List Text) : List Component → Except GuardError (List Text)
  | [] => .ok segments
  | .normal segment :: rest => do
    rejectReservedDeviceName segment filename
    collect filename (segments ++ [segment]) rest
  | .curDir :: rest => collect filename segments rest
  | .parentDir :: rest =>
    if segments.isEmpty then .error (.pathViolation filename)
    else collect filename segments.dropLast rest
  | .rootDir :: _ => .error (.pathViolation filename)

def resolve (guard : PathGuard) (filename : Text) : Except GuardError Text :=
  if filename.contains '\x00' then .error (.pathViolation filename)
  else do
    let segments ← collect filename [] (components (cleaned filename))
    if segments.isEmpty then .error (.pathViolation filename)
    else return segments.foldl push guard.root

def assertContained (guard : PathGuard) (real filename : Text) : Except GuardError Unit :=
  if startsWith real guard.root then .ok () else .error (.pathViolation filename)

end PathGuard

variable {segment : Text}

theorem component_name (name : IsName segment) : component segment = some (.normal segment) := by
  rw [component, if_neg name.notCurrent, if_neg name.notParent]

variable {names : List Text}

theorem filterMap_component (all : ∀ name ∈ names, IsName name) :
    names.filterMap component = names.map .normal := by
  induction names with
  | nil => rfl
  | cons name rest ih =>
    rw [List.filterMap_cons_some (component_name (all name List.mem_cons_self)), List.map_cons,
      ih fun other mem => all other (List.mem_cons_of_mem _ mem)]

variable {path : Text}

theorem components_absolute (absolute : path.head? = some '/') :
    components path = .rootDir :: (segments '/' path).filterMap component := by
  rw [components, if_pos absolute]
  rfl

theorem segments_push (ne : path ≠ []) (single : IsSegment '/' segment) :
    segments '/' (push path segment) = segments '/' path ++ [segment] := by
  have relative : ¬ segment.head? = some '/' := fun first => single.plain (List.mem_of_head? first)
  rw [push, if_neg relative]
  split
  · rename_i ends
    obtain ⟨front, last, rfl⟩ := List.eq_nil_or_concat path |>.resolve_left ne
    have slash : last = '/' := by simpa using ends
    rw [slash, List.concat_eq_append, List.append_assoc, List.singleton_append, segments_append_cons,
      segments_append_cons, segments_nil, List.append_nil, segments_single single]
  · rw [segments_append_cons, segments_single single]

theorem head?_push (absolute : path.head? = some '/') (single : IsSegment '/' segment) :
    (push path segment).head? = some '/' := by
  have relative : ¬ segment.head? = some '/' := fun first => single.plain (List.mem_of_head? first)
  have grown : ∀ more, (path ++ more).head? = some '/' := fun more => by
    rw [List.head?_append, absolute, Option.some_or]
  rw [push, if_neg relative]
  split
  · exact grown _
  · exact grown _

theorem components_foldl_push (absolute : path.head? = some '/') (all : ∀ name ∈ names, IsName name) :
    components (names.foldl push path) = components path ++ names.map .normal := by
  have pushed : ∀ names : List Text, (∀ name ∈ names, IsName name) → ∀ path : Text, path.head? = some '/' →
      (names.foldl push path).head? = some '/' ∧
        segments '/' (names.foldl push path) = segments '/' path ++ names := by
    intro names
    induction names with
    | nil => exact fun _ path absolute => ⟨absolute, (List.append_nil _).symm⟩
    | cons name rest ih =>
      intro all path absolute
      have single := (all name List.mem_cons_self).single
      have ne : path ≠ [] := fun empty => by simp [empty] at absolute
      obtain ⟨still, read⟩ := ih (fun other mem => all other (List.mem_cons_of_mem _ mem)) (push path name)
        (head?_push absolute single)
      rw [segments_push ne single, List.append_assoc, List.singleton_append] at read
      exact ⟨still, read⟩
  obtain ⟨still, read⟩ := pushed names all path absolute
  rw [components_absolute still, components_absolute absolute, read, List.filterMap_append,
    filterMap_component all, List.cons_append]

theorem Canonical.straightDown (canonical : Canonical path) :
    components path = .rootDir :: (segments '/' path).map .normal := by
  rw [components_absolute canonical.absolute, filterMap_component]
  intro segment mem
  obtain ⟨notCurrent, notParent⟩ := canonical.straight segment mem
  exact ⟨mem_segments mem, notCurrent, notParent⟩

def Component.move : Component → Move Text
  | .normal segment => .enter segment
  | .parentDir => .leave
  | .curDir => .stay
  | .rootDir => .stay

theorem rootDir_notMem_cleaned (filename : Text) : .rootDir ∉ components (cleaned filename) := by
  have relative : ¬ (cleaned filename).head? = some '/' := by
    intro first
    have stops := List.head?_dropWhile_not (fun c => c = '/' || c = '\\') filename
    rw [show (filename.dropWhile fun c => c = '/' || c = '\\').head? = some '/' from first] at stops
    simp at stops
  have named : ∀ segment, component segment ≠ some .rootDir := by
    intro segment
    unfold component
    split
    · nofun
    · split <;> nofun
  unfold components
  rw [if_neg relative]
  simp only [List.mem_append, List.mem_filterMap, not_or, not_exists, not_and]
  refine ⟨?_, fun segment _ => named segment⟩
  split <;> simp

theorem normal_isName (mem : .normal segment ∈ components path) : IsName segment := by
  have inside : .normal segment ∈ (segments '/' path).filterMap component := by
    rcases List.mem_append.mp mem with first | later
    · split at first
      · simp at first
      · split at first <;> simp at first
    · exact later
  obtain ⟨source, parted, same⟩ := List.mem_filterMap.mp inside
  unfold component at same
  split at same
  · cases same
  · split at same
    · cases same
    · cases same
      exact ⟨mem_segments parted, ‹_›, ‹_›⟩

/-- Every device name in a request is refused, also one that is left again. -/
def Unreserved (walked : List Component) : Prop :=
  ∀ segment, .normal segment ∈ walked → isReserved segment = false

variable {filename : Text}

theorem collect_ok_iff {reached : List Text} {walked : List Component} (relative : .rootDir ∉ walked) :
    PathGuard.collect filename names walked = .ok reached ↔
      Unreserved walked ∧ walk names (walked.map Component.move) = some reached := by
  induction walked generalizing names with
  | nil => simp [PathGuard.collect, walk, Unreserved]
  | cons first rest ih =>
    have later : .rootDir ∉ rest := fun member => relative (List.mem_cons_of_mem _ member)
    have others (kept : ∀ segment, first ≠ .normal segment) : Unreserved (first :: rest) ↔ Unreserved rest := by
      refine forall_congr' fun segment => ?_
      rw [List.mem_cons, or_iff_right fun same => kept segment same.symm]
    cases first with
    | rootDir => exact absurd List.mem_cons_self relative
    | curDir =>
      rw [others (by simp)]
      exact ih later
    | parentDir =>
      rw [others (by simp), PathGuard.collect, List.map_cons, Component.move, walk]
      split
      · exact iff_of_false (by simp) (by simp)
      · exact ih later
    | normal segment =>
      rw [PathGuard.collect, List.map_cons, Component.move, walk]
      by_cases dev : isReserved segment = true
      · rw [rejectReservedDeviceName, if_pos dev]
        refine iff_of_false (by rintro ⟨⟩) fun both => ?_
        rw [both.1 segment List.mem_cons_self] at dev
        cases dev
      · have clear : Unreserved (.normal segment :: rest) ↔ Unreserved rest := by
          constructor
          · exact fun all other member => all other (List.mem_cons_of_mem _ member)
          · intro all other member
            rcases List.mem_cons.mp member with same | member
            · cases same
              exact Bool.not_eq_true _ ▸ dev
            · exact all other member
        rw [rejectReservedDeviceName, if_neg dev, clear]
        exact ih later

theorem collect_error {walked : List Component} {error : GuardError}
    (failed : PathGuard.collect filename names walked = .error error) : error = .pathViolation filename := by
  induction walked generalizing names with
  | nil => cases failed
  | cons first rest ih =>
    cases first with
    | rootDir =>
      cases failed
      rfl
    | curDir => exact ih failed
    | parentDir =>
      rw [PathGuard.collect] at failed
      split at failed
      · cases failed
        rfl
      · exact ih failed
    | normal segment =>
      rw [PathGuard.collect, rejectReservedDeviceName] at failed
      split at failed
      · cases failed
        rfl
      · exact ih failed

/-- A request for these names: no step of its walk leaves the root, and they are what the walk
comes to. -/
structure Accepted (filename : Text) (names : List Text) : Prop where
  plain : '\x00' ∉ filename
  inside : NeverAbove ((components (cleaned filename)).map Component.move)
  unreserved : Unreserved (components (cleaned filename))
  survive : Survive ((components (cleaned filename)).map Component.move) names
  nonempty : names ≠ []

structure Below (guard : PathGuard) (names : List Text) (path : Text) : Prop where
  pushed : path = names.foldl push guard.root
  components : components path = components guard.root ++ names.map .normal
  straight : .parentDir ∉ Tftp.components path
  contained : ∀ filename, guard.assertContained path filename = .ok ()

theorem Accepted.below (ok : Accepted filename names) (guard : PathGuard) :
    Below guard names (names.foldl push guard.root) := by
  have named : ∀ name ∈ names, IsName name := by
    intro name mem
    rcases mem_walk ok.survive.walks mem with none | entered
    · exact absurd none List.not_mem_nil
    · obtain ⟨part, walked, same⟩ := List.mem_map.mp entered
      cases part with
      | normal segment =>
        cases same
        exact normal_isName walked
      | rootDir | curDir | parentDir => cases same
  have reached := components_foldl_push guard.canonical.absolute named
  refine ⟨rfl, reached, ?_, fun filename => ?_⟩
  · rw [reached, guard.canonical.straightDown]
    simp
  · rw [PathGuard.assertContained, startsWith, reached, if_pos]
    exact List.isPrefixOf_iff_prefix.mpr (List.prefix_append _ _)

theorem resolve_ok_iff {guard : PathGuard} : guard.resolve filename = .ok path ↔
    ∃ names, Accepted filename names ∧ path = names.foldl push guard.root := by
  have relative := rootDir_notMem_cleaned filename
  rw [PathGuard.resolve]
  split
  · rename_i nul
    refine iff_of_false nofun ?_
    rintro ⟨names, ok, -⟩
    exact ok.plain (by simpa using nul)
  · rename_i plain
    constructor
    · intro run
      obtain ⟨names, collected, run⟩ := bind_eq_ok run
      obtain ⟨unreserved, walked⟩ := (collect_ok_iff relative).mp collected
      have survive := walk_eq_some_iff.mp walked
      split at run
      · cases run
      · rename_i ne
        cases run
        refine ⟨names, ⟨by simpa using plain, exists_survive_iff.mp ⟨names, survive⟩, unreserved,
          survive, ?_⟩, rfl⟩
        simpa using ne
    · rintro ⟨names, ok, rfl⟩
      have ne : ¬ names.isEmpty = true := by simpa using ok.nonempty
      rw [(collect_ok_iff relative).mpr ⟨ok.unreserved, ok.survive.walks⟩, ok_bind, if_neg ne]
      rfl

theorem resolve_error {guard : PathGuard} {error : GuardError} (failed : guard.resolve filename = .error error) :
    error = .pathViolation filename := by
  rw [PathGuard.resolve] at failed
  split at failed
  · cases failed
    rfl
  · cases collected : PathGuard.collect filename [] (components (cleaned filename)) with
    | error first =>
      rw [collected] at failed
      cases failed
      exact collect_error collected
    | ok names =>
      rw [collected, ok_bind] at failed
      split at failed
      · cases failed
        rfl
      · cases failed

/-- A request is resolved to the names its walk comes to, below the root, or it is refused and
there are none. -/
theorem resolve_judged (guard : PathGuard) (filename : Text) :
    match guard.resolve filename with
    | .ok path => ∃ names, Accepted filename names ∧ Below guard names path
    | .error error => error = .pathViolation filename ∧ ¬ ∃ names, Accepted filename names := by
  cases resolved : guard.resolve filename with
  | ok path =>
    obtain ⟨names, accepted, rfl⟩ := resolve_ok_iff.mp resolved
    exact ⟨names, accepted, accepted.below guard⟩
  | error error =>
    refine ⟨resolve_error resolved, ?_⟩
    rintro ⟨names, accepted⟩
    have opened : guard.resolve filename = .ok _ := resolve_ok_iff.mpr ⟨names, accepted, rfl⟩
    rw [resolved] at opened
    cases opened

def serverRoot : PathGuard := ⟨"/srv".toList, ⟨rfl, by decide⟩⟩

example : serverRoot.resolve "\\/a/../my..file//./c.bin".toList = .ok "/srv/my..file/c.bin".toList := by decide

example : serverRoot.resolve "nul .txt/../c.bin".toList = .error (.pathViolation "nul .txt/../c.bin".toList) := by
  decide

end NexTerminal.Tftp
