import NexTerminal.Library.Except
import NexTerminal.Library.PosixPaths
import NexTerminal.Scripts.ScriptInclude

/-! Which files a script may name (`scriptFsScope.ts`), with POSIX paths. -/

namespace NexTerminal.Scripts

open Library Library.Posix
open Include (Specifier)

/-- The running script's own directory, and the scripts root where it applies. -/
structure ScriptFsScope where
  scriptDirPath : Path
  scriptsRootPath : Option Path

structure ScriptFsScope.Absolute (scope : ScriptFsScope) : Prop where
  scriptDir : isAbsolute scope.scriptDirPath = true
  scriptsRoot : ∀ root ∈ scope.scriptsRootPath, isAbsolute root = true

inductive PathRefusal
  | blank (requested : Specifier)
  | nul (requested : Specifier)
  | outside (candidate : Path)
deriving DecidableEq

namespace PathRefusal

def code : PathRefusal → String
  | blank _ => "InvalidPath"
  | nul _ => "InvalidPath"
  | outside _ => "PathOutsideScope"

/-- `safeStringify` shows any value. -/
def detail (safeStringify : Specifier → String) : PathRefusal → String
  | blank requested => "path must be a non-empty string (got " ++ safeStringify requested ++ ")"
  | nul requested => "path must not contain a NUL byte: " ++ safeStringify requested
  | outside candidate => String.ofList candidate

end PathRefusal

/-- White space and line terminators, as `String.prototype.trim` has them. -/
def isJsSpace (c : Char) : Bool :=
  let n := c.toNat
  (0x09 ≤ n && n ≤ 0x0D) || n == 0x20 || n == 0xA0 || n == 0x1680 || (0x2000 ≤ n && n ≤ 0x200A) || n == 0x2028
    || n == 0x2029 || n == 0x202F || n == 0x205F || n == 0x3000 || n == 0xFEFF

/-- Whether `candidate` is at or below `root`, decided on the text of the way there. -/
def isLexicallyWithin (cwd candidate root : Path) : Bool :=
  let resolvedCandidate := resolve cwd [candidate]
  let resolvedRoot := resolve cwd [root]
  let rel := relative cwd resolvedRoot resolvedCandidate
  if rel = [] then true
  else if isAbsolute rel then false
  else if rel = ['.', '.'] then false
  else if ['.', '.', '/'].isPrefixOf rel then false
  else true

/-- Resolution from a directory, which is not itself a root. -/
def resolveScriptFsPathFrom (cwd : Path) (requested : Specifier) (baseDirPath : Path) (scope : ScriptFsScope) :
    Except PathRefusal Path :=
  match requested with
  | .other description => .error (.blank (.other description))
  | .text request =>
    if trimWith isJsSpace request.toList = [] then .error (.blank (.text request))
    else if request.toList.contains '\x00' then .error (.nul (.text request))
    else
      let candidate := resolve cwd [baseDirPath, request.toList]
      let inside := isLexicallyWithin cwd candidate scope.scriptDirPath
        || scope.scriptsRootPath.any fun root => isLexicallyWithin cwd candidate root
      if !inside then .error (.outside candidate) else .ok candidate

variable {cwd root candidate base path : Path} {scope : ScriptFsScope}

theorem relative_settled {start target : List Path} (here : ∀ name ∈ start, IsName name)
    (there : ∀ name ∈ target, IsName name) (cwd : Path) :
    relative cwd (absolutePath start) (absolutePath target) =
      relativePath (List.replicate (relativeNames start target).1 ['.', '.'] ++ (relativeNames start target).2) := by
  rw [relative, resolve_single (isAbsolute_absolutePath _), resolve_single (isAbsolute_absolutePath _),
    names_absolutePath here, names_absolutePath there, segments_absolutePath here, segments_absolutePath there]

theorem isLexicallyWithin_iff (inner : isAbsolute candidate = true) (outer : isAbsolute root = true) :
    isLexicallyWithin cwd candidate root = true ↔ names root <+: names candidate := by
  have here : ∀ name ∈ names root, IsName name := fun _ => isName_of_names
  have there : ∀ name ∈ names candidate, IsName name := fun _ => isName_of_names
  rw [isLexicallyWithin, resolve_single inner, resolve_single outer, relative_settled here there]
  cases ups : (relativeNames (names root) (names candidate)).1 with
  | zero =>
    have below := relativeNames_zero ups
    have down : ∀ name ∈ (relativeNames (names root) (names candidate)).2, IsName name := fun name mem =>
      there name (below ▸ List.mem_append_right _ mem)
    have notUp := startsUp_down down
    rw [startsUp, Bool.or_eq_false_iff, beq_eq_false_iff_ne] at notUp
    rw [List.replicate_zero, List.nil_append, isAbsolute_relativePath down, if_neg notUp.1, notUp.2]
    exact iff_of_true (by simp) ⟨_, below.symm⟩
  | succ ups' =>
    have up := startsUp_ups ups' (relativeNames (names root) (names candidate)).2
    generalize relativePath (List.replicate (ups' + 1) ['.', '.'] ++ _) = rel at up ⊢
    have notBelow : ¬ names root <+: names candidate := by
      rintro ⟨below, same⟩
      rw [← same, relativeNames_below] at ups
      cases ups
    rw [startsUp, Bool.or_eq_true, beq_iff_eq] at up
    refine iff_of_false ?_ notBelow
    rcases up with rfl | up
    · decide
    · have filled : rel ≠ [] := by
        rintro rfl
        cases up
      rw [if_neg filled, up]
      simp

/-- Below the script's directory or below the scripts root. -/
def ScriptFsScope.Holds (scope : ScriptFsScope) (list : List Path) : Prop :=
  names scope.scriptDirPath <+: list ∨ ∃ root ∈ scope.scriptsRootPath, names root <+: list

def requestedNames (base request : Path) : List Path :=
  settleNames [] (if isAbsolute request then moves request else moves base ++ moves request)

structure Granted (requested : Specifier) (base : Path) (scope : ScriptFsScope) (request : String)
    (path : Path) : Prop where
  text : requested = .text request
  ink : ∃ c ∈ request.toList, isJsSpace c = false
  plain : '\x00' ∉ request.toList
  holds : scope.Holds (requestedNames base request.toList)
  path : path = absolutePath (requestedNames base request.toList)

theorem isName_of_requested {base req name : Path} (mem : name ∈ requestedNames base req) :
    IsName name := by
  unfold requestedNames at mem
  split at mem
  · exact isName_of_names mem
  · refine @isName_of_settle [base, req] name ?_
    rwa [List.flatMap_cons, List.flatMap_singleton]

theorem inside_iff (absolute : scope.Absolute) {list : List Path} (named : ∀ name ∈ list, IsName name) :
    (isLexicallyWithin cwd (absolutePath list) scope.scriptDirPath
      || scope.scriptsRootPath.any fun root => isLexicallyWithin cwd (absolutePath list) root) = true ↔
        scope.Holds list := by
  have inner := isAbsolute_absolutePath list
  rw [Bool.or_eq_true, isLexicallyWithin_iff inner absolute.scriptDir, names_absolutePath named]
  refine or_congr_right ?_
  cases shape : scope.scriptsRootPath with
  | none => simp
  | some root =>
    rw [Option.any_some, isLexicallyWithin_iff inner (absolute.scriptsRoot root shape), names_absolutePath named]
    simp

/-- A path is granted exactly to a request with ink and without NUL that comes to names in scope. -/
theorem resolveScriptFsPathFrom_iff (absolute : scope.Absolute) (from_ : isAbsolute base = true) (cwd : Path)
    (requested : Specifier) :
    resolveScriptFsPathFrom cwd requested base scope = .ok path ↔
      ∃ req, Granted requested base scope req path := by
  cases requested with
  | other description => exact iff_of_false nofun fun ⟨_, granted⟩ => nomatch granted.text
  | text req =>
    have only : (∃ other, Granted (.text req) base scope other path) ↔
        Granted (.text req) base scope req path := by
      constructor
      · rintro ⟨other, granted⟩
        have same := granted.text
        rw [Specifier.text.injEq] at same
        rwa [← same] at granted
      · exact fun granted => ⟨req, granted⟩
    rw [only, resolveScriptFsPathFrom, resolve_from from_]
    split
    · rename_i blank
      refine iff_of_false nofun fun granted => ?_
      obtain ⟨c, mem, ink⟩ := granted.ink
      rw [trimWith_eq_nil.mp blank c mem] at ink
      cases ink
    · rename_i ink
      split
      · rename_i nul
        exact iff_of_false nofun fun granted => granted.plain (by simpa using nul)
      · rename_i plain
        have held : _ ↔ scope.Holds (requestedNames base req.toList) :=
          @inside_iff cwd scope absolute (requestedNames base req.toList) fun name => isName_of_requested
        rw [← requestedNames]
        dsimp only
        split
        · rename_i outside
          refine iff_of_false nofun fun granted => ?_
          rw [held.mpr granted.holds] at outside
          cases outside
        · rename_i inside
          rw [Bool.not_eq_true, Bool.not_eq_false'] at inside
          constructor
          · intro hit
            cases hit
            rw [trimWith_eq_nil] at ink
            exact ⟨rfl, by simpa using ink, by simpa using plain, held.mp inside, rfl⟩
          · intro granted
            rw [granted.path]

end NexTerminal.Scripts
