import NexTerminal.Library.SeqMap
import NexTerminal.Library.Json

/-! The main side of `nexus.include()` (`scriptInclude.ts`): one run's module
bookkeeping, the refusal ladder, and the registration of a source that was read. -/

namespace NexTerminal.Scripts.Include

open Library

def scriptIncludeMaxDepth : Nat := 16
def scriptIncludeMaxModules : Nat := 64
def scriptIncludeMaxTotalSourceBytes : Nat := 48 * 1024 * 1024

/-- `#root` for the entry script, then `m1`, `m2`, …; a chain may hold anything else. -/
inductive ModuleId
  | root
  | minted (n : Nat)
  | foreign (text : String)
deriving DecidableEq

def ModuleId.text : ModuleId → String
  | .root => "#root"
  | .minted n => s!"m{n}"
  | .foreign text => text

/-- What a script passes to `include`. -/
inductive Specifier
  | text (path : String)
  | other (description : String)
deriving DecidableEq

/-- What an audit line calls the thing the script asked for. -/
def describeRequest : Specifier → String
  | .text path => path
  | .other description => description

/-- `JSON.stringify` of a string. -/
def stringify (text : String) : String := String.ofList (Json.printString text.toList)

inductive IncludeError
  | malformedChain (detail : String)
  | depthExceeded (depth : Nat)
  | notJs (requested : String)
  | circular (cycle : List String)
  | tooManyModules (count : Nat)
  | sourceBudget (totalBytes : Nat)
  | isScript (displayName : String)
  | fs (code : String) (message : String)
deriving DecidableEq

namespace IncludeError

def code : IncludeError → String
  | malformedChain _ => "IncludeInternal"
  | depthExceeded _ => "IncludeDepthExceeded"
  | notJs _ => "InvalidPath"
  | circular _ => "CircularInclude"
  | tooManyModules _ | sourceBudget _ => "IncludeLimitExceeded"
  | isScript _ => "IncludeIsScript"
  | fs code _ => code

def message : IncludeError → String
  | malformedChain detail =>
    s!"Malformed include chain ({detail}) — this should never happen; please file an issue."
  | depthExceeded depth =>
    s!"include depth {depth} exceeds the limit of {scriptIncludeMaxDepth}. "
      ++ "Flatten the chain, or hoist the shared part into one module."
  | notJs requested =>
    "nexus.include() only loads .js files (got " ++ stringify requested ++ "). "
      ++ "Use nexus.fs.readText / nexus.fs.readJson for data files."
  | circular cycle =>
    "Circular include: " ++ " → ".intercalate cycle ++ ". "
      ++ "Hoist the shared part into a third module that neither includes the other."
  | tooManyModules _ =>
    s!"This run has already loaded {scriptIncludeMaxModules} modules, the maximum."
  | sourceBudget totalBytes =>
    s!"This run's include budget is exhausted: {totalBytes} bytes of module source already loaded, "
      ++ s!"the limit is {scriptIncludeMaxTotalSourceBytes} (48 MiB). "
      ++ "Split less, or include fewer/smaller modules."
  | isScript displayName =>
    s!"{displayName} is a Nexus script (@nexus-script), not a library — scripts are entry points. "
      ++ "Remove the marker to include it, or run it on its own."
  | fs _ message => message

def detail : IncludeError → Option String
  | depthExceeded depth => some s!"{depth} > {scriptIncludeMaxDepth}"
  | circular cycle => some (" → ".intercalate cycle)
  | tooManyModules _ => some s!"{scriptIncludeMaxModules} modules"
  | sourceBudget _ => some "source budget"
  | _ => none

end IncludeError

structure IncludeModuleRecord where
  id : ModuleId
  resolvedPath : String
  cacheKey : String
  /-- `none` only for an untitled entry script. -/
  dirPath : Option String
  displayName : String
deriving DecidableEq

/-- An entry of `pending`: the read in flight, the call that started it and those
that joined it. -/
structure PendingLoad where
  call : Nat
  label : String
  resolvedPath : String
  displayName : String
  joiners : List (Nat × String) := []
  reading : Bool := true
deriving DecidableEq

structure ScriptIncludeState where
  byId : SeqMap ModuleId IncludeModuleRecord
  byKey : SeqMap String IncludeModuleRecord
  pending : SeqMap String PendingLoad
  nextId : Nat
  totalSourceBytes : Nat

/-- What the ladder takes from the file layer and the header parser. -/
structure ScriptFsContext where
  /-- `resolveScriptFsTarget`: resolution from a directory, and containment. -/
  resolve : Specifier → Option String → Except IncludeError String
  /-- `includeCacheKeyFor` on this run's platform. -/
  cacheKey : String → String
  dirname : String → String
  displayName : String → String
  /-- Whether a source carries the `@nexus-script` marker. -/
  marker : String → Bool
  scriptPath : String
  scriptDir : Option String

namespace ScriptFsContext

def rootRecord (ctx : ScriptFsContext) : IncludeModuleRecord where
  id := .root
  resolvedPath := ctx.scriptPath
  cacheKey := ctx.cacheKey ctx.scriptPath
  dirPath := ctx.scriptDir
  displayName := ctx.displayName ctx.scriptPath

def createScriptIncludeState (ctx : ScriptFsContext) : ScriptIncludeState where
  byId := SeqMap.empty.set .root ctx.rootRecord
  byKey := SeqMap.empty.set ctx.rootRecord.cacheKey ctx.rootRecord
  pending := .empty
  nextId := 1
  totalSourceBytes := 0

end ScriptFsContext

/-- `/\.js$/i` -/
def endsInJs (path : String) : Bool :=
  match path.toList.reverse with
  | s :: j :: '.' :: _ => (s == 's' || s == 'S') && (j == 'j' || j == 'J')
  | _ => false

structure IncludeLoadResult where
  moduleId : ModuleId
  displayName : String
  source : Option String
  cached : Bool
deriving DecidableEq

def cachedResult (record : IncludeModuleRecord) : IncludeLoadResult where
  moduleId := record.id
  displayName := record.displayName
  source := none
  cached := true

def sourceResult (record : IncludeModuleRecord) (source : String) : IncludeLoadResult where
  moduleId := record.id
  displayName := record.displayName
  source := some source
  cached := false

inductive AuditLine
  | loaded (label : String) (module : ModuleId) (displayName : String) (bytes : Nat)
  | cached (label displayName : String)
  | refused (label code : String) (detail : Option String)
  | skipped (resolvedPath : String)
deriving DecidableEq

def AuditLine.text : AuditLine → String
  | loaded label _ displayName bytes => s!"include {label} → {displayName} ({bytes} bytes)"
  | cached label displayName => s!"include {label} → {displayName} (cached)"
  | refused label code none => s!"include {label} → {code}"
  | refused label code (some detail) => s!"include {label} → {code} ({detail})"
  | skipped resolvedPath => s!"include {resolvedPath} → skipped (run stopped)"

def IncludeError.audit (error : IncludeError) (label : String) : AuditLine := .refused label error.code error.detail

/-- What the reader itself says of a read that failed, under the path that it read. -/
def IncludeError.readAudit (error : IncludeError) (resolvedPath : String) : AuditLine :=
  if error.code = "Stopped" then .skipped resolvedPath else .refused resolvedPath error.code none

namespace ScriptIncludeState

def recordOf (state : ScriptIncludeState) (id : ModuleId) : Except IncludeError IncludeModuleRecord :=
  match state.byId.get? id with
  | some record => .ok record
  | none => .error (.malformedChain ("unknown module id " ++ stringify id.text))

/-- The chain as this run's own records: `#root` first, the immediate parent last. -/
def validateChain (state : ScriptIncludeState) (chain : List ModuleId) :
    Except IncludeError (List IncludeModuleRecord) :=
  match chain with
  | [] => .error (.malformedChain "not a non-empty array")
  | first :: _ =>
    if first ≠ .root then .error (.malformedChain s!"does not start at {ModuleId.root.text}")
    else chain.mapM state.recordOf

inductive Rung
  | refused (error : IncludeError)
  | known (record : IncludeModuleRecord)
  | inFlight (cacheKey : String) (load : PendingLoad)
  | read (cacheKey resolvedPath : String)

def committed (state : ScriptIncludeState) : Nat := state.byKey.entries.length - 1 + state.pending.entries.length

def lookUp (state : ScriptIncludeState) (parents : List IncludeModuleRecord) (cacheKey resolvedPath : String) :
    Rung :=
  match parents.find? fun record => record.cacheKey == cacheKey with
  | some ancestor =>
    .refused (.circular (parents.map IncludeModuleRecord.displayName ++ [ancestor.displayName]))
  | none =>
    match state.byKey.get? cacheKey, state.pending.get? cacheKey with
    | some record, _ => .known record
    | none, some load => .inFlight cacheKey load
    | none, none =>
      if state.committed ≥ scriptIncludeMaxModules then .refused (.tooManyModules state.committed)
      else if state.totalSourceBytes ≥ scriptIncludeMaxTotalSourceBytes then
        .refused (.sourceBudget state.totalSourceBytes)
      else .read cacheKey resolvedPath

/-- The part of `scriptIncludeLoad` before its first await. -/
def ladder (state : ScriptIncludeState) (ctx : ScriptFsContext) (requested : Specifier)
    (chain : List ModuleId) : Rung :=
  match state.validateChain chain with
  | .error error => .refused error
  | .ok parents =>
    if parents.length > scriptIncludeMaxDepth then .refused (.depthExceeded parents.length)
    else
      match ctx.resolve requested (parents.getLast?.bind IncludeModuleRecord.dirPath) with
      | .error error => .refused error
      | .ok resolvedPath =>
        if !endsInJs resolvedPath then .refused (.notJs (describeRequest requested))
        else state.lookUp parents (ctx.cacheKey resolvedPath) resolvedPath

def mint (state : ScriptIncludeState) (ctx : ScriptFsContext) (cacheKey : String) (load : PendingLoad) :
    IncludeModuleRecord where
  id := .minted state.nextId
  resolvedPath := load.resolvedPath
  cacheKey := cacheKey
  dirPath := some (ctx.dirname load.resolvedPath)
  displayName := load.displayName

/-- Steps 10 and 10b: why a source that was read is refused. -/
def refusal (state : ScriptIncludeState) (ctx : ScriptFsContext) (load : PendingLoad) (text : String)
    (byteLength : Nat) : Option IncludeError :=
  if ctx.marker text then some (.isScript load.displayName)
  else if state.totalSourceBytes + byteLength > scriptIncludeMaxTotalSourceBytes then
    some (.sourceBudget state.totalSourceBytes)
  else none

def register (state : ScriptIncludeState) (record : IncludeModuleRecord) (byteLength : Nat) : ScriptIncludeState :=
  { state with
    byId := state.byId.set record.id record
    byKey := state.byKey.set record.cacheKey record
    nextId := state.nextId + 1
    totalSourceBytes := state.totalSourceBytes + byteLength }

end ScriptIncludeState

end NexTerminal.Scripts.Include
