import NexTerminal.Scripts.FsScope
import NexTerminal.Scripts.IncludeLoader

namespace NexTerminal.Scripts.Include

open Library Library.Posix IncludeRun

structure ScriptPlace where
  cwd : Path
  /-- `buildScriptFsScope`: `none` for an untitled script. -/
  scope : Option ScriptFsScope
  /-- Whether the scheme is `file`. -/
  isFile : Bool
  safeStringify : Specifier → String

namespace ScriptPlace

def hasBackslashOnNonFileScheme (place : ScriptPlace) : Specifier → Bool
  | .text request => !place.isFile && request.toList.contains '\\'
  | .other _ => false

def describeResolutionFailure (place : ScriptPlace) (refusal : PathRefusal) (scope : ScriptFsScope) : String :=
  match refusal with
  | .outside _ =>
    let roots := (scope.scriptDirPath :: scope.scriptsRootPath.toList).map String.ofList
    refusal.detail place.safeStringify ++ " is outside the script's allowed scope ("
      ++ ", ".intercalate roots ++ ")"
  | _ => refusal.detail place.safeStringify

/-- `resolveScriptFsTarget`: without a base, from the script's own directory. -/
def resolveScriptFsTarget (place : ScriptPlace) (requested : Specifier) (baseDirPath : Option String) :
    Except IncludeError String :=
  match place.scope with
  | none =>
    .error (.fs "NoScriptDir" ("This script has no folder on disk (untitled editor). Save it first — "
      ++ "nexus.fs paths resolve against the script's own directory."))
  | some scope =>
    if place.hasBackslashOnNonFileScheme requested then
      .error (.fs "InvalidPath" ("backslash is not a valid path separator for a remote script location: "
        ++ place.safeStringify requested))
    else
      let base := (baseDirPath.map String.toList).getD scope.scriptDirPath
      match resolveScriptFsPathFrom place.cwd requested base scope with
      | .ok resolvedPath => .ok (String.ofList resolvedPath)
      | .error refusal => .error (.fs refusal.code (place.describeResolutionFailure refusal scope))

/-- The ladder with the file layer of this place; POSIX paths are their own cache keys. -/
def context (place : ScriptPlace) (other : ScriptFsContext) : ScriptFsContext :=
  { other with
    resolve := place.resolveScriptFsTarget
    cacheKey := id
    dirname := fun filePath => String.ofList (dirname filePath.toList)
    scriptDir := place.scope.map fun scope => String.ofList scope.scriptDirPath }

end ScriptPlace

variable {Exports : Type} {scope : ScriptFsScope} {place : ScriptPlace} {other : ScriptFsContext}

def Serves (scope : ScriptFsScope) (path : String) : Prop :=
  ∃ list, (∀ name ∈ list, IsName name) ∧ path.toList = absolutePath list ∧ scope.Holds list

structure Contains (scope : ScriptFsScope) (dir : String) : Prop where
  absolute : isAbsolute dir.toList = true
  holds : scope.Holds (names dir.toList)

variable {path : String}

theorem Serves.contains (serves : Serves scope path) : Contains scope path := by
  obtain ⟨list, named, same, holds⟩ := serves
  refine ⟨?_, ?_⟩
  · rw [same]
    exact isAbsolute_absolutePath list
  · rwa [same, names_absolutePath named]

theorem contains_scriptDir (absolute : scope.Absolute) : Contains scope (String.ofList scope.scriptDirPath) := by
  refine ⟨?_, ?_⟩
  · rw [String.toList_ofList]
    exact absolute.scriptDir
  · rw [String.toList_ofList]
    exact .inl (List.prefix_refl _)

theorem Serves.dirname (serves : Serves scope path) (notScriptDir : names path.toList ≠ names scope.scriptDirPath)
    (notRoot : ∀ root ∈ scope.scriptsRootPath, names path.toList ≠ names root) :
    Contains scope (String.ofList (Posix.dirname path.toList)) := by
  obtain ⟨list, named, same, holds⟩ := serves
  rw [same, names_absolutePath named] at notScriptDir
  have front : ∀ name ∈ list.dropLast, IsName name := fun name mem => named name (List.mem_of_mem_dropLast mem)
  have shorter {top : List Path} (below : top <+: list) (inside : list ≠ top) : top <+: list.dropLast := by
    obtain ⟨rest, rfl⟩ := below
    have some_ : rest ≠ [] := by
      rintro rfl
      exact inside (List.append_nil top)
    rw [List.dropLast_append_of_ne_nil some_]
    exact List.prefix_append _ _
  rw [same, dirname_absolutePath named]
  refine (Serves.contains ⟨list.dropLast, front, String.toList_ofList, ?_⟩)
  rcases holds with below | ⟨root, mem, below⟩
  · exact .inl (shorter below notScriptDir)
  · have other := notRoot root mem
    rw [same, names_absolutePath named] at other
    exact .inr ⟨root, mem, shorter below other⟩

theorem resolveScriptFsTarget_granted {requested : Specifier} {base : String} (here : place.scope = some scope)
    (absolute : scope.Absolute) (from_ : isAbsolute base.toList = true)
    (resolved : place.resolveScriptFsTarget requested (some base) = .ok path) :
    ∃ req, Granted requested base.toList scope req path.toList := by
  rw [ScriptPlace.resolveScriptFsTarget, here] at resolved
  dsimp only at resolved
  split at resolved
  · cases resolved
  · rw [Option.map_some, Option.getD_some] at resolved
    cases granted : resolveScriptFsPathFrom place.cwd requested base.toList scope with
    | error refusal =>
      rw [granted] at resolved
      cases resolved
    | ok hit =>
      rw [granted] at resolved
      cases resolved
      rw [String.toList_ofList]
      exact (resolveScriptFsPathFrom_iff absolute from_ place.cwd requested).mp granted

theorem serves_of_granted {requested : Specifier} {base : Path} {req : String}
    (granted : Granted requested base scope req path.toList) : Serves scope path :=
  ⟨_, fun _ => isName_of_requested, granted.path, granted.holds⟩

/-- A read only comes to a text where there is no directory. -/
def ReadsFiles (directory : List Path → Prop) (s : IncludeRun Exports) : Act Exports → Prop
  | .complete cacheKey (.text _ _) =>
    ∀ load, s.main.pending.get? cacheKey = some load → ¬ directory (names load.resolvedPath.toList)
  | _ => True

/-- A run whose worker may also post requests of its own making. -/
inductive Reaches (ctx : ScriptFsContext) (directory : List Path → Prop) : IncludeRun Exports → Prop
  | initial : Reaches ctx directory (.initial ctx)
  | act {s} (act : Act Exports) : Reaches ctx directory s → ReadsFiles directory s act →
      Reaches ctx directory (s.step ctx act)
  | forge {s} (request : Request) : Reaches ctx directory s →
      Reaches ctx directory { s with requests := s.requests ++ [request] }

structure InScope (scope : ScriptFsScope) (directory : List Path → Prop) (main : ScriptIncludeState)
    (tasks : List Task) : Prop where
  loads : ∀ (cacheKey : String) (load : PendingLoad), main.pending.get? cacheKey = some load →
    Serves scope load.resolvedPath
  files : ∀ (cacheKey text : String) (byteLength : Nat), Task.settle cacheKey (.text text byteLength) ∈ tasks →
    ∀ load, main.pending.get? cacheKey = some load → ¬ directory (names load.resolvedPath.toList)
  modules : ∀ (id : ModuleId) (record : IncludeModuleRecord), main.byId.get? id = some record →
    ∃ dir, record.dirPath = some dir ∧ Contains scope dir

variable {parents : List IncludeModuleRecord} {state : ScriptIncludeState}

theorem validateChain_last {chain : List ModuleId} (valid : state.validateChain chain = .ok parents) :
    ∃ record, parents.getLast? = some record ∧ state.byId.get? (parentOf chain) = some record := by
  obtain ⟨head, records⟩ := ScriptIncludeState.validateChain_spec valid
  have last := congrArg List.getLast? records
  rw [List.getLast?_map, List.getLast?_map] at last
  cases bottom : chain.getLast? with
  | none =>
    rw [List.getLast?_eq_none_iff] at bottom
    subst bottom
    cases head
  | some id =>
    rw [bottom, Option.map_some] at last
    obtain ⟨record, parent, same⟩ := Option.map_eq_some_iff.mp last.symm
    refine ⟨record, parent, ?_⟩
    rw [parentOf, bottom]
    exact same.symm

variable {cacheKey : String}

theorem lookUp_read {key hit : String} (looked : state.lookUp parents cacheKey path = .read key hit) :
    hit = path ∧ key = cacheKey ∧ state.pending.get? key = none := by
  unfold ScriptIncludeState.lookUp at looked
  split at looked
  · cases looked
  · split at looked
    · cases looked
    · cases looked
    · rename_i resting
      split at looked
      · cases looked
      · split at looked
        · cases looked
        · cases looked
          exact ⟨rfl, rfl, resting⟩

theorem lookUp_inFlight {key : String} {load : PendingLoad}
    (looked : state.lookUp parents cacheKey path = .inFlight key load) : state.pending.get? key = some load := by
  unfold ScriptIncludeState.lookUp at looked
  split at looked
  · cases looked
  · split at looked
    · cases looked
    · rename_i flight
      cases looked
      exact flight
    · split at looked
      · cases looked
      · split at looked <;> cases looked

/-- A path was granted from the directory of the module that asked for it. -/
def HandedOver (scope : ScriptFsScope) (main : ScriptIncludeState) (request : Request) (path : String) : Prop :=
  ∃ record dir text, main.byId.get? (parentOf request.chain) = some record ∧ record.dirPath = some dir ∧
    Contains scope dir ∧ Granted request.specifier dir.toList scope text path.toList

namespace InScope

variable {directory : List Path → Prop} {main : ScriptIncludeState} {tasks : List Task}

theorem handedOver (inScope : InScope scope directory main tasks) (here : place.scope = some scope)
    (absolute : scope.Absolute) {req : Request} {cacheKey path : String}
    (read : main.ladder (place.context other) req.specifier req.chain = .read cacheKey path) :
    HandedOver scope main req path ∧ main.pending.get? cacheKey = none := by
  unfold ScriptIncludeState.ladder at read
  split at read
  · cases read
  · rename_i parents valid
    obtain ⟨record, last, atId⟩ := validateChain_last valid
    obtain ⟨dir, recorded, contained⟩ := inScope.modules _ record atId
    split at read
    · cases read
    · rw [last, Option.bind_some, recorded] at read
      split at read
      · cases read
      · rename_i resolvedPath resolved
        split at read
        · cases read
        · obtain ⟨rfl, _, resting⟩ := lookUp_read read
          obtain ⟨text, granted⟩ := resolveScriptFsTarget_granted here absolute contained.absolute resolved
          exact ⟨⟨record, dir, text, atId, recorded, contained, granted⟩, resting⟩

theorem requeue {later : List Task} (inScope : InScope scope directory main tasks)
    (known : ∀ cacheKey text byteLength, Task.settle cacheKey (.text text byteLength) ∈ later →
      Task.settle cacheKey (.text text byteLength) ∈ tasks) : InScope scope directory main later :=
  ⟨inScope.loads, fun _ _ _ mem => inScope.files _ _ _ (known _ _ _ mem), inScope.modules⟩

theorem enqueue {more : List Task} (inScope : InScope scope directory main tasks)
    (quiet : ∀ cacheKey outcome, Task.settle cacheKey outcome ∉ more) :
    InScope scope directory main (tasks ++ more) :=
  inScope.requeue fun cacheKey _ _ mem => (List.mem_append.mp mem).resolve_right (quiet cacheKey _)

theorem update (inScope : InScope scope directory main tasks) {cacheKey : String} {load changed : PendingLoad}
    (hit : main.pending.get? cacheKey = some load) (same : changed.resolvedPath = load.resolvedPath) :
    InScope scope directory { main with pending := main.pending.set cacheKey changed } tasks := by
  have about : ∀ key after, (main.pending.set cacheKey changed).get? key = some after →
      ∃ pre, main.pending.get? key = some pre ∧ after.resolvedPath = pre.resolvedPath := by
    intro key after pending
    rw [SeqMap.get?_set] at pending
    split at pending
    · rename_i here
      cases pending
      exact ⟨load, here ▸ hit, same⟩
    · exact ⟨after, pending, rfl⟩
  refine ⟨fun key after pending => ?_, fun key text byteLength mem after pending => ?_, inScope.modules⟩
  · obtain ⟨pre, pending, path⟩ := about key after pending
    rw [path]
    exact inScope.loads key pre pending
  · obtain ⟨pre, pending, path⟩ := about key after pending
    rw [path]
    exact inScope.files key text byteLength mem pre pending

theorem start (inScope : InScope scope directory main []) {cacheKey : String} {load : PendingLoad}
    (serves : Serves scope load.resolvedPath) :
    InScope scope directory { main with pending := main.pending.set cacheKey load } [] := by
  refine ⟨fun key after pending => ?_, nofun, inScope.modules⟩
  rw [SeqMap.get?_set] at pending
  split at pending
  · cases pending
    exact serves
  · exact inScope.loads key after pending

theorem erase (inScope : InScope scope directory main tasks) (cacheKey : String) :
    InScope scope directory { main with pending := main.pending.erase cacheKey } tasks := by
  have pre : ∀ key load, (main.pending.erase cacheKey).get? key = some load →
      main.pending.get? key = some load := by
    intro key load pending
    rw [SeqMap.get?_erase] at pending
    split at pending
    · cases pending
    · exact pending
  exact ⟨fun key load pending => inScope.loads key load (pre key load pending),
    fun key text byteLength mem load pending => inScope.files key text byteLength mem load (pre key load pending),
    inScope.modules⟩

theorem register (inScope : InScope scope directory main tasks) {record : IncludeModuleRecord} {dir : String}
    (recorded : record.dirPath = some dir) (contains : Contains scope dir) (byteLength : Nat) :
    InScope scope directory (main.register record byteLength) tasks := by
  refine ⟨inScope.loads, inScope.files, fun id after registered => ?_⟩
  rw [ScriptIncludeState.register] at registered
  rw [SeqMap.get?_set] at registered
  split at registered
  · cases registered
    exact ⟨dir, recorded, contains⟩
  · exact inScope.modules id after registered

end InScope

variable {directory : List Path → Prop} {s : IncludeRun Exports}

/-- The script directory and the scripts root are directories. -/
structure Directories (scope : ScriptFsScope) (directory : List Path → Prop) : Prop where
  scriptDir : directory (names scope.scriptDirPath)
  scriptsRoot : ∀ root ∈ scope.scriptsRootPath, directory (names root)

theorem initial_inScope (here : place.scope = some scope) (absolute : scope.Absolute) :
    InScope scope directory (initial (place.context other) : IncludeRun Exports).main [] := by
  refine ⟨nofun, nofun, fun id record registered => ?_⟩
  change (SeqMap.empty.set ModuleId.root (place.context other).rootRecord).get? id = some record at registered
  rw [SeqMap.get?_set] at registered
  split at registered
  · cases registered
    refine ⟨_, ?_, contains_scriptDir absolute⟩
    rw [ScriptFsContext.rootRecord, ScriptPlace.context, here]
    rfl
  · cases registered

theorem handle_inScope (inScope : InScope scope directory s.main []) (idle : s.tasks = [])
    (here : place.scope = some scope) (absolute : scope.Absolute) (req : Request) :
    InScope scope directory (s.handle (place.context other) req).main
      (s.handle (place.context other) req).tasks := by
  unfold IncludeRun.handle
  cases climbed : s.main.ladder (place.context other) req.specifier req.chain with
  | refused error | known record =>
    refine InScope.enqueue (idle ▸ inScope) fun cacheKey outcome mem => ?_
    cases List.mem_singleton.mp mem
  | inFlight cacheKey load =>
    have hit : s.main.pending.get? cacheKey = some load := by
      unfold ScriptIncludeState.ladder at climbed
      split at climbed
      · cases climbed
      · split at climbed
        · cases climbed
        · split at climbed
          · cases climbed
          · split at climbed
            · cases climbed
            · exact lookUp_inFlight climbed
    exact InScope.update (idle ▸ inScope) hit rfl
  | read cacheKey resolvedPath =>
    obtain ⟨⟨_, _, _, _, _, _, granted⟩, _⟩ := inScope.handedOver here absolute climbed
    change InScope scope directory _ s.tasks
    rw [idle]
    exact inScope.start (serves_of_granted granted)

theorem complete_inScope (inScope : InScope scope directory s.main s.tasks) {outcome : ReadOutcome}
    (files : ReadsFiles directory s (.complete cacheKey outcome)) :
    InScope scope directory (s.complete cacheKey outcome).main (s.complete cacheKey outcome).tasks := by
  unfold IncludeRun.complete
  split
  · rename_i load hit
    split
    · have updated := @InScope.update _ _ _ _ inScope cacheKey load { load with reading := false } hit rfl
      refine ⟨updated.loads, fun key text byteLength mem after pending => ?_, updated.modules⟩
      rcases List.mem_append.mp mem with pre | new
      · exact updated.files key text byteLength pre after pending
      · cases List.mem_singleton.mp new
        change (s.main.pending.set cacheKey { load with reading := false }).get? cacheKey = some after at pending
        rw [SeqMap.get?_set, if_pos rfl] at pending
        cases pending
        exact files load hit
    · exact inScope
  · exact inScope

theorem settled_quiet (key : String) (outcome : Except IncludeError (IncludeModuleRecord × String)) :
    ∀ cacheKey read, Task.settle cacheKey read ∉
      [Task.share key (outcome.map Prod.fst), .resume key outcome] := by
  simp

theorem settle_inScope {load : PendingLoad} {outcome : ReadOutcome} {tasks : List Task}
    (inScope : InScope scope directory s.main (.settle cacheKey outcome :: tasks))
    (hit : s.main.pending.get? cacheKey = some load) (directories : Directories scope directory) :
    InScope scope directory ({ s with tasks := tasks }.settle (place.context other) cacheKey load outcome).main
      ({ s with tasks := tasks }.settle (place.context other) cacheKey load outcome).tasks := by
  have rest : InScope scope directory s.main tasks := inScope.requeue fun _ _ _ => List.mem_cons_of_mem _
  unfold IncludeRun.settle
  cases outcome with
  | failed error => exact rest.enqueue (settled_quiet _ _)
  | text text byteLength =>
    dsimp only
    split
    · exact rest.enqueue (settled_quiet _ _)
    · have file := inScope.files cacheKey text byteLength List.mem_cons_self load hit
      have contains : Contains scope (String.ofList (Posix.dirname load.resolvedPath.toList)) := by
        refine (inScope.loads cacheKey load hit).dirname ?_ fun root mem => ?_
        · intro same
          exact file (same ▸ directories.scriptDir)
        · intro same
          exact file (same ▸ directories.scriptsRoot root mem)
      have registered : InScope scope directory
          (s.main.register (s.main.mint (place.context other) cacheKey load) byteLength) tasks :=
        rest.register rfl contains byteLength
      exact registered.enqueue (settled_quiet _ _)

theorem runTask_inScope {task : Task} {tasks : List Task}
    (inScope : InScope scope directory s.main (task :: tasks)) (directories : Directories scope directory) :
    InScope scope directory ({ s with tasks := tasks }.runTask (place.context other) task).main
      ({ s with tasks := tasks }.runTask (place.context other) task).tasks := by
  have rest : InScope scope directory s.main tasks := inScope.requeue fun _ _ _ => List.mem_cons_of_mem _
  cases task with
  | settle cacheKey outcome =>
    simp only [IncludeRun.runTask]
    split
    · exact rest
    · rename_i load hit
      exact settle_inScope inScope hit directories
  | share cacheKey outcome =>
    simp only [IncludeRun.runTask]
    split
    · exact rest
    · refine rest.enqueue fun key read mem => ?_
      obtain ⟨joiner, _, same⟩ := List.mem_map.mp mem
      cases same
  | resume cacheKey outcome =>
    simp only [IncludeRun.runTask]
    split
    · exact rest
    · refine (rest.erase cacheKey).enqueue fun key read mem => ?_
      cases List.mem_singleton.mp mem
  | join call label outcome =>
    cases outcome with
    | error error | ok record =>
      refine rest.enqueue fun key read mem => ?_
      cases List.mem_singleton.mp mem
  | reply call answer => exact rest

theorem WorkerStep.inScope {next : IncludeRun Exports} (step : WorkerStep s next)
    (inScope : InScope scope directory s.main s.tasks) : InScope scope directory next.main next.tasks := by
  rw [step.main, step.tasks]
  exact inScope

theorem step_inScope (inScope : InScope scope directory s.main s.tasks) (here : place.scope = some scope)
    (absolute : scope.Absolute) (directories : Directories scope directory) {act : Act Exports}
    (files : ReadsFiles directory s act) :
    InScope scope directory (s.step (place.context other) act).main (s.step (place.context other) act).tasks := by
  cases act with
  | call chain specifier awaited => exact (call_workerStep s chain specifier awaited).inScope inScope
  | receive =>
    simp only [IncludeRun.step]
    split
    · rename_i req rest idle waiting
      have taken : InScope scope directory ({ s with requests := rest } : IncludeRun Exports).main [] :=
        idle ▸ inScope
      exact handle_inScope taken idle here absolute req
    · exact inScope
  | complete cacheKey outcome => exact complete_inScope inScope files
  | tick =>
    simp only [IncludeRun.step]
    split
    · exact inScope
    · rename_i task rest waiting
      exact runTask_inScope (waiting ▸ inScope) directories
  | deliver =>
    simp only [IncludeRun.step]
    split
    · exact inScope
    · exact (deliver_workerStep s _ _).inScope inScope
  | finish module outcome => exact (finish_workerStep s module outcome).inScope inScope
  | resume call =>
    simp only [IncludeRun.step]
    split
    · exact inScope
    · exact (resume_workerStep s call _).inScope inScope

theorem Reaches.inScope (reached : Reaches (place.context other) directory s) (here : place.scope = some scope)
    (absolute : scope.Absolute) (directories : Directories scope directory) :
    InScope scope directory s.main s.tasks := by
  induction reached with
  | initial => exact initial_inScope here absolute
  | act act _ files ih => exact step_inScope ih here absolute directories files
  | forge req _ ih => exact ih

structure StaysInScope (place : ScriptPlace) (other : ScriptFsContext) (scope : ScriptFsScope)
    (s : IncludeRun Exports) : Prop where
  reads : ∀ request cacheKey path,
    s.main.ladder (place.context other) request.specifier request.chain = .read cacheKey path →
    HandedOver scope s.main request path
  loads : ∀ (cacheKey : String) (load : PendingLoad), s.main.pending.get? cacheKey = some load →
    Serves scope load.resolvedPath
  modules : ∀ (id : ModuleId) (record : IncludeModuleRecord), s.main.byId.get? id = some record →
    ∃ dir, record.dirPath = some dir ∧ Contains scope dir

/-- A request is granted exactly what it names in scope, and every run keeps to what is granted. -/
theorem scripts_stay_inScope (absolute : scope.Absolute) :
    (∀ cwd base requested path, isAbsolute base = true →
      (resolveScriptFsPathFrom cwd requested base scope = .ok path ↔
        ∃ request, Granted requested base scope request path)) ∧
      ∀ (place : ScriptPlace) (other : ScriptFsContext) (directory : List Path → Prop),
        place.scope = some scope → Directories scope directory →
          ∀ s : IncludeRun Exports, Reaches (place.context other) directory s →
            StaysInScope place other scope s := by
  constructor
  · intro cwd base requested path from_
    exact resolveScriptFsPathFrom_iff absolute from_ cwd requested
  · intro place other directory here directories s reached
    have inScope := reached.inScope here absolute directories
    exact ⟨fun request cacheKey path read => (inScope.handedOver here absolute read).1, inScope.loads,
      inScope.modules⟩

def nestedScope : ScriptFsScope := ⟨"/s/a".toList, some "/s".toList⟩

def nestedPlace : ScriptPlace := ⟨['/'], some nestedScope, true, describeRequest⟩

def nestedFiles : ScriptFsContext :=
  ⟨fun _ _ => .error (.notJs ""), id, id, id, fun _ => false, "/s/a/main.js", some "/s/a"⟩

/-- The script includes `../b/x.js`, and main takes the request up. -/
def nestedRequest : IncludeRun Unit :=
  ((initial (nestedPlace.context nestedFiles)).step (nestedPlace.context nestedFiles)
    (.call [.root] (.text "../b/x.js") true)).step (nestedPlace.context nestedFiles) .receive

/-- The file is read, and registered as a module. -/
def nestedLoad : IncludeRun Unit :=
  (nestedRequest.step (nestedPlace.context nestedFiles) (.complete "/s/b/x.js" (.text "1" 1))).step
    (nestedPlace.context nestedFiles) .tick

theorem scripts_stay_inScope_nested :
    (∃ request, Granted (.text "../b/x.js") "/s/a".toList nestedScope request "/s/b/x.js".toList) ∧
      StaysInScope nestedPlace nestedFiles nestedScope nestedLoad ∧
      (nestedLoad.main.byId.get? (.minted 1)).map (·.resolvedPath) = some "/s/b/x.js" := by
  have absolute : nestedScope.Absolute := ⟨rfl, by rintro - ⟨⟩; rfl⟩
  obtain ⟨lexical, runs⟩ := @scripts_stay_inScope Unit nestedScope absolute
  have directories : Directories nestedScope (fun list => list <+: [['s'], ['a']]) := ⟨by decide, by decide⟩
  have reading : (nestedRequest.main.pending.get? "/s/b/x.js").map (names ·.resolvedPath.toList) =
      some [['s'], ['b'], ['x', '.', 'j', 's']] := by decide
  have files : ∀ load, nestedRequest.main.pending.get? "/s/b/x.js" = some load →
      ¬ names load.resolvedPath.toList <+: [['s'], ['a']] := by
    intro load hit
    rw [hit, Option.map_some, Option.some.injEq] at reading
    rw [reading]
    decide
  have asked : Reaches (nestedPlace.context nestedFiles) (fun list => list <+: [['s'], ['a']]) nestedRequest :=
    (Reaches.initial.act (.call [.root] (.text "../b/x.js") true) trivial).act .receive trivial
  have reached : Reaches (nestedPlace.context nestedFiles) (fun list => list <+: [['s'], ['a']]) nestedLoad :=
    (asked.act (.complete _ (.text "1" 1)) files).act .tick trivial
  exact ⟨(lexical ['/'] _ _ _ rfl).mp (by decide),
    runs nestedPlace nestedFiles _ rfl directories _ reached, by decide⟩

end NexTerminal.Scripts.Include
