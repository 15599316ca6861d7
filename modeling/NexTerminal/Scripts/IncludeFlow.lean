import NexTerminal.Scripts.ScriptInclude

/-! One run's includes on both sides of the channel: the worker's module table
(`scriptModuleLoader.ts`), the two message queues, and the microtasks by which the main
side resumes what waits for a read. A message is taken up only once the microtasks
before it are done. -/

namespace NexTerminal.Scripts.Include

open Library

inductive Evaluation (Exports : Type)
  | running
  | exported (exports : Exports)
  | threw (failure : String)
deriving DecidableEq

/-- One module's single evaluation, with the chain its own facade includes from. -/
structure ModuleEntry (Exports : Type) where
  chain : List ModuleId
  exports : Evaluation Exports := .running
deriving DecidableEq

structure ScriptModuleLoader (Exports : Type) where
  modules : SeqMap ModuleId (ModuleEntry Exports)
  specifierMemo : SeqMap (ModuleId × String) ModuleId
  /-- Every call of `evaluate`, by module, in order. -/
  evaluated : List ModuleId

inductive Via
  | source
  | cached
  | memo
deriving DecidableEq

/-- What should never happen, and what the loader says then. -/
inductive Violation
  | memoMissing (module : ModuleId)
  | notHeld (displayName : String)
  | withoutSource (displayName : String)
deriving DecidableEq

def Violation.detail : Violation → String
  | memoMissing module => s!"memoised module {module.text} is missing from the module table"
  | notHeld displayName =>
    s!"main reported {displayName} as already delivered, but this worker has no module for it"
  | withoutSource displayName => s!"main delivered {displayName} without source"

inductive CallState (Exports : Type)
  | loading
  | awaiting (module : ModuleId) (via : Via)
  | resolved (module : ModuleId) (exports : Exports)
  | failed (module : ModuleId) (failure : String)
  | refused (error : IncludeError)
  | broken (violation : Violation)
deriving DecidableEq

/-- One call of `include`. -/
structure IncludeCall (Exports : Type) where
  chain : List ModuleId
  specifier : Specifier
  /-- Whether the body of the module that called is awaiting it. -/
  awaited : Bool
  state : CallState Exports
deriving DecidableEq

def parentOf (chain : List ModuleId) : ModuleId := chain.getLast?.getD .root

def memoKeyOf (chain : List ModuleId) : Specifier → Option (ModuleId × String)
  | .text path => some (parentOf chain, path)
  | .other _ => none

abbrev Answer := Except IncludeError IncludeLoadResult

inductive ReadOutcome
  | text (text : String) (byteLength : Nat)
  | failed (error : IncludeError)
deriving DecidableEq

inductive Task
  /-- `readAndRegister` goes on after its read. -/
  | settle (cacheKey : String) (outcome : ReadOutcome)
  | share (cacheKey : String) (outcome : Except IncludeError IncludeModuleRecord)
  | resume (cacheKey : String) (outcome : Except IncludeError (IncludeModuleRecord × String))
  | join (call : Nat) (label : String) (outcome : Except IncludeError IncludeModuleRecord)
  /-- `dispatchRpc` posts the result. -/
  | reply (call : Nat) (answer : Answer)

structure Request where
  call : Nat
  specifier : Specifier
  chain : List ModuleId

structure IncludeRun (Exports : Type) where
  main : ScriptIncludeState
  tasks : List Task := []
  audit : List AuditLine := []
  requests : List Request := []
  /-- Everything main posted, in order, and how much of it the worker has taken up. -/
  sent : List (Nat × Answer) := []
  received : Nat := 0
  loader : ScriptModuleLoader Exports := ⟨.empty, .empty, []⟩
  calls : List (IncludeCall Exports) := []

namespace IncludeRun

variable {Exports : Type}

def initial (ctx : ScriptFsContext) : IncludeRun Exports := { main := ctx.createScriptIncludeState }

def log (s : IncludeRun Exports) (line : AuditLine) : IncludeRun Exports :=
  { s with audit := s.audit ++ [line] }

def enqueue (s : IncludeRun Exports) (tasks : List Task) : IncludeRun Exports :=
  { s with tasks := s.tasks ++ tasks }

def withPending (s : IncludeRun Exports) (pending : SeqMap String PendingLoad) : IncludeRun Exports :=
  { s with main := { s.main with pending := pending } }

def setCall (s : IncludeRun Exports) (call : Nat) (state : CallState Exports) : IncludeRun Exports :=
  { s with calls := s.calls.modify call fun made => { made with state := state } }

/-- A request is taken up: everything before the first await. -/
def handle (ctx : ScriptFsContext) (s : IncludeRun Exports) (request : Request) : IncludeRun Exports :=
  let label := describeRequest request.specifier
  match s.main.ladder ctx request.specifier request.chain with
  | .refused error => (s.log (error.audit label)).enqueue [.reply request.call (.error error)]
  | .known record =>
    (s.log (.cached label record.displayName)).enqueue [.reply request.call (.ok (cachedResult record))]
  | .inFlight cacheKey load =>
    s.withPending (s.main.pending.set cacheKey
      { load with joiners := load.joiners ++ [(request.call, label)] })
  | .read cacheKey resolvedPath =>
    s.withPending (s.main.pending.set cacheKey
      { call := request.call, label := label, resolvedPath := resolvedPath
        displayName := ctx.displayName resolvedPath })

def settled (s : IncludeRun Exports) (cacheKey : String)
    (outcome : Except IncludeError (IncludeModuleRecord × String)) : IncludeRun Exports :=
  s.enqueue [.share cacheKey (outcome.map Prod.fst), .resume cacheKey outcome]

def settle (ctx : ScriptFsContext) (s : IncludeRun Exports) (cacheKey : String) (load : PendingLoad)
    (outcome : ReadOutcome) : IncludeRun Exports :=
  match outcome with
  | .failed error => (s.log (error.readAudit load.resolvedPath)).settled cacheKey (.error error)
  | .text text byteLength =>
    match s.main.refusal ctx load text byteLength with
    | some error => (s.log (error.audit load.label)).settled cacheKey (.error error)
    | none =>
      let record := s.main.mint ctx cacheKey load
      ({ s with main := s.main.register record byteLength }.log
        (.loaded load.label record.id record.displayName byteLength)).settled cacheKey (.ok (record, text))

def runTask (ctx : ScriptFsContext) (s : IncludeRun Exports) : Task → IncludeRun Exports
  | .settle cacheKey outcome =>
    match s.main.pending.get? cacheKey with
    | none => s
    | some load => s.settle ctx cacheKey load outcome
  | .share cacheKey outcome =>
    match s.main.pending.get? cacheKey with
    | none => s
    | some load => s.enqueue (load.joiners.map fun joiner => .join joiner.1 joiner.2 outcome)
  | .resume cacheKey outcome =>
    match s.main.pending.get? cacheKey with
    | none => s
    | some load =>
      (s.withPending (s.main.pending.erase cacheKey)).enqueue
        [.reply load.call (outcome.map fun delivered => sourceResult delivered.1 delivered.2)]
  | .join call label (.ok record) =>
    (s.log (.cached label record.displayName)).enqueue [.reply call (.ok (cachedResult record))]
  | .join call label (.error error) =>
    (s.log (.refused label error.code none)).enqueue [.reply call (.error error)]
  | .reply call answer => { s with sent := s.sent ++ [(call, answer)] }

/-- `include` up to its first await. -/
def call (s : IncludeRun Exports) (chain : List ModuleId) (specifier : Specifier) (awaited : Bool) :
    IncludeRun Exports :=
  let made (state : CallState Exports) : IncludeCall Exports :=
    { chain := chain, specifier := specifier, awaited := awaited, state := state }
  match (memoKeyOf chain specifier).bind s.loader.specifierMemo.get? with
  | some module =>
    if s.loader.modules.has module then { s with calls := s.calls ++ [made (.awaiting module .memo)] }
    else { s with calls := s.calls ++ [made (.broken (.memoMissing module))] }
  | none =>
    { s with
      calls := s.calls ++ [made .loading]
      requests := s.requests ++ [⟨s.calls.length, specifier, chain⟩] }

/-- `include` after main's answer. -/
def accept (s : IncludeRun Exports) (call : Nat) (chain : List ModuleId) (result : IncludeLoadResult) :
    IncludeRun Exports :=
  if s.loader.modules.has result.moduleId then s.setCall call (.awaiting result.moduleId .cached)
  else if result.cached then s.setCall call (.broken (.notHeld result.displayName))
  else
    match result.source with
    | none => s.setCall call (.broken (.withoutSource result.displayName))
    | some _ =>
      { s with
        loader := { s.loader with
          modules := s.loader.modules.set result.moduleId { chain := chain ++ [result.moduleId] }
          evaluated := s.loader.evaluated ++ [result.moduleId] } }.setCall call
        (.awaiting result.moduleId .source)

def deliver (s : IncludeRun Exports) (call : Nat) (answer : Answer) : IncludeRun Exports :=
  match s.calls[call]? with
  | none => s
  | some made =>
    match answer with
    | .error error => s.setCall call (.refused error)
    | .ok result => s.accept call made.chain result

/-- `include` after the evaluation: successful edges are memoised. -/
def conclude (s : IncludeRun Exports) (call : Nat) (made : IncludeCall Exports) (module : ModuleId)
    (exports : Exports) : IncludeRun Exports :=
  let memo := match memoKeyOf made.chain made.specifier with
    | none => s.loader.specifierMemo
    | some key => s.loader.specifierMemo.set key module
  { s with loader := { s.loader with specifierMemo := memo } }.setCall call (.resolved module exports)

inductive Act (Exports : Type)
  /-- A script calls `include`. -/
  | call (chain : List ModuleId) (specifier : Specifier) (awaited : Bool)
  | receive
  | complete (cacheKey : String) (outcome : ReadOutcome)
  | tick
  | deliver
  | finish (module : ModuleId) (outcome : Evaluation Exports)
  | resume (call : Nat)

def complete (s : IncludeRun Exports) (cacheKey : String) (outcome : ReadOutcome) : IncludeRun Exports :=
  match s.main.pending.get? cacheKey with
  | some load =>
    if load.reading then
      (s.withPending (s.main.pending.set cacheKey { load with reading := false })).enqueue
        [.settle cacheKey outcome]
    else s
  | none => s

def finish (s : IncludeRun Exports) (module : ModuleId) (outcome : Evaluation Exports) : IncludeRun Exports :=
  match s.loader.modules.get? module with
  | some ⟨chain, .running⟩ =>
    { s with loader := { s.loader with modules := s.loader.modules.set module ⟨chain, outcome⟩ } }
  | _ => s

def resume (s : IncludeRun Exports) (call : Nat) (made : IncludeCall Exports) : IncludeRun Exports :=
  match made.state with
  | .awaiting module via =>
    match s.loader.modules.get? module with
    | some ⟨_, .exported exports⟩ =>
      if via = .memo then s.setCall call (.resolved module exports)
      else s.conclude call made module exports
    | some ⟨_, .threw failure⟩ => s.setCall call (.failed module failure)
    | _ => s
  | _ => s

/-- One event of the run; one that cannot happen yet changes nothing. -/
def step (ctx : ScriptFsContext) (s : IncludeRun Exports) : Act Exports → IncludeRun Exports
  | .call chain specifier awaited => s.call chain specifier awaited
  | .receive =>
    match s.tasks, s.requests with
    | [], request :: rest => { s with requests := rest }.handle ctx request
    | _, _ => s
  | .complete cacheKey outcome => s.complete cacheKey outcome
  | .tick =>
    match s.tasks with
    | [] => s
    | task :: rest => { s with tasks := rest }.runTask ctx task
  | .deliver =>
    match s.sent[s.received]? with
    | none => s
    | some (call, answer) => { s with received := s.received + 1 }.deliver call answer
  | .finish module outcome => s.finish module outcome
  | .resume call =>
    match s.calls[call]? with
    | none => s
    | some made => s.resume call made

def run (ctx : ScriptFsContext) (s : IncludeRun Exports) (acts : List (Act Exports)) : IncludeRun Exports :=
  acts.foldl (step ctx) s

end IncludeRun

def sourceOf : Answer → Option ModuleId
  | .ok result => if result.cached then none else some result.moduleId
  | .error _ => none

def cachedOf : Answer → Option ModuleId
  | .ok result => if result.cached then some result.moduleId else none
  | .error _ => none

/-- Every module taken for delivered has its source among the earlier answers. -/
def SourceFirst (before : List ModuleId) : List Answer → Prop
  | [] => True
  | answer :: rest =>
    (∀ id, cachedOf answer = some id → id ∈ before) ∧ SourceFirst (before ++ (sourceOf answer).toList) rest

def Task.posts : Task → Option Answer
  | .reply _ answer => some answer
  | _ => none

/-- The module whose source the task is about to hand over. -/
def Task.resumes : Task → Option ModuleId
  | .resume _ (.ok delivered) => some delivered.1.id
  | _ => none

/-- Callers that joined go on after the one that has the source. -/
def JoinsFollow (known : List ModuleId) : List Task → Prop
  | [] => True
  | task :: rest =>
    (∀ call label record, task = .join call label (.ok record) → record.id ∈ known) ∧
      JoinsFollow (known ++ task.resumes.toList) rest

/-- A shared promise settles before the caller with the source goes on. -/
def SharesLead : List Task → Prop
  | [] => True
  | task :: rest =>
    (∀ cacheKey record, task = .share cacheKey (.ok record) → record.id ∈ rest.filterMap Task.resumes) ∧
      SharesLead rest

/-- Everything main has posted or is about to post, in order. -/
def answersOf (posted : List Answer) (tasks : List Task) : List Answer := posted ++ tasks.filterMap Task.posts

structure Flow (ids : List ModuleId) (posted : List Answer) (tasks : List Task) : Prop where
  order : SourceFirst [] (answersOf posted tasks)
  once : (.root :: ((answersOf posted tasks).filterMap sourceOf ++ tasks.filterMap Task.resumes)).Perm ids
  joins : JoinsFollow ((answersOf posted tasks).filterMap sourceOf) tasks
  shares : SharesLead tasks

def Task.Inert : Task → Prop
  | .settle _ _ | .share _ (.error _) | .resume _ (.error _) | .join _ _ (.error _) | .reply _ (.error _) => True
  | _ => False

section Lists

variable {known before : List ModuleId} {answers later : List Answer} {tasks more : List Task}

theorem toList_filterMap {α β : Type} (f : α → Option β) (a : α) (rest : List α) :
    (a :: rest).filterMap f = (f a).toList ++ rest.filterMap f := by
  rw [List.filterMap_cons]
  cases f a with
  | none | some b => rfl

theorem SourceFirst.append :
    SourceFirst before (answers ++ later) ↔
      SourceFirst before answers ∧ SourceFirst (before ++ answers.filterMap sourceOf) later := by
  induction answers generalizing before with
  | nil => simp [SourceFirst]
  | cons answer rest ih =>
    simp [SourceFirst, ih, toList_filterMap, and_assoc]

theorem JoinsFollow.mono {more : List ModuleId} (follow : JoinsFollow known tasks)
    (wider : ∀ id ∈ known, id ∈ more) : JoinsFollow more tasks := by
  induction tasks generalizing known more with
  | nil => trivial
  | cons task rest ih =>
    refine ⟨fun call label record shape => wider _ (follow.1 call label record shape), ?_⟩
    refine ih follow.2 fun id inside => ?_
    rw [List.mem_append] at inside ⊢
    exact inside.imp_left (wider id)

theorem JoinsFollow.append :
    JoinsFollow known (tasks ++ more) ↔
      JoinsFollow known tasks ∧ JoinsFollow (known ++ tasks.filterMap Task.resumes) more := by
  induction tasks generalizing known with
  | nil => simp [JoinsFollow]
  | cons task rest ih =>
    simp [JoinsFollow, ih, toList_filterMap, and_assoc]

/-- In a row, shares still come before their callers. -/
theorem SharesLead.append (lead : SharesLead tasks) (after : SharesLead more) : SharesLead (tasks ++ more) := by
  induction tasks with
  | nil => exact after
  | cons task rest ih =>
    refine ⟨fun key record shape => ?_, ih lead.2⟩
    have due := List.mem_append_left (more.filterMap Task.resumes) (lead.1 key record shape)
    rwa [← List.filterMap_append] at due

theorem Task.Inert.spec {task : Task} (inert : task.Inert) :
    task.resumes = none ∧ (∀ call label record, task ≠ .join call label (.ok record)) ∧
      (∀ key record, task ≠ .share key (.ok record)) ∧
      ∀ answer, task.posts = some answer → sourceOf answer = none ∧ cachedOf answer = none := by
  cases task with
  | settle key outcome => exact ⟨rfl, nofun, nofun, nofun⟩
  | share key outcome =>
    cases outcome with
    | ok record => cases inert
    | error error => exact ⟨rfl, nofun, nofun, nofun⟩
  | resume key outcome =>
    cases outcome with
    | ok delivered => cases inert
    | error error => exact ⟨rfl, nofun, nofun, nofun⟩
  | join call label outcome =>
    cases outcome with
    | ok record => cases inert
    | error error => exact ⟨rfl, nofun, nofun, nofun⟩
  | reply call answer =>
    cases answer with
    | ok res => cases inert
    | error error =>
      refine ⟨rfl, nofun, nofun, ?_⟩
      rintro - ⟨⟩
      exact ⟨rfl, rfl⟩

end Lists

namespace Flow

variable {ids : List ModuleId} {posted : List Answer} {tasks : List Task} {task : Task}

theorem answersOf_push (posted : List Answer) (tasks : List Task) (task : Task) :
    answersOf posted (tasks ++ [task]) = answersOf posted tasks ++ task.posts.toList := by
  rw [answersOf, answersOf, List.filterMap_append, List.append_assoc, toList_filterMap]
  simp

theorem push {grown : List ModuleId} (flow : Flow ids posted tasks)
    (cached : ∀ answer id, task.posts = some answer → cachedOf answer = some id →
      id ∈ (answersOf posted tasks).filterMap sourceOf)
    (joined : ∀ call label record, task = .join call label (.ok record) →
      record.id ∈ (answersOf posted tasks).filterMap sourceOf ∨ record.id ∈ tasks.filterMap Task.resumes)
    (shared : ∀ key record, task ≠ .share key (.ok record))
    (grows : (ids ++ (task.resumes.toList ++ task.posts.toList.filterMap sourceOf)).Perm grown) :
    Flow grown posted (tasks ++ [task]) := by
  have wider : ∀ id ∈ (answersOf posted tasks).filterMap sourceOf,
      id ∈ (answersOf posted (tasks ++ [task])).filterMap sourceOf := by
    intro id inside
    rw [answersOf_push, List.filterMap_append]
    exact List.mem_append_left _ inside
  refine ⟨?_, ?_, ?_, ?_⟩
  · rw [answersOf_push, SourceFirst.append]
    refine ⟨flow.order, ?_⟩
    cases posts : task.posts with
    | none => trivial
    | some answer => exact ⟨fun id taken => cached answer id posts taken, trivial⟩
  · refine List.Perm.trans ?_ grows
    rw [answersOf_push, List.filterMap_append, List.filterMap_append, toList_filterMap Task.resumes]
    simp only [List.filterMap_nil, List.append_nil]
    refine List.Perm.trans ?_ (flow.once.append_right _)
    rw [List.cons_append]
    refine List.Perm.cons _ ?_
    simp only [List.append_assoc]
    refine List.Perm.append_left _ ?_
    rw [← List.append_assoc (tasks.filterMap Task.resumes)]
    exact List.perm_append_comm
  · rw [JoinsFollow.append]
    refine ⟨flow.joins.mono wider, fun call label record shape => ?_, trivial⟩
    rw [List.mem_append]
    exact (joined call label record shape).imp_left (wider _)
  · exact flow.shares.append ⟨fun key record shape => absurd shape (shared key record), trivial⟩

theorem push_inert (flow : Flow ids posted tasks) (inert : task.Inert) : Flow ids posted (tasks ++ [task]) := by
  obtain ⟨resumes, joins, shares, posts⟩ := inert.spec
  refine flow.push ?_ (fun call label record shape => absurd shape (joins call label record)) shares ?_
  · intro answer id made taken
    rw [(posts answer made).2] at taken
    cases taken
  · rw [resumes]
    cases made : task.posts with
    | none => simp
    | some answer => simp [(posts answer made).1]

variable {record : IncludeModuleRecord}

section

variable (flow : Flow ids posted tasks)
include flow

theorem push_cached (out : record.id ∈ (answersOf posted tasks).filterMap sourceOf) (call : Nat) :
    Flow ids posted (tasks ++ [.reply call (.ok (cachedResult record))]) := by
  refine flow.push ?_ nofun nofun (by simp [Task.resumes, Task.posts, sourceOf, cachedResult])
  rintro - id ⟨⟩ taken
  cases taken
  exact out

variable {outcome : Except IncludeError IncludeModuleRecord}

theorem push_join
    (due : ∀ record, outcome = .ok record → record.id ∈ (answersOf posted tasks).filterMap sourceOf ∨
      record.id ∈ tasks.filterMap Task.resumes) (call : Nat) (label : String) :
    Flow ids posted (tasks ++ [.join call label outcome]) := by
  refine flow.push nofun ?_ nofun (by simp [Task.resumes, Task.posts])
  rintro - - record ⟨⟩
  exact due record rfl

theorem push_joins
    (due : ∀ record, outcome = .ok record → record.id ∈ (answersOf posted tasks).filterMap sourceOf ∨
      record.id ∈ tasks.filterMap Task.resumes) (joiners : List (Nat × String)) :
    Flow ids posted (tasks ++ joiners.map fun joiner => .join joiner.1 joiner.2 outcome) := by
  induction joiners generalizing tasks with
  | nil => simpa using flow
  | cons joiner rest ih =>
    have next := flow.push_join due joiner.1 joiner.2
    rw [List.map_cons, ← List.singleton_append, ← List.append_assoc]
    refine ih next fun record shape => ?_
    have same : answersOf posted (tasks ++ [.join joiner.1 joiner.2 outcome]) = answersOf posted tasks := by
      rw [answersOf_push]
      simp [Task.posts]
    rw [same, List.filterMap_append]
    exact (due record shape).imp_right (List.mem_append_left _)

theorem push_registered (key text : String) (record : IncludeModuleRecord) : Flow (ids ++ [record.id]) posted
      (tasks ++ [.share key (.ok record), .resume key (.ok (record, text))]) := by
  have same : answersOf posted (tasks ++ [.share key (.ok record), .resume key (.ok (record, text))])
      = answersOf posted tasks := by
    simp [answersOf, Task.posts]
  refine ⟨same ▸ flow.order, ?_, ?_, ?_⟩
  · rw [same]
    have grown := flow.once.append_right [record.id]
    simpa [toList_filterMap, Task.resumes] using grown
  · rw [same, JoinsFollow.append]
    exact ⟨flow.joins, nofun, nofun, trivial⟩
  · refine flow.shares.append ⟨?_, nofun, trivial⟩
    simp [Task.resumes]

end

theorem pop_quiet (flow : Flow ids posted (task :: tasks)) (posts : task.posts = none)
    (resumes : task.resumes = none) : Flow ids posted tasks := by
  have same : answersOf posted (task :: tasks) = answersOf posted tasks := by
    simp [answersOf, posts]
  have resumed : (task :: tasks).filterMap Task.resumes = tasks.filterMap Task.resumes := by simp [resumes]
  obtain ⟨order, once, joins, shares⟩ := flow
  rw [same] at order once joins
  rw [resumed] at once
  exact ⟨order, once, by simpa [resumes] using joins.2, shares.2⟩

theorem pop_reply {call : Nat} {answer : Answer} (flow : Flow ids posted (.reply call answer :: tasks)) :
    Flow ids (posted ++ [answer]) tasks := by
  have same : answersOf posted (.reply call answer :: tasks) = answersOf (posted ++ [answer]) tasks := by
    simp [answersOf, Task.posts]
  obtain ⟨order, once, joins, shares⟩ := flow
  rw [same] at order once joins
  exact ⟨order, by simpa [toList_filterMap, Task.resumes] using once, by simpa [Task.resumes] using joins.2,
    shares.2⟩

theorem pop_resume {key text : String} (flow : Flow ids posted (.resume key (.ok (record, text)) :: tasks))
    (call : Nat) : Flow ids posted (tasks ++ [.reply call (.ok (sourceResult record text))]) := by
  have answers : answersOf posted (tasks ++ [.reply call (.ok (sourceResult record text))]) =
      answersOf posted (.resume key (.ok (record, text)) :: tasks) ++ [.ok (sourceResult record text)] := by
    simp [answersOf, toList_filterMap, Task.posts]
  have source : sourceOf (.ok (sourceResult record text)) = some record.id := rfl
  obtain ⟨order, once, joins, shares⟩ := flow
  refine ⟨?_, ?_, ?_, ?_⟩
  · rw [answers, SourceFirst.append]
    exact ⟨order, nofun, trivial⟩
  · rw [answers, List.filterMap_append, List.filterMap_append]
    refine List.Perm.trans (List.Perm.cons _ ?_) once
    simp [toList_filterMap, Task.resumes, source]
  · rw [answers, JoinsFollow.append, List.filterMap_append]
    refine ⟨joins.2.mono ?_, nofun, trivial⟩
    simp [Task.resumes, source]
  · exact shares.2.append ⟨nofun, trivial⟩

theorem join_out {call : Nat} {label : String} (flow : Flow ids posted (.join call label (.ok record) :: tasks)) :
    record.id ∈ (answersOf posted tasks).filterMap sourceOf :=
  flow.joins.1 call label record rfl

theorem share_due {key : String} (flow : Flow ids posted (.share key (.ok record) :: tasks)) :
    record.id ∈ tasks.filterMap Task.resumes :=
  flow.shares.1 key record rfl

theorem idle_out (flow : Flow ids posted []) {id : ModuleId} (registered : id ∈ ids) (minted : id ≠ .root) :
    id ∈ posted.filterMap sourceOf := by
  have mem := flow.once.mem_iff.mpr registered
  simpa [minted, answersOf] using mem

end Flow

end NexTerminal.Scripts.Include
