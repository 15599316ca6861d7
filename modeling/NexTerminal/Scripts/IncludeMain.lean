import NexTerminal.Scripts.IncludeTables

namespace NexTerminal.Scripts.Include

open Library

/-- The tables, the limits and the order of what is posted. -/
structure MainInvariant {Exports : Type} (s : IncludeRun Exports) : Prop where
  tables : Tables s.main
  loads : Loads s.main s.tasks
  flow : Flow s.main.byId.keys (s.sent.map Prod.snd) s.tasks
  budget : Budget s.main s.audit

theorem IncludeError.audit_size (error : IncludeError) (label : String) : (error.audit label).size = none := rfl

theorem IncludeError.readAudit_size (error : IncludeError) (resolvedPath : String) :
    (error.readAudit resolvedPath).size = none := by
  unfold readAudit
  split <;> rfl

namespace ScriptIncludeState

variable {state : ScriptIncludeState} {ctx : ScriptFsContext} {requested : Specifier} {chain : List ModuleId}

theorem recordOf_ok {id : ModuleId} {record : IncludeModuleRecord} :
    state.recordOf id = .ok record ↔ state.byId.get? id = some record := by
  unfold recordOf
  cases state.byId.get? id with
  | none => exact ⟨nofun, nofun⟩
  | some hit => simp

theorem mapM_recordOf {ids : List ModuleId} {records : List IncludeModuleRecord}
    (all : ids.mapM state.recordOf = .ok records) : ids.map state.byId.get? = records.map some := by
  induction ids generalizing records with
  | nil =>
    cases all
    rfl
  | cons id ids ih =>
    rw [List.mapM_cons] at all
    cases first : state.recordOf id with
    | error error =>
      rw [first] at all
      cases all
    | ok record =>
      cases rest : ids.mapM state.recordOf with
      | error error =>
        rw [first, rest] at all
        cases all
      | ok records' =>
        rw [first, rest] at all
        cases all
        rw [List.map_cons, List.map_cons, ih rest, recordOf_ok.mp first]

theorem validateChain_spec {parents : List IncludeModuleRecord} (valid : state.validateChain chain = .ok parents) :
    chain.head? = some .root ∧ chain.map state.byId.get? = parents.map some := by
  unfold validateChain at valid
  split at valid
  · cases valid
  · split at valid
    · cases valid
    · rename_i same
      exact ⟨congrArg some (not_not.mp same), mapM_recordOf valid⟩

def Asks (state : ScriptIncludeState) (ctx : ScriptFsContext) (parent : ModuleId) (requested : Specifier)
    (cacheKey : String) : Prop :=
  ∃ record path, state.byId.get? parent = some record ∧ ctx.resolve requested record.dirPath = .ok path ∧
    ctx.cacheKey path = cacheKey

inductive Climbs (state : ScriptIncludeState) (ctx : ScriptFsContext) (requested : Specifier)
    (chain : List ModuleId) : Rung → Prop
  | refused (error) : Climbs state ctx requested chain (.refused error)
  | known {record} (asks : state.Asks ctx (parentOf chain) requested record.cacheKey)
      (found : state.byKey.get? record.cacheKey = some record) (rooted : .root ∈ chain)
      (below : record.id ∉ chain) :
      Climbs state ctx requested chain (.known record)
  | inFlight {cacheKey load} (asks : state.Asks ctx (parentOf chain) requested cacheKey)
      (found : state.pending.get? cacheKey = some load) : Climbs state ctx requested chain (.inFlight cacheKey load)
  | read {cacheKey resolvedPath} (asks : state.Asks ctx (parentOf chain) requested cacheKey)
      (unknown : state.byKey.get? cacheKey = none) (idle : state.pending.get? cacheKey = none)
      (room : state.committed < scriptIncludeMaxModules) :
      Climbs state ctx requested chain (.read cacheKey resolvedPath)

theorem ladder_climbs (tables : Tables state) (ctx : ScriptFsContext) (requested : Specifier)
    (chain : List ModuleId) : Climbs state ctx requested chain (state.ladder ctx requested chain) := by
  unfold ladder
  cases valid : state.validateChain chain with
  | error error => exact .refused error
  | ok parents =>
    obtain ⟨head, records⟩ := validateChain_spec valid
    simp only
    split
    · exact .refused _
    · cases resolved : ctx.resolve requested (parents.getLast?.bind IncludeModuleRecord.dirPath) with
      | error error => exact .refused error
      | ok path =>
        simp only
        split
        · exact .refused _
        · have asks : state.Asks ctx (parentOf chain) requested (ctx.cacheKey path) := by
            have last := congrArg List.getLast? records
            rw [List.getLast?_map, List.getLast?_map] at last
            cases bottom : chain.getLast? with
            | none =>
              rw [List.getLast?_eq_none_iff] at bottom
              subst bottom
              cases head
            | some id =>
              cases parent : parents.getLast? with
              | none =>
                rw [bottom, parent] at last
                cases last
              | some record =>
                rw [bottom, parent, Option.map_some, Option.map_some, Option.some.injEq] at last
                rw [parent] at resolved
                exact ⟨record, path, by rw [parentOf, bottom]; exact last, resolved, rfl⟩
          unfold lookUp
          cases ancestor : parents.find? fun record => record.cacheKey == ctx.cacheKey path with
          | some hit => exact .refused _
          | none =>
            cases known : state.byKey.get? (ctx.cacheKey path) with
            | some record =>
              obtain ⟨same, atId⟩ := tables.byKey _ record known
              refine .known (same ▸ asks) (same ▸ known) (List.mem_of_head? head) fun inside => ?_
              have listed : some record ∈ chain.map state.byId.get? := List.mem_map.mpr ⟨record.id, inside, atId⟩
              rw [records, List.mem_map] at listed
              obtain ⟨mem, isParent, shape⟩ := listed
              cases shape
              have absent := List.find?_eq_none.mp ancestor record isParent
              simp [same] at absent
            | none =>
              cases flight : state.pending.get? (ctx.cacheKey path) with
              | some load => exact .inFlight asks flight
              | none =>
                simp only
                split
                · exact .refused _
                · rename_i room
                  split
                  · exact .refused _
                  · exact .read asks known flight (Nat.lt_of_not_le room)

end ScriptIncludeState

namespace MainInvariant

variable {Exports : Type} {s : IncludeRun Exports}

theorem of_same {next : IncludeRun Exports} (inv : MainInvariant s) (main : next.main = s.main)
    (tasks : next.tasks = s.tasks) (sent : next.sent = s.sent) (audit : next.audit = s.audit) :
    MainInvariant next := by
  refine ⟨main ▸ inv.tables, ?_, ?_, ?_⟩
  · rw [main, tasks]
    exact inv.loads
  · rw [main, tasks, sent]
    exact inv.flow
  · rw [main, audit]
    exact inv.budget

theorem log (inv : MainInvariant s) {line : AuditLine} (small : line.size = none) : MainInvariant (s.log line) :=
  ⟨inv.tables, inv.loads, inv.flow, inv.budget.log small⟩

theorem enqueue_error (inv : MainInvariant s) (call : Nat) (error : IncludeError) :
    MainInvariant (s.enqueue [.reply call (.error error)]) :=
  ⟨inv.tables, inv.loads.push_reply call _, inv.flow.push_inert trivial, inv.budget⟩

theorem enqueue_cached (inv : MainInvariant s) {record : IncludeModuleRecord}
    (out : record.id ∈ (answersOf (s.sent.map Prod.snd) s.tasks).filterMap sourceOf) (call : Nat) :
    MainInvariant (s.enqueue [.reply call (.ok (cachedResult record))]) :=
  ⟨inv.tables, inv.loads.push_reply call _, inv.flow.push_cached out call, inv.budget⟩

variable {tasks : List Task}

theorem settled_error {cacheKey : String} {outcome : ReadOutcome} (inv : MainInvariant s)
    (waiting : s.tasks = .settle cacheKey outcome :: tasks) (error : IncludeError) :
    MainInvariant ({ s with tasks := tasks }.settled cacheKey (.error error)) := by
  obtain ⟨tables, loads, flow, budget⟩ := inv
  rw [waiting] at loads flow
  refine ⟨tables, loads.settle rfl (fun _ _ hit => hit) (fun _ _ hit => hit) nofun ?_, ?_, budget⟩
  · exact fun key present absent => absurd absent present
  · have quiet := flow.pop_quiet rfl rfl
    have shared : Task.Inert (.share cacheKey (.error error)) := trivial
    have resumed : Task.Inert (.resume cacheKey (.error error)) := trivial
    have both := (quiet.push_inert shared).push_inert resumed
    rw [List.append_assoc] at both
    exact both

theorem settled_ok {cacheKey text : String} {byteLength : Nat} {load : PendingLoad} {record : IncludeModuleRecord}
    (inv : MainInvariant s) (waiting : s.tasks = .settle cacheKey (.text text byteLength) :: tasks)
    (hit : s.main.pending.get? cacheKey = some load) (key : record.cacheKey = cacheKey)
    (id : record.id = .minted s.main.nextId)
    (room : s.main.totalSourceBytes + byteLength ≤ scriptIncludeMaxTotalSourceBytes) :
    MainInvariant (({ s with tasks := tasks, main := s.main.register record byteLength }.log
      (.loaded load.label record.id record.displayName byteLength)).settled cacheKey (.ok (record, text))) := by
  obtain ⟨tables, loads, flow, budget⟩ := inv
  rw [waiting] at loads flow
  have unknown := loads.settle_unregistered hit
  have fresh : s.main.byId.get? record.id = none := id ▸ tables.fresh
  subst key
  refine ⟨tables.register id unknown byteLength, loads.settle_registered unknown fresh, ?_,
    budget.register hit unknown fresh room load.label⟩
  have grown : (s.main.register record byteLength).byId.keys = s.main.byId.keys ++ [record.id] := by
    exact SeqMap.keys_set_new (by simp [SeqMap.mem_keys, fresh]) _
  have pushed := (flow.pop_quiet rfl rfl).push_registered record.cacheKey text record
  rw [← grown] at pushed
  exact pushed

theorem handle (inv : MainInvariant s) (idle : s.tasks = []) (ctx : ScriptFsContext) (req : Request) :
    MainInvariant (s.handle ctx req) := by
  have climbs := ScriptIncludeState.ladder_climbs inv.tables ctx req.specifier req.chain
  unfold IncludeRun.handle
  generalize s.main.ladder ctx req.specifier req.chain = rung at climbs
  cases climbs with
  | refused error => exact (inv.log (error.audit_size _)).enqueue_error req.call error
  | @known record asks hit rooted below =>
    have atId := (inv.tables.byKey _ record hit).2
    have minted : record.id ≠ .root := fun same => below (same ▸ rooted)
    have flow := idle ▸ inv.flow
    have mem : record.id ∈ s.main.byId.keys := SeqMap.mem_keys.mpr (by rw [atId]; rfl)
    have logged : MainInvariant
        (s.log (.cached (describeRequest req.specifier) record.displayName)) := inv.log rfl
    refine logged.enqueue_cached ?_ req.call
    show record.id ∈ (answersOf (s.sent.map Prod.snd) s.tasks).filterMap sourceOf
    rw [idle, answersOf]
    simpa using flow.idle_out mem minted
  | inFlight asks hit =>
    exact ⟨inv.tables.withPending _, inv.loads.join hit rfl, inv.flow, inv.budget.update hit⟩
  | read asks unknown resting room =>
    exact ⟨inv.tables.withPending _, inv.loads.start resting unknown rfl, inv.flow, inv.budget.start resting room⟩

theorem complete (inv : MainInvariant s) (key : String) (outcome : ReadOutcome) :
    MainInvariant (s.complete key outcome) := by
  unfold IncludeRun.complete
  split
  · rename_i load hit
    split
    · rename_i reading
      exact ⟨inv.tables.withPending _, inv.loads.complete hit reading, inv.flow.push_inert trivial,
        inv.budget.update hit⟩
    · exact inv
  · exact inv

/-- A read that settles keeps the invariant of main. -/
theorem settle {tasks : List Task} {key : String} {outcome : ReadOutcome} {load : PendingLoad}
    (inv : MainInvariant s) (waiting : s.tasks = .settle key outcome :: tasks)
    (hit : s.main.pending.get? key = some load) (ctx : ScriptFsContext) :
    MainInvariant ({ s with tasks := tasks }.settle ctx key load outcome) := by
  unfold IncludeRun.settle
  cases outcome with
  | failed error => exact (inv.log (error.readAudit_size load.resolvedPath)).settled_error waiting error
  | text text byteLength =>
    simp only
    split
    · rename_i error _
      exact (inv.log (error.audit_size load.label)).settled_error waiting error
    · rename_i ok
      refine inv.settled_ok waiting hit rfl rfl ?_
      unfold ScriptIncludeState.refusal at ok
      split at ok
      · cases ok
      · split at ok
        · cases ok
        · rename_i room
          exact Nat.le_of_not_lt room

theorem tick {task : Task} (inv : MainInvariant s) (waiting : s.tasks = task :: tasks) (ctx : ScriptFsContext) :
    MainInvariant ({ s with tasks := tasks }.runTask ctx task) := by
  have loads : Loads s.main (task :: tasks) := waiting ▸ inv.loads
  have flow : Flow s.main.byId.keys (s.sent.map Prod.snd) (task :: tasks) := waiting ▸ inv.flow
  cases task with
  | settle key outcome =>
    obtain ⟨load, hit, _⟩ := (loads.due key).mp (by simp [Task.settling])
    simp only [IncludeRun.runTask, hit]
    exact inv.settle waiting hit ctx
  | share key outcome =>
    have popped := loads.pop rfl
    have quiet := flow.pop_quiet rfl rfl
    simp only [IncludeRun.runTask]
    split
    · exact ⟨inv.tables, popped, quiet, inv.budget⟩
    · rename_i load hit
      refine ⟨inv.tables, popped.push_joins ?_ load.joiners, quiet.push_joins ?_ load.joiners, inv.budget⟩
      · rintro record rfl
        exact (inv.tables.byKey _ record (loads.shared key record (List.mem_cons_self ..))).2
      · rintro record rfl
        exact .inr flow.share_due
  | resume key outcome =>
    obtain ⟨load, hit, _⟩ := (loads.due key).mp (by simp [Task.settling])
    simp only [IncludeRun.runTask, hit]
    refine ⟨inv.tables.withPending _, loads.resume.push_reply load.call _, ?_, inv.budget.erase⟩
    cases outcome with
    | error error => exact (flow.pop_quiet rfl rfl).push_inert trivial
    | ok delivered => exact flow.pop_resume load.call
  | join call label outcome =>
    have popped : MainInvariant { s with tasks := tasks } :=
      ⟨inv.tables, loads.pop rfl, flow.pop_quiet rfl rfl, inv.budget⟩
    cases outcome with
    | error error => exact (popped.log rfl).enqueue_error call error
    | ok record => exact (popped.log rfl).enqueue_cached flow.join_out call
  | reply call answer =>
    refine ⟨inv.tables, loads.pop rfl, ?_, inv.budget⟩
    have posted := flow.pop_reply
    have same : (s.sent ++ [(call, answer)]).map Prod.snd = s.sent.map Prod.snd ++ [answer] := List.map_append
    rwa [← same] at posted

end MainInvariant

end NexTerminal.Scripts.Include
