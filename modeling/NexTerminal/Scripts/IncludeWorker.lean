import NexTerminal.Scripts.IncludeMain

namespace NexTerminal.Scripts.Include

open Library

variable {Exports : Type}

namespace IncludeRun

structure Continues (s next : IncludeRun Exports) : Prop where
  calls : ∀ (call : Nat) (made : IncludeCall Exports), s.calls[call]? = some made →
    ∃ now, next.calls[call]? = some now ∧ now.chain = made.chain ∧ now.specifier = made.specifier
  byId : ∀ (id : ModuleId) (record : IncludeModuleRecord), s.main.byId.get? id = some record →
    next.main.byId.get? id = some record

def Wants (ctx : ScriptFsContext) (s : IncludeRun Exports) (call : Nat) (cacheKey : String) : Prop :=
  ∃ made, s.calls[call]? = some made ∧ s.main.Asks ctx (parentOf made.chain) made.specifier cacheKey

end IncludeRun

open IncludeRun

/-- What is on its way to a call concerns the file it asked for. -/
structure Fulfils (ctx : ScriptFsContext) (s : IncludeRun Exports) : Prop where
  requests : ∀ request ∈ s.requests, ∃ made, s.calls[request.call]? = some made ∧
    made.chain = request.chain ∧ made.specifier = request.specifier
  pending : ∀ (cacheKey : String) (load : PendingLoad), s.main.pending.get? cacheKey = some load →
    s.Wants ctx load.call cacheKey ∧ ∀ joiner ∈ load.joiners, s.Wants ctx joiner.1 cacheKey
  joins : ∀ (call : Nat) (label : String) (record : IncludeModuleRecord),
    Task.join call label (.ok record) ∈ s.tasks → s.Wants ctx call record.cacheKey
  answers : ∀ (call : Nat) (result : IncludeLoadResult),
    (call, .ok result) ∈ s.sent ∨ Task.reply call (.ok result) ∈ s.tasks →
    (∃ record, s.main.byId.get? result.moduleId = some record ∧ s.Wants ctx call record.cacheKey) ∧
      (result.cached = false → result.source ≠ none)

/-- The module a call was given is the one its file is registered as. -/
def Names (ctx : ScriptFsContext) (s : IncludeRun Exports) (parent : ModuleId) (specifier : Specifier)
    (module : ModuleId) : Prop :=
  ∃ record, s.main.byId.get? module = some record ∧ s.main.Asks ctx parent specifier record.cacheKey

def CallState.Fits (ctx : ScriptFsContext) (s : IncludeRun Exports) (made : IncludeCall Exports) :
    CallState Exports → Prop
  | .loading | .refused _ => True
  | .awaiting module via =>
    s.loader.modules.has module = true ∧ Names ctx s (parentOf made.chain) made.specifier module ∧
      (via = .memo → ∃ chain exports, s.loader.modules.get? module = some ⟨chain, .exported exports⟩)
  | .resolved module exports =>
    (∃ chain, s.loader.modules.get? module = some ⟨chain, .exported exports⟩) ∧
      Names ctx s (parentOf made.chain) made.specifier module
  | .failed module failure => ∃ chain, s.loader.modules.get? module = some ⟨chain, .threw failure⟩
  | .broken _ => False

structure WorkerInvariant (ctx : ScriptFsContext) (s : IncludeRun Exports) : Prop where
  taken : s.received ≤ s.sent.length
  held : s.loader.modules.keys = ((s.sent.take s.received).map Prod.snd).filterMap sourceOf
  evaluated : s.loader.evaluated = s.loader.modules.keys
  calls : ∀ (call : Nat) (made : IncludeCall Exports), s.calls[call]? = some made → made.state.Fits ctx s made
  memo : ∀ (parent : ModuleId) (path : String) (module : ModuleId),
    s.loader.specifierMemo.get? (parent, path) = some module →
    (∃ chain exports, s.loader.modules.get? module = some ⟨chain, .exported exports⟩) ∧
      Names ctx s parent (.text path) module

section Carry

variable {ctx : ScriptFsContext} {s next : IncludeRun Exports}

theorem ScriptIncludeState.Asks.carry {main main' : ScriptIncludeState} {parent : ModuleId}
    {specifier : Specifier} {cacheKey : String} (asks : main.Asks ctx parent specifier cacheKey)
    (byId : ∀ (id : ModuleId) (record : IncludeModuleRecord), main.byId.get? id = some record →
      main'.byId.get? id = some record) : main'.Asks ctx parent specifier cacheKey := by
  obtain ⟨record, path, hit, resolved, key⟩ := asks
  exact ⟨record, path, byId _ record hit, resolved, key⟩

theorem Wants.carry {call : Nat} {cacheKey : String} (wants : s.Wants ctx call cacheKey)
    (continues : s.Continues next) : next.Wants ctx call cacheKey := by
  obtain ⟨made, hit, asks⟩ := wants
  obtain ⟨now, there, chain, specifier⟩ := continues.calls call made hit
  exact ⟨now, there, by rw [chain, specifier]; exact asks.carry continues.byId⟩

theorem Names.carry {parent : ModuleId} {specifier : Specifier} {module : ModuleId}
    (names : Names ctx s parent specifier module) (continues : s.Continues next) :
    Names ctx next parent specifier module := by
  obtain ⟨record, hit, asks⟩ := names
  exact ⟨record, continues.byId module record hit, asks.carry continues.byId⟩

theorem Continues.of_same (calls : next.calls = s.calls) (main : next.main.byId = s.main.byId) : s.Continues next :=
  ⟨fun call made hit => ⟨made, by rw [calls]; exact hit, rfl, rfl⟩,
    fun id record hit => by rw [main]; exact hit⟩

theorem WorkerInvariant.carry (inv : WorkerInvariant ctx s) (continues : s.Continues next)
    (loader : next.loader = s.loader) (calls : next.calls = s.calls) (received : next.received = s.received)
    (sent : s.sent <+: next.sent) : WorkerInvariant ctx next := by
  obtain ⟨more, whole⟩ := sent
  have taken : next.sent.take next.received = s.sent.take s.received := by
    rw [received, ← whole, List.take_append_of_le_length inv.taken]
  refine ⟨?_, ?_, ?_, ?_, ?_⟩
  · rw [received, ← whole, List.length_append]
    exact Nat.le_trans inv.taken (Nat.le_add_right _ _)
  · rw [taken, loader]
    exact inv.held
  · rw [loader]
    exact inv.evaluated
  · intro call made hit
    rw [calls] at hit
    have fits := inv.calls call made hit
    unfold CallState.Fits at fits ⊢
    rw [loader]
    cases state : made.state with
    | loading | refused error => trivial
    | awaiting module via =>
      rw [state] at fits
      exact ⟨fits.1, fits.2.1.carry continues, fits.2.2⟩
    | resolved module exports =>
      rw [state] at fits
      exact ⟨fits.1, fits.2.carry continues⟩
    | failed module failure | broken violation =>
      rw [state] at fits
      exact fits
  · intro parent path module hit
    rw [loader] at hit ⊢
    exact (inv.memo parent path module hit).imp_right fun names => names.carry continues

theorem Fulfils.carry (fulfils : Fulfils ctx s) (continues : s.Continues next)
    (requests : ∀ req ∈ next.requests, req ∈ s.requests) (pending : next.main.pending = s.main.pending)
    (joins : ∀ call label record, Task.join call label (.ok record) ∈ next.tasks →
      Task.join call label (.ok record) ∈ s.tasks) (answers : ∀ call res,
      (call, .ok res) ∈ next.sent ∨ Task.reply call (.ok res) ∈ next.tasks →
      (call, .ok res) ∈ s.sent ∨ Task.reply call (.ok res) ∈ s.tasks) : Fulfils ctx next := by
  refine ⟨?_, ?_, ?_, ?_⟩
  · intro req queued
    obtain ⟨made, hit, chain, specifier⟩ := fulfils.requests req (requests req queued)
    obtain ⟨now, there, same, alike⟩ := continues.calls req.call made hit
    exact ⟨now, there, same.trans chain, alike.trans specifier⟩
  · intro key load hit
    rw [pending] at hit
    obtain ⟨starter, joiners⟩ := fulfils.pending key load hit
    exact ⟨Wants.carry starter continues, fun joiner inside => Wants.carry (joiners joiner inside) continues⟩
  · exact fun call label record queued =>
      Wants.carry (fulfils.joins call label record (joins call label record queued)) continues
  · intro call res given
    obtain ⟨⟨record, hit, wants⟩, sourced⟩ := fulfils.answers call res (answers call res given)
    exact ⟨⟨record, continues.byId _ record hit, Wants.carry wants continues⟩, sourced⟩

theorem Fulfils.withPending (fulfils : Fulfils ctx s) (pending : SeqMap String PendingLoad)
    (consistent : ∀ (key : String) (load : PendingLoad), pending.get? key = some load →
      s.Wants ctx load.call key ∧ ∀ joiner ∈ load.joiners, s.Wants ctx joiner.1 key) :
    Fulfils ctx (s.withPending pending) :=
  ⟨fulfils.requests, consistent, fulfils.joins, fulfils.answers⟩

theorem Fulfils.enqueue (fulfils : Fulfils ctx s) (tasks : List Task)
    (joins : ∀ call label record, Task.join call label (.ok record) ∈ tasks →
      s.Wants ctx call record.cacheKey) (answers : ∀ call res, Task.reply call (.ok res) ∈ tasks →
      (∃ record, s.main.byId.get? res.moduleId = some record ∧ s.Wants ctx call record.cacheKey) ∧
        (res.cached = false → res.source ≠ none)) : Fulfils ctx (s.enqueue tasks) := by
  refine ⟨fulfils.requests, fulfils.pending, ?_, ?_⟩
  · intro call label record queued
    exact (List.mem_append.mp queued).elim (fulfils.joins call label record) (joins call label record)
  · rintro call res (posted | queued)
    · exact fulfils.answers call res (.inl posted)
    · exact (List.mem_append.mp queued).elim (fun pre => fulfils.answers call res (.inr pre))
        (answers call res)

end Carry

section Main

variable {ctx : ScriptFsContext} {s : IncludeRun Exports}

theorem Fulfils.enqueue_error (fulfils : Fulfils ctx s) (call : Nat) (error : IncludeError) :
    Fulfils ctx (s.enqueue [.reply call (.error error)]) := by
  refine fulfils.enqueue _ ?_ ?_
  · intro other label record queued
    cases List.mem_singleton.mp queued
  · intro other res queued
    cases List.mem_singleton.mp queued

theorem Fulfils.enqueue_answer (fulfils : Fulfils ctx s) {call : Nat} {res : IncludeLoadResult}
    {record : IncludeModuleRecord} (hit : s.main.byId.get? res.moduleId = some record)
    (wants : s.Wants ctx call record.cacheKey) (sourced : res.cached = false → res.source ≠ none) :
    Fulfils ctx (s.enqueue [.reply call (.ok res)]) := by
  refine fulfils.enqueue _ ?_ ?_
  · intro other label record queued
    cases List.mem_singleton.mp queued
  · intro other answer queued
    cases List.mem_singleton.mp queued
    exact ⟨⟨record, hit, wants⟩, sourced⟩

theorem Fulfils.log (fulfils : Fulfils ctx s) (line : AuditLine) : Fulfils ctx (s.log line) :=
  { fulfils with }

theorem Fulfils.handle {req : Request} {rest : List Request} (fulfils : Fulfils ctx s) (main : MainInvariant s)
    (next : s.requests = req :: rest) : Fulfils ctx ({ s with requests := rest }.handle ctx req) := by
  obtain ⟨made, hit, chain, specifier⟩ := fulfils.requests req (by rw [next]; exact List.mem_cons_self ..)
  have taken : Fulfils ctx { s with requests := rest } := by
    refine ⟨fun other queued => fulfils.requests other ?_, fulfils.pending, fulfils.joins, fulfils.answers⟩
    rw [next]
    exact List.mem_cons_of_mem _ queued
  have wants : ∀ {cacheKey : String},
      s.main.Asks ctx (parentOf req.chain) req.specifier cacheKey →
      IncludeRun.Wants ctx { s with requests := rest } req.call cacheKey := by
    intro cacheKey asks
    exact ⟨made, hit, by rw [chain, specifier]; exact asks⟩
  have climbs := ScriptIncludeState.ladder_climbs main.tables ctx req.specifier req.chain
  unfold IncludeRun.handle
  generalize s.main.ladder ctx req.specifier req.chain = rung at climbs
  cases climbs with
  | refused error => exact (taken.log _).enqueue_error req.call error
  | @known record asks known rooted below =>
    exact (taken.log _).enqueue_answer (main.tables.byKey _ record known).2 (wants asks) (by rintro ⟨⟩)
  | @inFlight cacheKey load asks flight =>
    refine taken.withPending _ fun key other atKey => ?_
    rw [SeqMap.get?_set] at atKey
    split at atKey
    · rename_i same
      cases atKey
      subst same
      obtain ⟨starter, joiners⟩ := taken.pending cacheKey load flight
      refine ⟨starter, fun joiner inside => ?_⟩
      rcases List.mem_append.mp inside with pre | last
      · exact joiners joiner pre
      · rw [List.mem_singleton.mp last]
        exact wants asks
    · exact taken.pending key other atKey
  | @read cacheKey resolvedPath asks unknown idle room =>
    refine taken.withPending _ fun key other atKey => ?_
    rw [SeqMap.get?_set] at atKey
    split at atKey
    · rename_i same
      cases atKey
      subst same
      exact ⟨wants asks, by simp⟩
    · exact taken.pending key other atKey

theorem Fulfils.complete (fulfils : Fulfils ctx s) (cacheKey : String) (outcome : ReadOutcome) :
    Fulfils ctx (s.complete cacheKey outcome) := by
  unfold IncludeRun.complete
  split
  · rename_i load hit
    split
    · have settles : Fulfils ctx (s.withPending
          (s.main.pending.set cacheKey { load with reading := false })) := by
        refine fulfils.withPending _ fun key other atKey => ?_
        rw [SeqMap.get?_set] at atKey
        split at atKey
        · rename_i same
          cases atKey
          subst same
          exact fulfils.pending cacheKey load hit
        · exact fulfils.pending key other atKey
      refine settles.enqueue _ ?_ ?_
      · intro call label record queued
        cases List.mem_singleton.mp queued
      · intro call res queued
        cases List.mem_singleton.mp queued
    · exact fulfils
  · exact fulfils

theorem Fulfils.settled (fulfils : Fulfils ctx s) (key : String)
    (outcome : Except IncludeError (IncludeModuleRecord × String)) : Fulfils ctx (s.settled key outcome) := by
  refine fulfils.enqueue _ ?_ ?_
  · intro call label record queued
    simp at queued
  · intro call res queued
    simp at queued

theorem register_continues (tables : Tables s.main) {record : IncludeModuleRecord}
    (id : record.id = .minted s.main.nextId) (byteLength : Nat) :
    s.Continues { s with main := s.main.register record byteLength } := by
  refine ⟨fun call made hit => ⟨made, hit, rfl, rfl⟩, fun other hit atId => ?_⟩
  simp only [ScriptIncludeState.register, SeqMap.get?_set]
  rw [if_neg, atId]
  rintro rfl
  rw [id, tables.fresh] at atId
  cases atId

/-- After a task, what is on its way still concerns the file that was asked for. -/
theorem Fulfils.tick {task : Task} {tasks : List Task} (fulfils : Fulfils ctx s) (main : MainInvariant s)
    (waiting : s.tasks = task :: tasks) : Fulfils ctx ({ s with tasks := tasks }.runTask ctx task) := by
  have loads : Loads s.main (task :: tasks) := waiting ▸ main.loads
  have popped : Fulfils ctx { s with tasks := tasks } := by
    refine ⟨fulfils.requests, fulfils.pending, fun call label record queued => ?_, ?_⟩
    · exact fulfils.joins call label record (by rw [waiting]; exact List.mem_cons_of_mem _ queued)
    · rintro call res (posted | queued)
      · exact fulfils.answers call res (.inl posted)
      · exact fulfils.answers call res (.inr (by rw [waiting]; exact List.mem_cons_of_mem _ queued))
  cases task with
  | settle cacheKey outcome =>
    simp only [IncludeRun.runTask]
    split
    · exact popped
    · rename_i load hit
      unfold IncludeRun.settle
      cases outcome with
      | failed error => exact (popped.log _).settled cacheKey _
      | text text byteLength =>
        simp only
        split
        · exact (popped.log _).settled cacheKey _
        · have continues := @register_continues Exports { s with tasks := tasks } main.tables
            (s.main.mint ctx cacheKey load) rfl byteLength
          have registered := popped.carry continues (fun _ queued => queued) rfl
            (fun _ _ _ queued => queued) (fun _ _ given => given)
          exact (registered.log _).settled cacheKey _
  | share cacheKey outcome =>
    simp only [IncludeRun.runTask]
    split
    · exact popped
    · rename_i load hit
      refine popped.enqueue _ ?_ ?_
      · intro call label record queued
        obtain ⟨joiner, inside, shape⟩ := List.mem_map.mp queued
        cases shape
        have known := loads.shared cacheKey record (List.mem_cons_self ..)
        rw [(main.tables.byKey cacheKey record known).1]
        exact (popped.pending cacheKey load hit).2 joiner inside
      · intro call res queued
        obtain ⟨joiner, _, shape⟩ := List.mem_map.mp queued
        cases shape
  | resume cacheKey outcome =>
    simp only [IncludeRun.runTask]
    split
    · exact popped
    · rename_i load hit
      have erased : Fulfils ctx (IncludeRun.withPending { s with tasks := tasks }
          (s.main.pending.erase cacheKey)) := by
        refine popped.withPending _ fun key other atKey => ?_
        rw [SeqMap.get?_erase] at atKey
        split at atKey
        · cases atKey
        · exact popped.pending key other atKey
      cases outcome with
      | error error => exact erased.enqueue_error load.call error
      | ok delivered =>
        have known := loads.resumed cacheKey delivered.1 delivered.2 (List.mem_cons_self ..)
        obtain ⟨same, atId⟩ := main.tables.byKey cacheKey delivered.1 known
        have registered : s.main.byId.get? (sourceResult delivered.1 delivered.2).moduleId =
            some delivered.1 := atId
        refine erased.enqueue_answer registered ?_ (by rintro _ ⟨⟩)
        rw [same]
        exact (popped.pending cacheKey load hit).1
  | join call label outcome =>
    cases outcome with
    | error error => exact (popped.log _).enqueue_error call error
    | ok record =>
      have atId := loads.joined call label record (List.mem_cons_self ..)
      have wants := fulfils.joins call label record (by rw [waiting]; exact List.mem_cons_self ..)
      exact (popped.log _).enqueue_answer atId wants (by rintro ⟨⟩)
  | reply call answer =>
    refine ⟨popped.requests, popped.pending, popped.joins, ?_⟩
    rintro other res (posted | queued)
    · rcases List.mem_append.mp posted with pre | last
      · exact fulfils.answers other res (.inl pre)
      · cases List.mem_singleton.mp last
        exact fulfils.answers call res (.inr (by rw [waiting]; exact List.mem_cons_self ..))
    · exact popped.answers other res (.inr queued)

end Main

end NexTerminal.Scripts.Include
