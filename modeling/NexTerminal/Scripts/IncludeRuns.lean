import Mathlib.Data.List.Perm.Subperm
import NexTerminal.Scripts.IncludeLoader

namespace NexTerminal.Scripts.Include

open Library IncludeRun

variable {Exports : Type} {ctx : ScriptFsContext}

structure Sound (ctx : ScriptFsContext) (s : IncludeRun Exports) : Prop where
  main : MainInvariant s
  fulfils : Fulfils ctx s
  worker : WorkerInvariant ctx s

theorem initial_sound (ctx : ScriptFsContext) : Sound ctx (initial ctx : IncludeRun Exports) := by
  have byId : ∀ (id : ModuleId) (record : IncludeModuleRecord),
      ctx.createScriptIncludeState.byId.get? id = some record ↔ id = .root ∧ record = ctx.rootRecord := by
    intro id record
    simp only [ScriptFsContext.createScriptIncludeState, SeqMap.get?_set, SeqMap.get?_empty]
    by_cases same : ModuleId.root = id
    · simp [eq_comm]
    · simp [same, Ne.symm same]
  have byKey : ∀ (key : String) (record : IncludeModuleRecord),
      ctx.createScriptIncludeState.byKey.get? key = some record ↔
        key = ctx.rootRecord.cacheKey ∧ record = ctx.rootRecord := by
    intro key record
    simp only [ScriptFsContext.createScriptIncludeState, SeqMap.get?_set, SeqMap.get?_empty]
    by_cases same : ctx.rootRecord.cacheKey = key
    · simp [eq_comm]
    · simp [same, Ne.symm same]
  refine ⟨⟨⟨?_, ?_, ?_⟩, ⟨List.nodup_nil, ?_, by rintro _ _ ⟨⟩, by rintro _ _ _ ⟨⟩,
    by rintro _ _ ⟨⟩, by rintro _ _ _ ⟨⟩⟩, ⟨trivial, .refl _, trivial, trivial⟩,
    ⟨Nat.le_of_ble_eq_true rfl, rfl, rfl, Nat.zero_le _⟩⟩, ⟨by rintro _ ⟨⟩, by rintro _ _ ⟨⟩,
      by rintro _ _ _ ⟨⟩, ?_⟩, ⟨Nat.le_refl _, rfl, rfl, by rintro _ _ ⟨⟩, by rintro _ _ _ ⟨⟩⟩⟩
  · intro id record hit
    obtain ⟨rfl, rfl⟩ := (byId id record).mp hit
    exact ⟨rfl, (byKey _ _).mpr ⟨rfl, rfl⟩⟩
  · intro key record hit
    obtain ⟨rfl, rfl⟩ := (byKey key record).mp hit
    exact ⟨rfl, (byId _ _).mpr ⟨rfl, rfl⟩⟩
  · intro id record hit
    exact .inl ((byId id record).mp hit).1
  · exact fun key => ⟨by rintro ⟨⟩, by rintro ⟨_, ⟨⟩, _⟩⟩
  · rintro call res (posted | queued)
    · cases posted
    · cases queued

variable {s : IncludeRun Exports}

theorem Sound.step (sound : Sound ctx s) (act : Act Exports) : Sound ctx (s.step ctx act) := by
  obtain ⟨main, fulfils, worker⟩ := sound
  cases act with
  | call chain specifier awaited =>
    exact ⟨main.workerStep (call_workerStep s chain specifier awaited), fulfils.call chain specifier awaited,
      worker.call chain specifier awaited⟩
  | receive =>
    simp only [IncludeRun.step]
    split
    · rename_i req rest idle waiting
      have taken : MainInvariant { s with requests := rest } := main.of_same rfl rfl rfl rfl
      refine ⟨taken.handle idle ctx req, fulfils.handle main waiting, ?_⟩
      have same : WorkerInvariant ctx { s with requests := rest } := worker.mainStep (.quiet rfl rfl rfl rfl rfl)
      exact same.mainStep (handle_mainStep ctx _ req)
    · exact ⟨main, fulfils, worker⟩
  | complete key outcome =>
    exact ⟨main.complete key outcome, fulfils.complete key outcome,
      worker.mainStep (complete_mainStep s key outcome)⟩
  | tick =>
    simp only [IncludeRun.step]
    split
    · exact ⟨main, fulfils, worker⟩
    · rename_i task rest waiting
      refine ⟨main.tick waiting ctx, fulfils.tick main waiting, ?_⟩
      have same : WorkerInvariant ctx { s with tasks := rest } := worker.mainStep (.quiet rfl rfl rfl rfl rfl)
      have tables : Tables { s with tasks := rest }.main := main.tables
      exact same.mainStep (tick_mainStep tables ctx task)
  | deliver =>
    simp only [IncludeRun.step]
    split
    · exact ⟨main, fulfils, worker⟩
    · rename_i call answer next
      exact ⟨main.workerStep (deliver_workerStep s call answer), fulfils.deliver call answer,
        worker.deliver main fulfils next⟩
  | finish module outcome =>
    exact ⟨main.workerStep (finish_workerStep s module outcome), fulfils.finish module outcome,
      worker.finish module outcome⟩
  | resume call =>
    simp only [IncludeRun.step]
    split
    · exact ⟨main, fulfils, worker⟩
    · rename_i made hit
      exact ⟨main.workerStep (resume_workerStep s call made), fulfils.resume call made, worker.resume hit⟩

theorem run_sound (sound : Sound ctx s) (acts : List (Act Exports)) : Sound ctx (s.run ctx acts) := by
  induction acts generalizing s with
  | nil => exact sound
  | cons act rest ih => exact ih (sound.step act)

theorem ScriptIncludeState.Asks.unique {main : ScriptIncludeState} {parent : ModuleId} {specifier : Specifier}
    {key other : String} (asks : main.Asks ctx parent specifier key)
    (asks' : main.Asks ctx parent specifier other) : key = other := by
  obtain ⟨record, path, hit, resolved, rfl⟩ := asks
  obtain ⟨record', path', found', resolved', rfl⟩ := asks'
  rw [hit, Option.some.injEq] at found'
  subst found'
  rw [resolved, Except.ok.injEq] at resolved'
  rw [resolved']

/-- No more modules than the limit are registered or on the way. -/
theorem Sound.few (sound : Sound ctx s) {keys : List String} (nodup : keys.Nodup)
    (taken : ∀ key ∈ keys, (∃ record, s.main.byKey.get? key = some record ∧ record.id ≠ .root) ∨
      ∃ load, s.main.pending.get? key = some load) : keys.length ≤ scriptIncludeMaxModules := by
  obtain ⟨tables, loads, flow, budget⟩ := sound.main
  have rooted : ModuleId.root ∈ s.main.byId.keys := by
    rw [budget.listed]
    exact List.mem_cons_self ..
  obtain ⟨root, atRoot⟩ := Option.isSome_iff_exists.mp (SeqMap.mem_keys.mp rooted)
  obtain ⟨isRoot, atKey⟩ := tables.byId .root root atRoot
  have absent : root.cacheKey ∉ keys := by
    intro inside
    rcases taken _ inside with ⟨record, hit, other⟩ | ⟨load, hit⟩
    · rw [atKey, Option.some.injEq] at hit
      exact other (hit ▸ isRoot)
    · obtain ⟨delivered, queued⟩ := loads.registered _ load hit (by rw [atKey]; simp)
      have same := loads.resumed _ delivered.1 delivered.2 queued
      rw [atKey, Option.some.injEq] at same
      have minted := flow.once.nodup_iff.mpr s.main.byId.distinct
      refine (List.nodup_cons.mp minted).1 (List.mem_append_right _ (List.mem_filterMap.mpr ⟨_, queued, ?_⟩))
      rw [Task.resumes, ← same, isRoot]
  have within : root.cacheKey :: keys ⊆ s.main.byKey.keys ++ unregistered s.main := by
    intro key mem
    have known : (∃ record, s.main.byKey.get? key = some record) ∨
        ∃ load, s.main.pending.get? key = some load := by
      rcases List.mem_cons.mp mem with rfl | inside
      · exact .inl ⟨root, atKey⟩
      · exact (taken key inside).imp_left fun ends => ⟨ends.choose, ends.choose_spec.1⟩
    rw [List.mem_append, SeqMap.mem_keys, unregistered, List.mem_filter, SeqMap.mem_keys]
    cases registered : s.main.byKey.get? key with
    | some record => exact .inl rfl
    | none =>
      rw [registered] at known
      obtain ⟨load, hit⟩ := known.resolve_left (by simp)
      exact .inr ⟨by rw [hit]; rfl, rfl⟩
  have count := ((List.nodup_cons.mpr ⟨absent, nodup⟩).subperm within).length_le
  have bound := budget.few
  simp only [List.length_cons, List.length_append, SeqMap.keys, List.length_map] at count
  omega

structure SameModules (before after : ScriptIncludeState) : Prop where
  byId : after.byId = before.byId
  byKey : after.byKey = before.byKey
  nextId : after.nextId = before.nextId
  totalSourceBytes : after.totalSourceBytes = before.totalSourceBytes

theorem WorkerStep.sameModules {next : IncludeRun Exports} (step : WorkerStep s next) :
    SameModules s.main next.main := by
  rw [step.main]
  exact ⟨rfl, rfl, rfl, rfl⟩

theorem step_registers (ctx : ScriptFsContext) (s : IncludeRun Exports) (act : Act Exports) :
    SameModules s.main (s.step ctx act).main ∨
      ∃ label module displayName bytes,
        (s.step ctx act).audit = s.audit ++ [.loaded label module displayName bytes] := by
  cases act with
  | tick =>
    simp only [IncludeRun.step]
    split
    · exact .inl ⟨rfl, rfl, rfl, rfl⟩
    · rename_i task rest waiting
      cases task with
      | settle key outcome =>
        simp only [runTask]
        split
        · exact .inl ⟨rfl, rfl, rfl, rfl⟩
        · unfold settle
          split
          · exact .inl ⟨rfl, rfl, rfl, rfl⟩
          · split
            · exact .inl ⟨rfl, rfl, rfl, rfl⟩
            · exact .inr ⟨_, _, _, _, rfl⟩
      | share key outcome | resume key outcome =>
        simp only [runTask]
        split
        · exact .inl ⟨rfl, rfl, rfl, rfl⟩
        · exact .inl ⟨rfl, rfl, rfl, rfl⟩
      | join call label outcome =>
        cases outcome with
        | error error | ok record => exact .inl ⟨rfl, rfl, rfl, rfl⟩
      | reply call answer => exact .inl ⟨rfl, rfl, rfl, rfl⟩
  | receive =>
    simp only [IncludeRun.step]
    split
    · unfold handle
      split
      · exact .inl ⟨rfl, rfl, rfl, rfl⟩
      · exact .inl ⟨rfl, rfl, rfl, rfl⟩
      · exact .inl ⟨rfl, rfl, rfl, rfl⟩
      · exact .inl ⟨rfl, rfl, rfl, rfl⟩
    · exact .inl ⟨rfl, rfl, rfl, rfl⟩
  | complete key outcome =>
    simp only [IncludeRun.step, complete]
    split
    · split
      · exact .inl ⟨rfl, rfl, rfl, rfl⟩
      · exact .inl ⟨rfl, rfl, rfl, rfl⟩
    · exact .inl ⟨rfl, rfl, rfl, rfl⟩
  | call chain specifier awaited => exact .inl (call_workerStep s chain specifier awaited).sameModules
  | deliver =>
    simp only [IncludeRun.step]
    split
    · exact .inl ⟨rfl, rfl, rfl, rfl⟩
    · exact .inl (deliver_workerStep s _ _).sameModules
  | finish module outcome => exact .inl (finish_workerStep s module outcome).sameModules
  | resume call =>
    simp only [IncludeRun.step]
    split
    · exact .inl ⟨rfl, rfl, rfl, rfl⟩
    · exact .inl (resume_workerStep s call _).sameModules

structure LoadedOnce (ctx : ScriptFsContext) (s : IncludeRun Exports) : Prop where
  oneId : ∀ (id other : ModuleId) (record record' : IncludeModuleRecord),
    s.main.byId.get? id = some record → s.main.byId.get? other = some record' →
    record.cacheKey = record'.cacheKey → id = other
  registered : ∀ record : IncludeModuleRecord,
    s.main.byId.get? record.id = some record ↔ s.main.byKey.get? record.cacheKey = some record
  /-- No source is posted twice, and when main is idle every module's has been. -/
  deliveredOnce : ((s.sent.map Prod.snd).filterMap sourceOf).Nodup ∧
    (s.tasks = [] → ∀ id ∈ s.main.byId.keys, id ≠ .root → id ∈ (s.sent.map Prod.snd).filterMap sourceOf)
  evaluatedOnce : s.loader.evaluated.Nodup
  /-- Successful includes of one file came to the same exports. -/
  sameExports : ∀ (call call' : Nat) (made made' : IncludeCall Exports) (module module' : ModuleId)
    (exports exports' : Exports) (cacheKey : String),
    s.calls[call]? = some made → made.state = .resolved module exports → s.Wants ctx call cacheKey →
    s.calls[call']? = some made' → made'.state = .resolved module' exports' → s.Wants ctx call' cacheKey →
    module = module' ∧ exports = exports'
  /-- Every successful include came to the module its file is registered as. -/
  named : ∀ (call : Nat) (made : IncludeCall Exports) (module : ModuleId) (exports : Exports),
    s.calls[call]? = some made → made.state = .resolved module exports →
    ∃ record, s.main.byId.get? module = some record ∧ s.Wants ctx call record.cacheKey
  unbroken : ∀ made ∈ s.calls, ∀ violation, made.state ≠ .broken violation
  few : ∀ keys : List String, keys.Nodup →
    (∀ key ∈ keys, (∃ record, s.main.byKey.get? key = some record ∧ record.id ≠ .root) ∨
      ∃ load, s.main.pending.get? key = some load) → keys.length ≤ 64
  /-- What is charged is the size of each registered module, the entry script apart. -/
  charged : s.main.byId.keys = .root :: (sizes s.audit).map Prod.fst ∧
    s.main.totalSourceBytes = ((sizes s.audit).map Prod.snd).sum ∧
    s.main.totalSourceBytes ≤ 48 * 1024 * 1024
  /-- Whatever is not the registration of a loaded module leaves the tables alone. -/
  refusals : ∀ act : Act Exports, SameModules s.main (s.step ctx act).main ∨
    ∃ label module displayName bytes, (s.step ctx act).audit = s.audit ++ [.loaded label module displayName bytes]
  /-- When main is idle, only reads that have not completed are pending. -/
  idle : s.tasks = [] → ∀ (cacheKey : String) (load : PendingLoad),
    s.main.pending.get? cacheKey = some load → load.reading = true

theorem Sound.loadedOnce (sound : Sound ctx s) : LoadedOnce ctx s := by
  obtain ⟨main, -, worker⟩ := id sound
  have nodup := main.flow.once.nodup_iff.mpr s.main.byId.distinct
  have resolved : ∀ (call : Nat) (made : IncludeCall Exports) (module : ModuleId) (exports : Exports),
      s.calls[call]? = some made → made.state = .resolved module exports →
      (∃ chain, s.loader.modules.get? module = some ⟨chain, .exported exports⟩) ∧
        Names ctx s (parentOf made.chain) made.specifier module := by
    intro call made module exports hit state
    have fits := worker.calls call made hit
    rw [state] at fits
    exact fits
  refine ⟨?_, ?_, ⟨?_, ?_⟩, ?_, ?_, ?_, ?_, ?_, ?_, step_registers ctx s, ?_⟩
  · exact fun id other record record' hit found' same => main.tables.unique hit found' same
  · exact fun record => ⟨fun hit => (main.tables.byId _ record hit).2,
      fun hit => (main.tables.byKey _ record hit).2⟩
  · rw [List.nodup_cons, List.nodup_append, answersOf, List.filterMap_append, List.nodup_append] at nodup
    exact nodup.2.1.1
  · intro idle id mem minted
    exact (idle ▸ main.flow).idle_out mem minted
  · rw [worker.evaluated]
    exact s.loader.modules.distinct
  · intro call call' made made' module module' exports exports' key hit state wants found' state' wants'
    obtain ⟨⟨chain, there⟩, record, atId, asks⟩ := resolved call made module exports hit state
    obtain ⟨⟨chain', there'⟩, record', atId', asks'⟩ := resolved call' made' module' exports' found' state'
    obtain ⟨again, atCall, wanted⟩ := wants
    obtain ⟨again', atCall', wanted'⟩ := wants'
    rw [hit, Option.some.injEq] at atCall
    rw [found', Option.some.injEq] at atCall'
    subst atCall atCall'
    have same := main.tables.unique atId atId' ((asks.unique wanted).trans (asks'.unique wanted').symm)
    subst same
    rw [there, Option.some.injEq, ModuleEntry.mk.injEq, Evaluation.exported.injEq] at there'
    exact ⟨rfl, there'.2⟩
  · intro call made module exports hit state
    obtain ⟨_, record, atId, asks⟩ := resolved call made module exports hit state
    exact ⟨record, atId, made, hit, asks⟩
  · intro made mem violation state
    obtain ⟨call, hit⟩ := List.getElem?_of_mem mem
    have fits := worker.calls call made hit
    rw [state] at fits
    exact fits
  · exact fun keys ne taken => sound.few ne taken
  · exact ⟨main.budget.listed, main.budget.charged, main.budget.limit⟩
  · exact fun idle key load hit => ((idle ▸ main.loads).idle hit).1

end NexTerminal.Scripts.Include
