import NexTerminal.Scripts.IncludeFlow

namespace NexTerminal.Scripts.Include

open Library

/-- The key whose load the task is in the middle of settling. -/
def Task.settling : Task → Option String
  | .settle cacheKey _ | .resume cacheKey _ => some cacheKey
  | _ => none

structure Tables (main : ScriptIncludeState) : Prop where
  byId : ∀ (id : ModuleId) (record : IncludeModuleRecord), main.byId.get? id = some record →
    record.id = id ∧ main.byKey.get? record.cacheKey = some record
  byKey : ∀ (cacheKey : String) (record : IncludeModuleRecord), main.byKey.get? cacheKey = some record →
    record.cacheKey = cacheKey ∧ main.byId.get? record.id = some record
  minted : ∀ (id : ModuleId) (record : IncludeModuleRecord), main.byId.get? id = some record →
    id = .root ∨ ∃ n < main.nextId, id = .minted n

/-- Each load that settled has its continuations queued, and they agree with the tables. -/
structure Loads (main : ScriptIncludeState) (tasks : List Task) : Prop where
  once : (tasks.filterMap Task.settling).Nodup
  due : ∀ cacheKey, cacheKey ∈ tasks.filterMap Task.settling ↔
    ∃ load, main.pending.get? cacheKey = some load ∧ load.reading = false
  registered : ∀ (cacheKey : String) (load : PendingLoad), main.pending.get? cacheKey = some load →
    main.byKey.get? cacheKey ≠ none → ∃ delivered, Task.resume cacheKey (.ok delivered) ∈ tasks
  resumed : ∀ (cacheKey : String) (record : IncludeModuleRecord) (text : String),
    Task.resume cacheKey (.ok (record, text)) ∈ tasks → main.byKey.get? cacheKey = some record
  shared : ∀ (cacheKey : String) (record : IncludeModuleRecord),
    Task.share cacheKey (.ok record) ∈ tasks → main.byKey.get? cacheKey = some record
  joined : ∀ (call : Nat) (label : String) (record : IncludeModuleRecord),
    Task.join call label (.ok record) ∈ tasks → main.byId.get? record.id = some record

def AuditLine.size : AuditLine → Option (ModuleId × Nat)
  | loaded _ module _ bytes => some (module, bytes)
  | _ => none

/-- The modules loaded so far, each with the size of its source. -/
def sizes (audit : List AuditLine) : List (ModuleId × Nat) := audit.filterMap AuditLine.size

def unregistered (main : ScriptIncludeState) : List String :=
  main.pending.keys.filter fun cacheKey => (main.byKey.get? cacheKey).isNone

structure Budget (main : ScriptIncludeState) (audit : List AuditLine) : Prop where
  few : main.byKey.entries.length + (unregistered main).length ≤ scriptIncludeMaxModules + 1
  listed : main.byId.keys = .root :: (sizes audit).map Prod.fst
  charged : main.totalSourceBytes = ((sizes audit).map Prod.snd).sum
  limit : main.totalSourceBytes ≤ scriptIncludeMaxTotalSourceBytes

section Tables

variable {main : ScriptIncludeState}

theorem Tables.fresh (tables : Tables main) : main.byId.get? (.minted main.nextId) = none := by
  cases hit : main.byId.get? (.minted main.nextId) with
  | none => rfl
  | some record =>
    rcases tables.minted _ record hit with root | ⟨n, small, same⟩
    · cases root
    · cases same
      exact absurd small (Nat.lt_irrefl _)

theorem Tables.unique (tables : Tables main) {id other : ModuleId} {record record' : IncludeModuleRecord}
    (hit : main.byId.get? id = some record) (found' : main.byId.get? other = some record')
    (same : record.cacheKey = record'.cacheKey) : id = other := by
  obtain ⟨atId, atKey⟩ := tables.byId id record hit
  obtain ⟨atOther, atKey'⟩ := tables.byId other record' found'
  rw [same, atKey', Option.some.injEq] at atKey
  rw [← atId, ← atOther, atKey]

theorem Tables.register (tables : Tables main) {record : IncludeModuleRecord}
    (id : record.id = .minted main.nextId) (unknown : main.byKey.get? record.cacheKey = none)
    (byteLength : Nat) : Tables (main.register record byteLength) := by
  have fresh := tables.fresh
  rw [← id] at fresh
  refine ⟨?_, ?_, ?_⟩
  · intro other hit atOther
    simp only [ScriptIncludeState.register, SeqMap.get?_set] at atOther ⊢
    split at atOther
    · rename_i same
      cases atOther
      exact ⟨same, if_pos rfl⟩
    · obtain ⟨same, atKey⟩ := tables.byId other hit atOther
      refine ⟨same, ?_⟩
      rw [if_neg, atKey]
      rintro clash
      rw [clash, atKey] at unknown
      cases unknown
  · intro cacheKey hit atKey
    simp only [ScriptIncludeState.register, SeqMap.get?_set] at atKey ⊢
    split at atKey
    · rename_i same
      cases atKey
      exact ⟨same, if_pos rfl⟩
    · obtain ⟨same, atId⟩ := tables.byKey cacheKey hit atKey
      refine ⟨same, ?_⟩
      rw [if_neg, atId]
      rintro clash
      rw [clash, atId] at fresh
      cases fresh
  · intro other hit atOther
    simp only [ScriptIncludeState.register, SeqMap.get?_set] at atOther ⊢
    split at atOther
    · rename_i same
      exact .inr ⟨main.nextId, Nat.lt_succ_self _, same.symm.trans id⟩
    · rcases tables.minted other hit atOther with root | ⟨n, small, same⟩
      · exact .inl root
      · exact .inr ⟨n, Nat.lt_succ_of_lt small, same⟩

theorem Tables.withPending (tables : Tables main) (pending : SeqMap String PendingLoad) :
    Tables { main with pending := pending } :=
  { tables with }

end Tables

namespace Loads

variable {main : ScriptIncludeState} {tasks : List Task} {task : Task} {cacheKey : String}

/-- One more task that settles nothing. -/
theorem push (loads : Loads main tasks) (settling : task.settling = none)
    (shared : ∀ cacheKey record, task = .share cacheKey (.ok record) →
      main.byKey.get? cacheKey = some record) (joined : ∀ call label record, task = .join call label (.ok record) →
      main.byId.get? record.id = some record) : Loads main (tasks ++ [task]) := by
  have same : (tasks ++ [task]).filterMap Task.settling = tasks.filterMap Task.settling := by
    simp [settling]
  refine ⟨same ▸ loads.once, fun key => by rw [same]; exact loads.due key, ?_, ?_, ?_, ?_⟩
  · intro key load hit known
    obtain ⟨delivered, queued⟩ := loads.registered key load hit known
    exact ⟨delivered, List.mem_append_left _ queued⟩
  · intro key record text queued
    rcases List.mem_append.mp queued with pre | last
    · exact loads.resumed key record text pre
    · rw [← List.mem_singleton.mp last] at settling
      cases settling
  · intro key record queued
    rcases List.mem_append.mp queued with pre | last
    · exact loads.shared key record pre
    · exact shared key record (List.mem_singleton.mp last).symm
  · intro call label record queued
    rcases List.mem_append.mp queued with pre | last
    · exact loads.joined call label record pre
    · exact joined call label record (List.mem_singleton.mp last).symm

theorem push_reply (loads : Loads main tasks) (call : Nat) (answer : Answer) :
    Loads main (tasks ++ [.reply call answer]) :=
  loads.push rfl nofun nofun

theorem push_joins (loads : Loads main tasks) {how : Except IncludeError IncludeModuleRecord}
    (known : ∀ record, how = .ok record → main.byId.get? record.id = some record) (joiners : List (Nat × String)) :
    Loads main (tasks ++ joiners.map fun joiner => .join joiner.1 joiner.2 how) := by
  induction joiners generalizing tasks with
  | nil => simpa using loads
  | cons joiner rest ih =>
    rw [List.map_cons, ← List.singleton_append, ← List.append_assoc]
    refine ih (loads.push rfl nofun ?_)
    rintro - - record ⟨⟩
    exact known record rfl

theorem pop (loads : Loads main (task :: tasks)) (settling : task.settling = none) : Loads main tasks := by
  have same : (task :: tasks).filterMap Task.settling = tasks.filterMap Task.settling := by
    simp [settling]
  refine ⟨same ▸ loads.once, fun key => by rw [← same]; exact loads.due key, ?_, ?_, ?_, ?_⟩
  · intro key load hit known
    obtain ⟨delivered, queued⟩ := loads.registered key load hit known
    rcases List.mem_cons.mp queued with first | later
    · rw [← first] at settling
      cases settling
    · exact ⟨delivered, later⟩
  · exact fun key record text queued => loads.resumed key record text (List.mem_cons_of_mem _ queued)
  · exact fun key record queued => loads.shared key record (List.mem_cons_of_mem _ queued)
  · exact fun call label record queued => loads.joined call label record (List.mem_cons_of_mem _ queued)

variable {load : PendingLoad} {how : ReadOutcome}

theorem settle_unregistered (loads : Loads main (.settle cacheKey how :: tasks))
    (hit : main.pending.get? cacheKey = some load) : main.byKey.get? cacheKey = none := by
  refine Classical.byContradiction fun known => ?_
  obtain ⟨delivered, queued⟩ := loads.registered cacheKey load hit known
  have later : Task.resume cacheKey (.ok delivered) ∈ tasks := (List.mem_cons.mp queued).resolve_left nofun
  have once := loads.once
  exact (List.nodup_cons.mp once).1 (List.mem_filterMap.mpr ⟨_, later, rfl⟩)

theorem settled_keys (cacheKey : String) (tasks : List Task) (how : ReadOutcome)
    (shared : Except IncludeError IncludeModuleRecord)
    (resumed : Except IncludeError (IncludeModuleRecord × String)) :
    ((Task.settle cacheKey how :: tasks).filterMap Task.settling).Perm
      ((tasks ++ [Task.share cacheKey shared, .resume cacheKey resumed]).filterMap Task.settling) := by
  have after : (tasks ++ [Task.share cacheKey shared, .resume cacheKey resumed]).filterMap Task.settling =
      tasks.filterMap Task.settling ++ [cacheKey] := by
    simp [toList_filterMap, Task.settling]
  rw [after, toList_filterMap]
  exact List.perm_append_comm

theorem settle {next : ScriptIncludeState} {how : ReadOutcome}
    {resumed : Except IncludeError (IncludeModuleRecord × String)}
    (loads : Loads main (.settle cacheKey how :: tasks)) (pending : next.pending = main.pending)
    (byKey : ∀ key record, main.byKey.get? key = some record → next.byKey.get? key = some record)
    (byId : ∀ id record, main.byId.get? id = some record → next.byId.get? id = some record)
    (known : ∀ delivered, resumed = .ok delivered → next.byKey.get? cacheKey = some delivered.1)
    (only : ∀ key, next.byKey.get? key ≠ none → main.byKey.get? key = none →
      key = cacheKey ∧ ∃ delivered, resumed = .ok delivered) :
    Loads next (tasks ++ [.share cacheKey (resumed.map Prod.fst), .resume cacheKey resumed]) := by
  have perm := settled_keys cacheKey tasks how (resumed.map Prod.fst) resumed
  refine ⟨perm.nodup_iff.mp loads.once, fun key => ?_, ?_, ?_, ?_, ?_⟩
  · rw [← perm.mem_iff, pending]
    exact loads.due key
  · intro key load hit present
    rw [pending] at hit
    by_cases pre : main.byKey.get? key = none
    · obtain ⟨rfl, delivered, rfl⟩ := only key present pre
      exact ⟨delivered, by simp⟩
    · obtain ⟨delivered, queued⟩ := loads.registered key load hit pre
      exact ⟨delivered, List.mem_append_left _ ((List.mem_cons.mp queued).resolve_left nofun)⟩
  · intro key record text queued
    rcases List.mem_append.mp queued with pre | last
    · exact byKey key record (loads.resumed key record text (List.mem_cons_of_mem _ pre))
    · simp only [List.mem_cons, reduceCtorEq, List.not_mem_nil, or_false, false_or,
        Task.resume.injEq] at last
      obtain ⟨rfl, shape⟩ := last
      exact known (record, text) shape.symm
  · intro key record queued
    rcases List.mem_append.mp queued with pre | last
    · exact byKey key record (loads.shared key record (List.mem_cons_of_mem _ pre))
    · simp only [List.mem_cons, reduceCtorEq, List.not_mem_nil, or_false, Task.share.injEq] at last
      obtain ⟨rfl, shape⟩ := last
      cases resumed with
      | error error => cases shape
      | ok delivered =>
        cases shape
        exact known delivered rfl
  · intro call label record queued
    rcases List.mem_append.mp queued with pre | last
    · exact byId record.id record (loads.joined call label record (List.mem_cons_of_mem _ pre))
    · simp at last

theorem settle_registered {record : IncludeModuleRecord} {text : String} {byteLength : Nat}
    (loads : Loads main (.settle record.cacheKey how :: tasks)) (unknown : main.byKey.get? record.cacheKey = none)
    (fresh : main.byId.get? record.id = none) : Loads (main.register record byteLength)
      (tasks ++ [.share record.cacheKey (.ok record), .resume record.cacheKey (.ok (record, text))]) := by
  refine @Loads.settle main tasks record.cacheKey _ how (.ok (record, text)) loads rfl ?_ ?_ ?_ ?_
  · intro key other atKey
    simp only [ScriptIncludeState.register, SeqMap.get?_set]
    rw [if_neg, atKey]
    rintro rfl
    rw [atKey] at unknown
    cases unknown
  · intro other hit atId
    simp only [ScriptIncludeState.register, SeqMap.get?_set]
    rw [if_neg, atId]
    rintro rfl
    rw [atId] at fresh
    cases fresh
  · simp [ScriptIncludeState.register, SeqMap.get?_set]
  · intro key present absent
    simp only [ScriptIncludeState.register, SeqMap.get?_set] at present
    split at present
    · rename_i same
      exact ⟨same.symm, _, rfl⟩
    · exact absurd absent present

theorem resume {how : Except IncludeError (IncludeModuleRecord × String)}
    (loads : Loads main (.resume cacheKey how :: tasks)) :
    Loads { main with pending := main.pending.erase cacheKey } tasks := by
  have once := loads.once
  have absent : cacheKey ∉ tasks.filterMap Task.settling := (List.nodup_cons.mp once).1
  refine ⟨(List.nodup_cons.mp once).2, fun key => ?_, ?_, ?_, ?_, ?_⟩
  · have due := loads.due key
    simp only [SeqMap.get?_erase]
    by_cases same : cacheKey = key
    · subst same
      simp [absent]
    · rw [if_neg same, ← due, toList_filterMap]
      simp [Task.settling, Ne.symm same]
  · intro key load hit known
    simp only [SeqMap.get?_erase] at hit
    split at hit
    · cases hit
    · rename_i differ
      obtain ⟨delivered, queued⟩ := loads.registered key load hit known
      refine ⟨delivered, (List.mem_cons.mp queued).resolve_left ?_⟩
      rintro ⟨⟩
      exact differ rfl
  · exact fun key record text queued => loads.resumed key record text (List.mem_cons_of_mem _ queued)
  · exact fun key record queued => loads.shared key record (List.mem_cons_of_mem _ queued)
  · exact fun call label record queued => loads.joined call label record (List.mem_cons_of_mem _ queued)

theorem put {changed : PendingLoad} (loads : Loads main tasks)
    (settled : (∃ load, main.pending.get? cacheKey = some load ∧ load.reading = false) ↔ changed.reading = false)
    (resumes : main.byKey.get? cacheKey ≠ none → ∃ delivered, Task.resume cacheKey (.ok delivered) ∈ tasks) :
    Loads { main with pending := main.pending.set cacheKey changed } tasks := by
  refine ⟨loads.once, fun key => ?_, ?_, loads.resumed, loads.shared, loads.joined⟩
  · rw [loads.due key]
    simp only [SeqMap.get?_set]
    by_cases same : cacheKey = key
    · subst same
      simpa using settled
    · rw [if_neg same]
  · intro key other atKey known
    simp only [SeqMap.get?_set] at atKey
    split at atKey
    · rename_i same
      exact same ▸ resumes (same ▸ known)
    · exact loads.registered key other atKey known

theorem join {changed : PendingLoad} (loads : Loads main tasks) (hit : main.pending.get? cacheKey = some load)
    (reading : changed.reading = load.reading) :
    Loads { main with pending := main.pending.set cacheKey changed } tasks :=
  loads.put (by simp [hit, reading]) (loads.registered cacheKey load hit)

theorem start (loads : Loads main tasks) (idle : main.pending.get? cacheKey = none)
    (unknown : main.byKey.get? cacheKey = none) (reading : load.reading = true) :
    Loads { main with pending := main.pending.set cacheKey load } tasks :=
  loads.put (by simp [idle, reading]) (absurd unknown)

/-- A read completes. -/
theorem complete (loads : Loads main tasks) (hit : main.pending.get? cacheKey = some load)
    (reading : load.reading = true) :
    Loads { main with pending := main.pending.set cacheKey { load with reading := false } }
      (tasks ++ [.settle cacheKey how]) := by
  have after : (tasks ++ [Task.settle cacheKey how]).filterMap Task.settling =
      tasks.filterMap Task.settling ++ [cacheKey] := by
    simp [Task.settling]
  have absent : cacheKey ∉ tasks.filterMap Task.settling := by
    rw [loads.due]
    rintro ⟨other, atKey, done⟩
    rw [hit, Option.some.injEq] at atKey
    rw [← atKey, reading] at done
    cases done
  have kept : ∀ task, task ≠ .settle cacheKey how → task ∈ tasks ++ [.settle cacheKey how] →
      task ∈ tasks := by
    intro task differ queued
    exact (List.mem_append.mp queued).resolve_right fun last => differ (List.mem_singleton.mp last)
  refine ⟨?_, fun key => ?_, ?_, ?_, ?_, ?_⟩
  · rw [after, List.nodup_append]
    refine ⟨loads.once, by simp, ?_⟩
    rintro key inside other last rfl
    rw [List.mem_singleton.mp last] at inside
    exact absent inside
  · rw [after, List.mem_append, loads.due key, List.mem_singleton]
    simp only [SeqMap.get?_set]
    by_cases same : cacheKey = key
    · subst same
      simp
    · rw [if_neg same]
      simp [Ne.symm same]
  · intro key other atKey known
    simp only [SeqMap.get?_set] at atKey
    have prev : ∃ load, main.pending.get? key = some load := by
      split at atKey
      · rename_i same
        exact ⟨load, same ▸ hit⟩
      · exact ⟨other, atKey⟩
    obtain ⟨load, atKey⟩ := prev
    obtain ⟨delivered, queued⟩ := loads.registered key load atKey known
    exact ⟨delivered, List.mem_append_left _ queued⟩
  · exact fun key record text queued => loads.resumed key record text (kept _ (by simp) queued)
  · exact fun key record queued => loads.shared key record (kept _ (by simp) queued)
  · exact fun call label record queued => loads.joined call label record (kept _ (by simp) queued)

theorem idle (loads : Loads main []) (hit : main.pending.get? cacheKey = some load) :
    load.reading = true ∧ main.byKey.get? cacheKey = none := by
  refine ⟨?_, ?_⟩
  · refine Bool.of_not_eq_false fun done => ?_
    exact absurd ((loads.due cacheKey).mpr ⟨load, hit, done⟩) List.not_mem_nil
  · refine Classical.byContradiction fun known => ?_
    obtain ⟨delivered, queued⟩ := loads.registered cacheKey load hit known
    exact absurd queued List.not_mem_nil

end Loads

namespace Budget

variable {main : ScriptIncludeState} {audit : List AuditLine} {cacheKey : String}

theorem log (budget : Budget main audit) {line : AuditLine} (small : line.size = none) :
    Budget main (audit ++ [line]) := by
  have same : sizes (audit ++ [line]) = sizes audit := by simp [sizes, small]
  exact ⟨budget.few, same ▸ budget.listed, same ▸ budget.charged, budget.limit⟩

theorem withPending (budget : Budget main audit) (pending : SeqMap String PendingLoad)
    (fewer : (unregistered { main with pending := pending }).length ≤ (unregistered main).length) :
    Budget { main with pending := pending } audit :=
  ⟨Nat.le_trans (Nat.add_le_add_left fewer _) budget.few, budget.listed, budget.charged, budget.limit⟩

theorem update (budget : Budget main audit) {load changed : PendingLoad}
    (hit : main.pending.get? cacheKey = some load) :
    Budget { main with pending := main.pending.set cacheKey changed } audit := by
  refine budget.withPending _ (Nat.le_of_eq ?_)
  simp only [unregistered]
  rw [SeqMap.keys_set_known (SeqMap.mem_keys.mpr (by rw [hit]; rfl))]

theorem erase (budget : Budget main audit) : Budget { main with pending := main.pending.erase cacheKey } audit := by
  refine budget.withPending _ ?_
  exact (((List.filter_sublist).map _).filter _).length_le

theorem start (budget : Budget main audit) {load : PendingLoad}
    (idle : main.pending.get? cacheKey = none) (room : main.committed < scriptIncludeMaxModules) :
    Budget { main with pending := main.pending.set cacheKey load } audit := by
  refine ⟨?_, budget.listed, budget.charged, budget.limit⟩
  have some_room : (unregistered { main with pending := main.pending.set cacheKey load }).length ≤
      main.pending.entries.length + 1 := by
    simp only [unregistered]
    rw [SeqMap.keys_set_new (by simp [SeqMap.mem_keys, idle])]
    refine Nat.le_trans (List.length_filter_le _ _) ?_
    simp [SeqMap.keys]
  simp only [ScriptIncludeState.committed] at room
  simp only [scriptIncludeMaxModules] at *
  omega

/-- A module takes the place its load had reserved. -/
theorem register (budget : Budget main audit) {load : PendingLoad} {record : IncludeModuleRecord}
    (hit : main.pending.get? record.cacheKey = some load)
    (unknown : main.byKey.get? record.cacheKey = none) (fresh : main.byId.get? record.id = none)
    {byteLength : Nat}
    (room : main.totalSourceBytes + byteLength ≤ scriptIncludeMaxTotalSourceBytes) (label : String) :
    Budget (main.register record byteLength)
      (audit ++ [.loaded label record.id record.displayName byteLength]) := by
  have logged : sizes (audit ++ [.loaded label record.id record.displayName byteLength]) =
      sizes audit ++ [(record.id, byteLength)] := by
    simp [sizes, AuditLine.size]
  have was : record.cacheKey ∈ unregistered main := by
    rw [unregistered, List.mem_filter]
    exact ⟨SeqMap.mem_keys.mpr (by rw [hit]; rfl), by rw [unknown]; rfl⟩
  have is : unregistered (main.register record byteLength) =
      (unregistered main).filter fun key => key ≠ record.cacheKey := by
    simp only [unregistered, ScriptIncludeState.register, SeqMap.get?_set, List.filter_filter]
    refine List.filter_congr fun key _ => ?_
    by_cases same : record.cacheKey = key
    · simp [same]
    · simp [same, Ne.symm same]
  have fewer : (unregistered (main.register record byteLength)).length < (unregistered main).length := by
    rw [is]
    exact List.length_filter_lt_length_iff_exists.mpr ⟨_, was, by simp⟩
  have longer : (main.register record byteLength).byKey.entries.length = main.byKey.entries.length + 1 := by
    simp only [ScriptIncludeState.register]
    rw [SeqMap.entries_set_new (by simp [SeqMap.mem_keys, unknown])]
    simp
  refine ⟨?_, ?_, ?_, room⟩
  · have bound := budget.few
    omega
  · rw [logged, List.map_append, ScriptIncludeState.register,
      SeqMap.keys_set_new (by simp [SeqMap.mem_keys, fresh]), budget.listed]
    rfl
  · rw [logged, List.map_append, List.sum_append, ← budget.charged]
    simp [ScriptIncludeState.register]

end Budget

end NexTerminal.Scripts.Include
