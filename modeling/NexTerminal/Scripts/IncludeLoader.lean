import NexTerminal.Scripts.IncludeWorker

namespace NexTerminal.Scripts.Include

open Library

variable {Exports : Type} {ctx : ScriptFsContext} {s next : IncludeRun Exports}

open IncludeRun

structure MainStep (s next : IncludeRun Exports) : Prop where
  loader : next.loader = s.loader
  calls : next.calls = s.calls
  received : next.received = s.received
  sent : s.sent <+: next.sent
  byId : ∀ (id : ModuleId) (record : IncludeModuleRecord), s.main.byId.get? id = some record →
    next.main.byId.get? id = some record

theorem MainStep.quiet (loader : next.loader = s.loader) (calls : next.calls = s.calls)
    (received : next.received = s.received) (sent : next.sent = s.sent) (byId : next.main.byId = s.main.byId) :
    MainStep s next :=
  ⟨loader, calls, received, sent.symm ▸ List.prefix_rfl, fun id record hit => by rw [byId]; exact hit⟩

theorem WorkerInvariant.mainStep (inv : WorkerInvariant ctx s) (step : MainStep s next) :
    WorkerInvariant ctx next := by
  refine inv.carry ⟨fun call made hit => ⟨made, ?_, rfl, rfl⟩, step.byId⟩ step.loader step.calls
    step.received step.sent
  rw [step.calls]
  exact hit

theorem handle_mainStep (ctx : ScriptFsContext) (s : IncludeRun Exports) (req : Request) :
    MainStep s (s.handle ctx req) := by
  unfold handle
  split
  · exact .quiet rfl rfl rfl rfl rfl
  · exact .quiet rfl rfl rfl rfl rfl
  · exact .quiet rfl rfl rfl rfl rfl
  · exact .quiet rfl rfl rfl rfl rfl

theorem complete_mainStep (s : IncludeRun Exports) (key : String) (outcome : ReadOutcome) :
    MainStep s (s.complete key outcome) := by
  unfold complete
  split
  · split
    · exact .quiet rfl rfl rfl rfl rfl
    · exact .quiet rfl rfl rfl rfl rfl
  · exact .quiet rfl rfl rfl rfl rfl

theorem tick_mainStep (tables : Tables s.main) (ctx : ScriptFsContext) (task : Task) :
    MainStep s (s.runTask ctx task) := by
  cases task with
  | settle key outcome =>
    simp only [runTask]
    split
    · exact .quiet rfl rfl rfl rfl rfl
    · rename_i load _
      unfold settle
      split
      · exact .quiet rfl rfl rfl rfl rfl
      · rename_i text byteLength
        split
        · exact .quiet rfl rfl rfl rfl rfl
        · have fresh : (s.main.mint ctx key load).id = .minted s.main.nextId := rfl
          exact ⟨rfl, rfl, rfl, List.prefix_rfl, (register_continues tables fresh byteLength).byId⟩
  | share key outcome | resume key outcome =>
    simp only [runTask]
    split
    · exact .quiet rfl rfl rfl rfl rfl
    · exact .quiet rfl rfl rfl rfl rfl
  | join call label outcome =>
    cases outcome with
    | error error | ok record => exact .quiet rfl rfl rfl rfl rfl
  | reply call answer => exact ⟨rfl, rfl, rfl, List.prefix_append _ _, fun _ _ hit => hit⟩

structure WorkerStep (s next : IncludeRun Exports) : Prop where
  main : next.main = s.main
  tasks : next.tasks = s.tasks
  sent : next.sent = s.sent
  audit : next.audit = s.audit

theorem call_workerStep (s : IncludeRun Exports) (chain : List ModuleId) (specifier : Specifier)
    (awaited : Bool) : WorkerStep s (s.call chain specifier awaited) := by
  unfold IncludeRun.call
  split
  · split
    · exact ⟨rfl, rfl, rfl, rfl⟩
    · exact ⟨rfl, rfl, rfl, rfl⟩
  · exact ⟨rfl, rfl, rfl, rfl⟩

theorem deliver_workerStep (s : IncludeRun Exports) (call : Nat) (answer : Answer) :
    WorkerStep s ({ s with received := s.received + 1 }.deliver call answer) := by
  unfold deliver
  split
  · exact ⟨rfl, rfl, rfl, rfl⟩
  · split
    · exact ⟨rfl, rfl, rfl, rfl⟩
    · unfold accept
      split
      · exact ⟨rfl, rfl, rfl, rfl⟩
      · split
        · exact ⟨rfl, rfl, rfl, rfl⟩
        · split
          · exact ⟨rfl, rfl, rfl, rfl⟩
          · exact ⟨rfl, rfl, rfl, rfl⟩

theorem finish_workerStep (s : IncludeRun Exports) (module : ModuleId) (outcome : Evaluation Exports) :
    WorkerStep s (s.finish module outcome) := by
  unfold finish
  split
  · exact ⟨rfl, rfl, rfl, rfl⟩
  · exact ⟨rfl, rfl, rfl, rfl⟩

theorem resume_workerStep (s : IncludeRun Exports) (call : Nat) (made : IncludeCall Exports) :
    WorkerStep s (s.resume call made) := by
  unfold resume
  split
  · split
    · split
      · exact ⟨rfl, rfl, rfl, rfl⟩
      · exact ⟨rfl, rfl, rfl, rfl⟩
    · exact ⟨rfl, rfl, rfl, rfl⟩
    · exact ⟨rfl, rfl, rfl, rfl⟩
  · exact ⟨rfl, rfl, rfl, rfl⟩

theorem MainInvariant.workerStep (inv : MainInvariant s) (step : WorkerStep s next) : MainInvariant next :=
  inv.of_same step.main step.tasks step.sent step.audit

theorem getElem?_setCall (s : IncludeRun Exports) (call : Nat) (state : CallState Exports) (other : Nat) :
    (s.setCall call state).calls[other]? =
      if call = other then (s.calls[other]?).map fun made => { made with state := state }
      else s.calls[other]? := by
  simp only [setCall, List.getElem?_modify]
  split
  · rfl
  · simp

theorem setCall_continues (s : IncludeRun Exports) (call : Nat) (state : CallState Exports) :
    s.Continues (s.setCall call state) := by
  refine ⟨fun other made hit => ?_, fun _ _ hit => hit⟩
  rw [getElem?_setCall, hit]
  split
  · exact ⟨_, rfl, rfl, rfl⟩
  · exact ⟨made, rfl, rfl, rfl⟩

theorem Fulfils.setCall (fulfils : Fulfils ctx s) (call : Nat) (state : CallState Exports) :
    Fulfils ctx (s.setCall call state) :=
  fulfils.carry (setCall_continues s call state) (fun _ queued => queued) rfl (fun _ _ _ queued => queued)
    (fun _ _ given => given)

theorem Fulfils.worker (fulfils : Fulfils ctx s) (loader : ScriptModuleLoader Exports) (received : Nat) :
    Fulfils ctx { s with loader := loader, received := received } :=
  fulfils.carry (Continues.of_same rfl rfl) (fun _ queued => queued) rfl (fun _ _ _ queued => queued)
    (fun _ _ given => given)

theorem WorkerInvariant.setCall (inv : WorkerInvariant ctx s) {call : Nat} {state : CallState Exports}
    (fits : ∀ made, s.calls[call]? = some made → state.Fits ctx s made) :
    WorkerInvariant ctx (s.setCall call state) := by
  refine { inv with calls := fun other made hit => ?_ }
  rw [getElem?_setCall] at hit
  split at hit
  · rename_i same
    subst same
    obtain ⟨pre, atCall, rfl⟩ := Option.map_eq_some_iff.mp hit
    exact fits pre atCall
  · exact inv.calls other made hit

theorem call_continues (s : IncludeRun Exports) (made : IncludeCall Exports) (requests : List Request) :
    s.Continues { s with calls := s.calls ++ [made], requests := requests } := by
  refine ⟨fun call pre hit => ⟨pre, ?_, rfl, rfl⟩, fun _ _ hit => hit⟩
  rw [List.getElem?_append_left (List.getElem?_eq_some_iff.mp hit).1]
  exact hit

theorem Fulfils.call (fulfils : Fulfils ctx s) (chain : List ModuleId) (specifier : Specifier)
    (awaited : Bool) : Fulfils ctx (s.call chain specifier awaited) := by
  have made : ∀ state : CallState Exports, Fulfils ctx { s with calls := s.calls ++
      [{ chain := chain, specifier := specifier, awaited := awaited, state := state }] } := by
    intro state
    exact fulfils.carry (call_continues s _ s.requests) (fun _ queued => queued) rfl
      (fun _ _ _ queued => queued) (fun _ _ given => given)
  unfold IncludeRun.call
  split
  · split
    · exact made _
    · exact made _
  · refine ⟨?_, (made .loading).pending, (made .loading).joins, (made .loading).answers⟩
    intro req queued
    rcases List.mem_append.mp queued with pre | last
    · exact (made .loading).requests req pre
    · rw [List.mem_singleton.mp last]
      exact ⟨_, List.getElem?_concat_length, rfl, rfl⟩

variable {made : IncludeCall Exports}

theorem WorkerInvariant.append (inv : WorkerInvariant ctx s) (fits : made.state.Fits ctx s made)
    (requests : List Request) : WorkerInvariant ctx { s with calls := s.calls ++ [made], requests := requests } := by
  refine { inv with calls := fun call other hit => ?_ }
  rw [List.getElem?_append] at hit
  split at hit
  · exact inv.calls call other hit
  · rw [List.getElem?_singleton] at hit
    split at hit
    · cases hit
      exact fits
    · cases hit

theorem memoKeyOf_eq_some {chain : List ModuleId} {specifier : Specifier} {key : ModuleId × String}
    (memoised : memoKeyOf chain specifier = some key) : specifier = .text key.2 ∧ key.1 = parentOf chain := by
  cases specifier with
  | text path =>
    cases memoised
    exact ⟨rfl, rfl⟩
  | other description => cases memoised

theorem WorkerInvariant.call (inv : WorkerInvariant ctx s) (chain : List ModuleId) (specifier : Specifier)
    (awaited : Bool) : WorkerInvariant ctx (s.call chain specifier awaited) := by
  unfold IncludeRun.call
  split
  · rename_i module memoised
    obtain ⟨key, shape, hit⟩ := Option.bind_eq_some_iff.mp memoised
    obtain ⟨rfl, parent⟩ := memoKeyOf_eq_some shape
    obtain ⟨exported, names⟩ := inv.memo key.1 key.2 module hit
    have held : s.loader.modules.has module = true := by
      obtain ⟨chain, exports, there⟩ := exported
      rw [SeqMap.has, there]
      rfl
    rw [if_pos held]
    refine inv.append ?_ s.requests
    exact ⟨held, parent ▸ names, fun _ => exported⟩
  · refine inv.append ?_ _
    trivial

theorem next_answer {call : Nat} {answer : Answer} (main : MainInvariant s) (inv : WorkerInvariant ctx s)
    (next : s.sent[s.received]? = some (call, answer)) :
    (∀ id, sourceOf answer = some id → id ∉ s.loader.modules.keys) ∧
      ∀ id, cachedOf answer = some id → id ∈ s.loader.modules.keys := by
  obtain ⟨small, atNext⟩ := List.getElem?_eq_some_iff.mp next
  have split : s.sent.map Prod.snd = (s.sent.take s.received).map Prod.snd ++
      answer :: (s.sent.drop (s.received + 1)).map Prod.snd := by
    conv_lhs => rw [← List.take_append_drop s.received s.sent, List.drop_eq_getElem_cons small, atNext]
    simp
  refine ⟨fun id source => ?_, fun id cached => ?_⟩
  · rw [inv.held]
    have nodup := main.flow.once.nodup_iff.mpr s.main.byId.distinct
    rw [List.nodup_cons, List.nodup_append] at nodup
    have sources := nodup.2.1
    rw [answersOf, split, List.filterMap_append, List.filterMap_append, List.nodup_append] at sources
    have front := sources.1
    rw [toList_filterMap, source, List.nodup_append] at front
    intro inside
    exact front.2.2 id inside id (by simp) rfl
  · rw [inv.held]
    have order := main.flow.order
    rw [answersOf, split, List.append_assoc, SourceFirst.append] at order
    have pre := order.2.1 id cached
    rwa [List.nil_append] at pre

theorem Fulfils.accept (fulfils : Fulfils ctx s) (call : Nat) (chain : List ModuleId)
    (res : IncludeLoadResult) : Fulfils ctx (s.accept call chain res) := by
  unfold IncludeRun.accept
  split
  · exact fulfils.setCall call _
  · split
    · exact fulfils.setCall call _
    · split
      · exact fulfils.setCall call _
      · exact (fulfils.worker _ s.received).setCall call _

theorem Fulfils.deliver (fulfils : Fulfils ctx s) (call : Nat) (answer : Answer) :
    Fulfils ctx ({ s with received := s.received + 1 }.deliver call answer) := by
  have taken : Fulfils ctx { s with received := s.received + 1 } := fulfils.worker s.loader _
  unfold IncludeRun.deliver
  split
  · exact taken
  · split
    · exact taken.setCall call _
    · exact taken.accept call _ _

theorem CallState.Fits.enter {state : CallState Exports} {id : ModuleId} {entry : ModuleEntry Exports}
    (fits : state.Fits ctx s made) (absent : s.loader.modules.get? id = none) (evaluated : List ModuleId) :
    state.Fits ctx { s with loader := { s.loader with
      modules := s.loader.modules.set id entry, evaluated := evaluated } } made := by
  have kept : ∀ (module : ModuleId) (held : ModuleEntry Exports),
      s.loader.modules.get? module = some held →
      (s.loader.modules.set id entry).get? module = some held := by
    intro module held hit
    rw [SeqMap.get?_set, if_neg, hit]
    rintro rfl
    rw [absent] at hit
    cases hit
  cases state with
  | loading | refused error => trivial
  | awaiting module via =>
    obtain ⟨has, names, memo⟩ := fits
    refine ⟨?_, names, fun viaMemo => ?_⟩
    · obtain ⟨held, hit⟩ := Option.isSome_iff_exists.mp has
      rw [SeqMap.has, kept module held hit]
      rfl
    · obtain ⟨chain, exports, hit⟩ := memo viaMemo
      exact ⟨chain, exports, kept module _ hit⟩
  | resolved module exports =>
    obtain ⟨⟨chain, hit⟩, names⟩ := fits
    exact ⟨⟨chain, kept module _ hit⟩, names⟩
  | failed module failure =>
    obtain ⟨chain, hit⟩ := fits
    exact ⟨chain, kept module _ hit⟩
  | broken violation => exact fits

/-- A delivery from the loader keeps the worker sound. -/
theorem WorkerInvariant.deliver {call : Nat} {answer : Answer} (inv : WorkerInvariant ctx s)
    (main : MainInvariant s) (fulfils : Fulfils ctx s) (next : s.sent[s.received]? = some (call, answer)) :
    WorkerInvariant ctx ({ s with received := s.received + 1 }.deliver call answer) := by
  obtain ⟨fresh, known⟩ := next_answer main inv next
  obtain ⟨small, _⟩ := List.getElem?_eq_some_iff.mp next
  have grown : ((s.sent.take (s.received + 1)).map Prod.snd).filterMap sourceOf =
      s.loader.modules.keys ++ (sourceOf answer).toList := by
    rw [List.take_add_one, next, Option.toList_some, List.map_append, List.filterMap_append, inv.held,
      List.map_singleton, toList_filterMap, List.filterMap_nil, List.append_nil]
  have quiet : sourceOf answer = none → WorkerInvariant ctx { s with received := s.received + 1 } := by
    intro nothing
    rw [nothing, Option.toList_none, List.append_nil] at grown
    exact ⟨small, grown.symm, inv.evaluated, inv.calls, inv.memo⟩
  cases answer with
  | error error =>
    unfold IncludeRun.deliver
    split
    · exact quiet rfl
    · exact (quiet rfl).setCall fun _ _ => trivial
  | ok res =>
    obtain ⟨⟨record, hit, made, atCall, asks⟩, sourced⟩ :=
      fulfils.answers call res (.inl (List.mem_of_getElem? next))
    simp only [IncludeRun.deliver, atCall]
    unfold IncludeRun.accept
    cases cached : res.cached with
    | true =>
      have held : s.loader.modules.has res.moduleId = true :=
        SeqMap.mem_keys.mp (known res.moduleId (by simp [cachedOf, cached]))
      rw [if_pos held]
      refine (quiet (by simp [sourceOf, cached])).setCall fun other atOther => ?_
      rw [atCall, Option.some.injEq] at atOther
      subst atOther
      exact ⟨held, ⟨record, hit, asks⟩, by simp⟩
    | false =>
      have source : sourceOf (.ok res) = some res.moduleId := by simp [sourceOf, cached]
      have unheld := fresh res.moduleId source
      have absent : s.loader.modules.get? res.moduleId = none := by
        simpa [SeqMap.mem_keys] using unheld
      have missing : ¬ s.loader.modules.has res.moduleId = true := by
        rw [SeqMap.has, absent]
        simp
      rw [if_neg missing, if_neg (by decide)]
      obtain ⟨text, given⟩ := Option.ne_none_iff_exists'.mp (sourced cached)
      simp only [given]
      rw [source, Option.toList_some] at grown
      have keys := SeqMap.keys_set_new unheld (⟨made.chain ++ [res.moduleId], .running⟩ :
        ModuleEntry Exports)
      have entered : WorkerInvariant ctx { s with
          received := s.received + 1
          loader := { s.loader with
            modules := s.loader.modules.set res.moduleId { chain := made.chain ++ [res.moduleId] }
            evaluated := s.loader.evaluated ++ [res.moduleId] } } := by
        refine ⟨small, keys.trans grown.symm, ?_, ?_, ?_⟩
        · exact (congrArg (· ++ [res.moduleId]) inv.evaluated).trans keys.symm
        · exact fun other held atOther => (inv.calls other held atOther).enter absent _
        · intro parent path module memoised
          obtain ⟨⟨chain, exports, there⟩, names⟩ := inv.memo parent path module memoised
          refine ⟨⟨chain, exports, ?_⟩, names⟩
          rw [SeqMap.get?_set, if_neg, there]
          rintro rfl
          rw [absent] at there
          cases there
      refine entered.setCall fun other atOther => ?_
      rw [atCall, Option.some.injEq] at atOther
      subst atOther
      refine ⟨?_, ⟨record, hit, asks⟩, by simp⟩
      rw [SeqMap.has, SeqMap.get?_set, if_pos rfl]
      rfl

theorem WorkerInvariant.finish (inv : WorkerInvariant ctx s) (module : ModuleId)
    (outcome : Evaluation Exports) : WorkerInvariant ctx (s.finish module outcome) := by
  unfold IncludeRun.finish
  split
  · rename_i chain running
    have known : module ∈ s.loader.modules.keys := SeqMap.mem_keys.mpr (by rw [running]; rfl)
    have keys := SeqMap.keys_set_known known (⟨chain, outcome⟩ : ModuleEntry Exports)
    have kept : ∀ (other : ModuleId) (entry : ModuleEntry Exports), entry.exports ≠ .running →
        s.loader.modules.get? other = some entry →
        (s.loader.modules.set module ⟨chain, outcome⟩).get? other = some entry := by
      intro other entry settled hit
      rw [SeqMap.get?_set, if_neg, hit]
      rintro rfl
      rw [running, Option.some.injEq] at hit
      exact settled (by rw [← hit])
    refine ⟨inv.taken, keys.trans inv.held, inv.evaluated.trans keys.symm, ?_, ?_⟩
    · intro call made hit
      have fits := inv.calls call made hit
      cases state : made.state with
      | loading | refused error => trivial
      | awaiting other via =>
        rw [state] at fits
        obtain ⟨has, names, memo⟩ := fits
        refine ⟨?_, names, fun viaMemo => ?_⟩
        · have inside : other ∈ (s.loader.modules.set module ⟨chain, outcome⟩).keys := by
            rw [keys]
            exact SeqMap.mem_keys.mpr has
          exact SeqMap.mem_keys.mp inside
        · obtain ⟨chain', exports, there⟩ := memo viaMemo
          exact ⟨chain', exports, kept other _ nofun there⟩
      | resolved other exports =>
        rw [state] at fits
        obtain ⟨⟨chain', there⟩, names⟩ := fits
        exact ⟨⟨chain', kept other _ nofun there⟩, names⟩
      | failed other failure =>
        rw [state] at fits
        obtain ⟨chain', there⟩ := fits
        exact ⟨chain', kept other _ nofun there⟩
      | broken violation =>
        rw [state] at fits
        exact fits
    · intro parent path other memoised
      obtain ⟨⟨chain', exports, there⟩, names⟩ := inv.memo parent path other memoised
      exact ⟨⟨chain', exports, kept other _ nofun there⟩, names⟩
  · exact inv

theorem Fulfils.finish (fulfils : Fulfils ctx s) (module : ModuleId) (outcome : Evaluation Exports) :
    Fulfils ctx (s.finish module outcome) := by
  unfold IncludeRun.finish
  split
  · exact fulfils.worker _ s.received
  · exact fulfils

theorem Fulfils.resume (fulfils : Fulfils ctx s) (call : Nat) (made : IncludeCall Exports) :
    Fulfils ctx (s.resume call made) := by
  unfold IncludeRun.resume
  split
  · split
    · split
      · exact fulfils.setCall call _
      · exact (fulfils.worker _ s.received).setCall call _
    · exact fulfils.setCall call _
    · exact fulfils
  · exact fulfils

theorem WorkerInvariant.resume {call : Nat} (inv : WorkerInvariant ctx s) (hit : s.calls[call]? = some made) :
    WorkerInvariant ctx (s.resume call made) := by
  have fits := inv.calls call made hit
  unfold IncludeRun.resume
  split
  · rename_i module via state
    rw [state] at fits
    obtain ⟨_, names, _⟩ := fits
    split
    · rename_i chain exports there
      have resolves : ∀ other, s.calls[call]? = some other →
          (CallState.resolved module exports).Fits ctx s other := by
        intro other atOther
        rw [hit, Option.some.injEq] at atOther
        subst atOther
        exact ⟨⟨chain, there⟩, names⟩
      split
      · exact inv.setCall resolves
      · refine WorkerInvariant.setCall ?_ resolves
        refine { inv with memo := ?_ }
        intro parent path other memoised
        split at memoised
        · exact inv.memo parent path other memoised
        · rename_i key shape
          obtain ⟨specifier, atParent⟩ := memoKeyOf_eq_some shape
          rw [SeqMap.get?_set] at memoised
          split at memoised
          · rename_i same
            cases memoised
            subst same
            refine ⟨⟨chain, exports, there⟩, ?_⟩
            rw [specifier, ← atParent] at names
            exact names
          · exact inv.memo parent path other memoised
    · rename_i chain failure there
      refine inv.setCall fun other atOther => ⟨chain, there⟩
    · exact inv
  · exact inv

end NexTerminal.Scripts.Include
