import Mathlib.Logic.Relation
import NexTerminal.Scripts.IncludeRuns

namespace NexTerminal.Scripts.Include

open Library IncludeRun

variable {Exports : Type} {ctx : ScriptFsContext} {s next : IncludeRun Exports}

namespace IncludeRun

/-- Whether this is the chain of the entry script or of a module's own facade. -/
def isFacade (s : IncludeRun Exports) (chain : List ModuleId) : Bool :=
  chain == [.root] || s.loader.modules.values.any fun entry => entry.chain == chain

/-- Every include goes through the facade of the unit that calls it. -/
def ThroughFacades (ctx : ScriptFsContext) : IncludeRun Exports → List (Act Exports) → Prop
  | _, [] => True
  | s, act :: rest =>
    (match act with
      | .call chain _ _ => s.isFacade chain = true
      | _ => True) ∧ ThroughFacades ctx (s.step ctx act) rest

def Executing (s : IncludeRun Exports) (module : ModuleId) : Prop :=
  ∃ chain, s.loader.modules.get? module = some ⟨chain, .running⟩

/-- The body of `waiter` awaits an include that got `module` in this way, and both
are still executing. -/
def WaitsVia (s : IncludeRun Exports) (via : Via) (waiter module : ModuleId) : Prop :=
  s.Executing waiter ∧ s.Executing module ∧ ∃ (call : Nat)
    (made : IncludeCall Exports), s.calls[call]? = some made ∧
    made.awaited = true ∧ parentOf made.chain = waiter ∧ made.state = .awaiting module via

def Waits (s : IncludeRun Exports) (waiter module : ModuleId) : Prop := ∃ via, s.WaitsVia via waiter module

end IncludeRun

structure Chained (s : IncludeRun Exports) : Prop where
  entries : ∀ (module : ModuleId) (entry : ModuleEntry Exports),
    s.loader.modules.get? module = some entry → entry.chain.getLast? = some module
  calls : ∀ (call : Nat) (made : IncludeCall Exports), s.calls[call]? = some made →
    (made.chain = [.root] ∨ ∃ entry, s.loader.modules.get? (parentOf made.chain) = some entry ∧
      entry.chain = made.chain) ∧
    ∀ module, made.state = .awaiting module .source →
      ∃ entry, s.loader.modules.get? module = some entry ∧ entry.chain = made.chain ++ [module]

section

variable (chained : Chained s)
include chained

theorem Chained.setCall {call : Nat} {state : CallState Exports}
    (source : ∀ (made : IncludeCall Exports) (module : ModuleId), s.calls[call]? = some made →
      state = .awaiting module .source →
      ∃ entry, s.loader.modules.get? module = some entry ∧ entry.chain = made.chain ++ [module]) :
    Chained (s.setCall call state) := by
  refine ⟨chained.entries, fun other made hit => ?_⟩
  rw [getElem?_setCall] at hit
  split at hit
  · rename_i same
    subst same
    obtain ⟨pre, there, rfl⟩ := Option.map_eq_some_iff.mp hit
    exact ⟨(chained.calls call pre there).1, fun module awaiting => source pre module there awaiting⟩
  · exact chained.calls other made hit

theorem Chained.setOther (call : Nat) (state : CallState Exports)
    (ne : ∀ module, state ≠ .awaiting module .source) :
    Chained (s.setCall call state) :=
  chained.setCall fun _ module _ awaiting => absurd awaiting (ne module)

theorem Chained.append {made : IncludeCall Exports}
    (facade : made.chain = [.root] ∨ ∃ entry, s.loader.modules.get? (parentOf made.chain) = some entry ∧
      entry.chain = made.chain) (ne : ∀ module, made.state ≠ .awaiting module .source)
        (requests : List Request) :
    Chained { s with calls := s.calls ++ [made], requests := requests } := by
  refine ⟨chained.entries, fun call asked hit => ?_⟩
  rw [List.getElem?_append] at hit
  split at hit
  · exact chained.calls call asked hit
  · rw [List.getElem?_singleton] at hit
    split at hit
    · cases hit
      exact ⟨facade, fun module awaiting => absurd awaiting (ne module)⟩
    · cases hit

theorem Chained.withLoader (loader : ScriptModuleLoader Exports) (received : Nat)
    (keeps : ∀ (module : ModuleId) (entry : ModuleEntry Exports),
      s.loader.modules.get? module = some entry →
      ∃ now, loader.modules.get? module = some now ∧ now.chain = entry.chain)
    (entries : ∀ (module : ModuleId) (entry : ModuleEntry Exports), loader.modules.get? module = some entry →
      entry.chain.getLast? = some module) : Chained { s with loader := loader, received := received } := by
  refine ⟨entries, fun call made hit => ?_⟩
  obtain ⟨facade, source⟩ := chained.calls call made hit
  refine ⟨?_, fun module awaiting => ?_⟩
  · rcases facade with root | ⟨entry, there, same⟩
    · exact .inl root
    · obtain ⟨now, isThere, alike⟩ := keeps _ entry there
      exact .inr ⟨now, isThere, alike.trans same⟩
  · obtain ⟨entry, there, same⟩ := source module awaiting
    obtain ⟨now, isThere, alike⟩ := keeps module entry there
    exact ⟨now, isThere, alike.trans same⟩

theorem Chained.mainStep (step : MainStep s next) : Chained next := by
  obtain ⟨entries, calls⟩ := chained
  rw [← step.loader] at entries calls
  rw [← step.calls] at calls
  exact ⟨entries, calls⟩

end

theorem Chained.call {chain : List ModuleId} (chained : Chained s) (facade : s.isFacade chain = true)
    (specifier : Specifier) (awaited : Bool) : Chained (s.call chain specifier awaited) := by
  have known : chain = [.root] ∨ ∃ entry, s.loader.modules.get? (parentOf chain) = some entry ∧
      entry.chain = chain := by
    simp only [isFacade, Bool.or_eq_true, beq_iff_eq, List.any_eq_true] at facade
    rcases facade with root | ⟨entry, mem, same⟩
    · exact .inl root
    · obtain ⟨module, hit⟩ := SeqMap.mem_values.mp mem
      have last := chained.entries module entry hit
      rw [same] at last
      refine .inr ⟨entry, ?_, same⟩
      rw [parentOf, last]
      exact hit
  unfold IncludeRun.call
  split
  · split
    · refine chained.append known ?_ s.requests
      simp
    · refine chained.append known ?_ s.requests
      simp
  · refine chained.append known ?_ _
    simp

theorem Chained.accept {call : Nat} {made : IncludeCall Exports} (chained : Chained s)
    (hit : s.calls[call]? = some made) (res : IncludeLoadResult) :
    Chained (s.accept call made.chain res) := by
  unfold IncludeRun.accept
  split
  · exact chained.setOther call _ (by simp)
  · rename_i unheld
    split
    · exact chained.setOther call _ (by simp)
    · split
      · exact chained.setOther call _ (by simp)
      · have absent : s.loader.modules.get? res.moduleId = none := by
          simpa [SeqMap.has] using unheld
        have entered := chained.withLoader { s.loader with
          modules := s.loader.modules.set res.moduleId { chain := made.chain ++ [res.moduleId] }
          evaluated := s.loader.evaluated ++ [res.moduleId] } s.received
          (fun module entry there => by
            refine ⟨entry, ?_, rfl⟩
            rw [SeqMap.get?_set, if_neg, there]
            rintro rfl
            rw [absent] at there
            cases there)
          (fun module entry there => by
            rw [SeqMap.get?_set] at there
            split at there
            · rename_i same
              cases there
              rw [← same]
              exact List.getLast?_concat
            · exact chained.entries module entry there)
        refine entered.setCall fun other module atCall awaiting => ?_
        cases awaiting
        have same := hit.symm.trans atCall
        cases same
        exact ⟨_, by rw [SeqMap.get?_set, if_pos rfl], rfl⟩

theorem Chained.deliver (chained : Chained s) (call : Nat) (answer : Answer) :
    Chained ({ s with received := s.received + 1 }.deliver call answer) := by
  have taken : Chained { s with received := s.received + 1 } := ⟨chained.entries, chained.calls⟩
  unfold IncludeRun.deliver
  split
  · exact taken
  · rename_i made hit
    split
    · exact taken.setOther call _ nofun
    · exact taken.accept hit _

theorem Chained.finish (chained : Chained s) (module : ModuleId) (outcome : Evaluation Exports) :
    Chained (s.finish module outcome) := by
  unfold IncludeRun.finish
  split
  · rename_i chain running
    refine chained.withLoader _ s.received ?_ ?_
    · intro other entry there
      rw [SeqMap.get?_set]
      split
      · rename_i same
        subst same
        rw [running, Option.some.injEq] at there
        exact ⟨_, rfl, by rw [← there]⟩
      · exact ⟨entry, there, rfl⟩
    · intro other entry there
      rw [SeqMap.get?_set] at there
      split at there
      · rename_i same
        subst same
        cases there
        exact chained.entries module ⟨chain, .running⟩ running
      · exact chained.entries other entry there
  · exact chained

theorem Chained.resume (chained : Chained s) (call : Nat) (made : IncludeCall Exports) :
    Chained (s.resume call made) := by
  unfold IncludeRun.resume
  split
  · split
    · split
      · exact chained.setOther call _ nofun
      · refine Chained.setOther ?_ call _ nofun
        exact ⟨chained.entries, chained.calls⟩
    · exact chained.setOther call _ nofun
    · exact chained
  · exact chained

theorem Chained.step {act : Act Exports} (chained : Chained s) (sound : Sound ctx s)
    (facade : ∀ chain specifier awaited, act = .call chain specifier awaited → s.isFacade chain = true) :
    Chained (s.step ctx act) := by
  cases act with
  | call chain specifier awaited => exact chained.call (facade chain specifier awaited rfl) specifier awaited
  | receive =>
    simp only [IncludeRun.step]
    split
    · rename_i req rest _ _
      have taken : Chained { s with requests := rest } := ⟨chained.entries, chained.calls⟩
      exact taken.mainStep (handle_mainStep ctx _ req)
    · exact chained
  | complete key outcome => exact chained.mainStep (complete_mainStep s key outcome)
  | tick =>
    simp only [IncludeRun.step]
    split
    · exact chained
    · rename_i task rest _
      have taken : Chained { s with tasks := rest } := ⟨chained.entries, chained.calls⟩
      have tables : Tables { s with tasks := rest }.main := sound.main.tables
      exact taken.mainStep (tick_mainStep tables ctx task)
  | deliver =>
    simp only [IncludeRun.step]
    split
    · exact chained
    · exact chained.deliver _ _
  | finish module outcome => exact chained.finish module outcome
  | resume call =>
    simp only [IncludeRun.step]
    split
    · exact chained
    · exact chained.resume call _

theorem run_chained {acts : List (Act Exports)} (chained : Chained s) (sound : Sound ctx s)
    (facades : s.ThroughFacades ctx acts) : Chained (s.run ctx acts) := by
  induction acts generalizing s with
  | nil => exact chained
  | cons act rest ih =>
    refine ih (chained.step sound ?_) (sound.step act) facades.2
    rintro chain specifier awaited rfl
    exact facades.1

def rank (s : IncludeRun Exports) (module : ModuleId) : Nat :=
  ((s.loader.modules.get? module).map fun entry => entry.chain.length).getD 0

theorem Sound.root_unheld (sound : Sound ctx s) : s.loader.modules.get? .root = none := by
  have nodup := sound.main.flow.once.nodup_iff.mpr s.main.byId.distinct
  refine Option.eq_none_iff_forall_ne_some.mpr fun entry hit => ?_
  have held : ModuleId.root ∈ s.loader.modules.keys := SeqMap.mem_keys.mpr (by rw [hit]; rfl)
  rw [sound.worker.held] at held
  refine (List.nodup_cons.mp nodup).1 (List.mem_append_left _ ?_)
  rw [answersOf, List.filterMap_append]
  refine List.mem_append_left _ ?_
  exact ((List.take_sublist _ _).map _).filterMap _ |>.subset held

theorem started_deeper {waiter module : ModuleId} (sound : Sound ctx s) (chained : Chained s)
    (waits : s.WaitsVia .source waiter module) : rank s module = rank s waiter + 1 := by
  obtain ⟨⟨chain, executing⟩, _, call, made, hit, _, rfl, state⟩ := waits
  obtain ⟨facade, source⟩ := chained.calls call made hit
  obtain ⟨entry, there, extends_⟩ := source module state
  rcases facade with root | ⟨own, atOwn, same⟩
  · have isRoot : parentOf made.chain = .root := by rw [root]; rfl
    rw [isRoot, sound.root_unheld] at executing
    cases executing
  · rw [rank, there, rank, atOwn, Option.map_some, Option.map_some, extends_, same]
    simp

theorem started_acyclic (sound : Sound ctx s) (chained : Chained s) (module : ModuleId) :
    ¬ Relation.TransGen (s.WaitsVia .source) module module := by
  have deeper : ∀ {waiter module : ModuleId}, Relation.TransGen (s.WaitsVia .source) waiter module →
      rank s waiter < rank s module := by
    intro waiter module path
    induction path with
    | single edge =>
      rw [started_deeper sound chained edge]
      exact Nat.lt_succ_self _
    | tail _ edge ih =>
      rw [started_deeper sound chained edge]
      exact Nat.lt_succ_of_lt ih
  exact fun path => Nat.lt_irrefl _ (deeper path)

theorem waits_started_or_joined {waiter module : ModuleId} (sound : Sound ctx s) (waits : s.Waits waiter module) :
    s.WaitsVia .source waiter module ∨ s.WaitsVia .cached waiter module := by
  obtain ⟨via, waits⟩ := waits
  cases via with
  | source => exact .inl waits
  | cached => exact .inr waits
  | memo =>
    obtain ⟨_, ⟨chain, executing⟩, call, made, hit, _, _, state⟩ := waits
    have fits := sound.worker.calls call made hit
    rw [state] at fits
    obtain ⟨_, _, exported⟩ := fits
    obtain ⟨chain', exports, there⟩ := exported rfl
    rw [executing] at there
    cases there

theorem ladder_circular {main : ScriptIncludeState} {requested : Specifier} {chain : List ModuleId}
    {parents : List IncludeModuleRecord} {path : String} (valid : main.validateChain chain = .ok parents)
    (shallow : parents.length ≤ scriptIncludeMaxDepth)
    (resolved : ctx.resolve requested (parents.getLast?.bind IncludeModuleRecord.dirPath) = .ok path)
    (js : endsInJs path = true) (own : ∃ record ∈ parents, record.cacheKey = ctx.cacheKey path) :
    ∃ cycle, main.ladder ctx requested chain = .refused (.circular cycle) := by
  obtain ⟨record, mem, same⟩ := own
  have present : (parents.find? fun record => record.cacheKey == ctx.cacheKey path).isSome = true :=
    List.find?_isSome.mpr ⟨record, mem, by simpa using same⟩
  obtain ⟨ancestor, hit⟩ := Option.isSome_iff_exists.mp present
  refine ⟨parents.map IncludeModuleRecord.displayName ++ [ancestor.displayName], ?_⟩
  simp only [ScriptIncludeState.ladder, valid, resolved, js, Bool.not_true, Bool.false_eq_true, if_false,
    ScriptIncludeState.lookUp, hit]
  rw [if_neg (Nat.not_lt.mpr shallow)]

/-- In every run of facades, each cycle of waits has an include that joined a body not on its chain. -/
theorem wait_cycles_join (ctx : ScriptFsContext) (acts : List (Act Exports))
    (facades : (initial ctx : IncludeRun Exports).ThroughFacades ctx acts) :
    let s := (initial ctx : IncludeRun Exports).run ctx acts
    (∀ module, ¬ Relation.TransGen (s.WaitsVia .source) module module) ∧
    (∀ waiter module, s.Waits waiter module → s.WaitsVia .source waiter module ∨
      s.WaitsVia .cached waiter module) ∧
    ∀ (requested : Specifier) (chain : List ModuleId) (parents : List IncludeModuleRecord) (path : String),
      s.main.validateChain chain = .ok parents → parents.length ≤ scriptIncludeMaxDepth →
      ctx.resolve requested (parents.getLast?.bind IncludeModuleRecord.dirPath) = .ok path →
      endsInJs path = true → (∃ record ∈ parents, record.cacheKey = ctx.cacheKey path) →
      ∃ cycle, s.main.ladder ctx requested chain = .refused (.circular cycle) := by
  intro s
  have sound : Sound ctx s := run_sound (initial_sound ctx) acts
  have start : Chained (initial ctx : IncludeRun Exports) := ⟨nofun, nofun⟩
  have chained : Chained s := run_chained start (initial_sound ctx) facades
  exact ⟨started_acyclic sound chained, fun waiter module waits => waits_started_or_joined sound waits,
    fun requested chain parents path => ladder_circular⟩

def flatFiles : ScriptFsContext where
  resolve requested _ := .ok (describeRequest requested)
  cacheKey := id
  dirname _ := ""
  displayName := id
  marker _ := false
  scriptPath := "main.js"
  scriptDir := some ""

def crossed : List (Act Unit) :=
  [.call [.root] (.text "a.js") true, .call [.root] (.text "b.js") true, .receive, .receive,
    .complete "a.js" (.text "" 0), .complete "b.js" (.text "" 0),
    .tick, .tick, .tick, .tick, .tick, .tick, .tick, .tick, .deliver, .deliver,
    .call [.root, .minted 1] (.text "b.js") true, .call [.root, .minted 2] (.text "a.js") true,
    .receive, .tick, .receive, .tick, .deliver, .deliver]

theorem crossed_facades : (initial flatFiles).ThroughFacades flatFiles crossed := by
  refine ⟨by decide, by decide, trivial, trivial, trivial, trivial, trivial, trivial, trivial, trivial, trivial,
    trivial, trivial, trivial, trivial, trivial, ?_, ?_, trivial, trivial, trivial, trivial, trivial, trivial,
    trivial⟩
  · decide
  · decide

theorem wait_cycles_join_crossed :
    ¬ Relation.TransGen (((initial flatFiles).run flatFiles crossed).WaitsVia .source) (.minted 1)
      (.minted 1) :=
  (wait_cycles_join flatFiles crossed crossed_facades).1 (.minted 1)

/-- Neither include is on the other's chain: each module waits for the other. -/
theorem crossed_wait_for_each_other :
    (initial flatFiles).ThroughFacades flatFiles crossed ∧
      Relation.TransGen ((initial flatFiles).run flatFiles crossed).Waits (.minted 1) (.minted 1) := by
  have first : ((initial flatFiles).run flatFiles crossed).loader.modules.get? (.minted 1) =
      some ⟨[.root, .minted 1], .running⟩ := by decide
  have second : ((initial flatFiles).run flatFiles crossed).loader.modules.get? (.minted 2) =
      some ⟨[.root, .minted 2], .running⟩ := by decide
  have there : ((initial flatFiles).run flatFiles crossed).calls[2]? =
      some ⟨[.root, .minted 1], .text "b.js", true, .awaiting (.minted 2) .cached⟩ := by decide
  have back : ((initial flatFiles).run flatFiles crossed).calls[3]? =
      some ⟨[.root, .minted 2], .text "a.js", true, .awaiting (.minted 1) .cached⟩ := by decide
  refine ⟨crossed_facades, .tail (.single (b := .minted 2) ?_) ?_⟩
  · exact ⟨.cached, ⟨_, first⟩, ⟨_, second⟩, 2, _, there, rfl, rfl, rfl⟩
  · exact ⟨.cached, ⟨_, second⟩, ⟨_, first⟩, 3, _, back, rfl, rfl, rfl⟩

end NexTerminal.Scripts.Include
