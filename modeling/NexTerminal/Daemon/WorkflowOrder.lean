import NexTerminal.Daemon.WorkflowQueue
import NexTerminal.Library.Holders
import Mathlib.Data.List.Perm.Subperm

namespace NexTerminal.Daemon.ServiceWorkflowQueue

open Library

variable {localeCompare : String → String → Int} {queue : ServiceWorkflowQueue}

structure Sound (queue : ServiceWorkflowQueue) : Prop where
  /-- A tail belongs to the latest operation with its key. -/
  tail : ∀ id i, queue.queues.get? id = some i →
    (∃ workflow, queue.operations[i]? = some workflow ∧ id ∈ workflow.keys) ∧
    ∀ (j : Nat) (workflow : Workflow), queue.operations[j]? = some workflow → id ∈ workflow.keys → j ≤ i
  untailed : ∀ id, queue.queues.get? id = none → ∀ (j : Nat) (workflow : Workflow),
    queue.operations[j]? = some workflow → id ∈ workflow.keys → queue.finished j = true
  /-- An operation waits for every earlier one with a key of its own, or for one after that. -/
  chained : ∀ (j : Nat) (later : Workflow), queue.operations[j]? = some later → ∀ id ∈ later.keys,
    ∀ (i : Nat) (earlier : Workflow), i < j → queue.operations[i]? = some earlier → id ∈ earlier.keys →
      queue.finished i = true ∨ ∃ p ∈ later.previous, i ≤ p ∧
        ∃ between, queue.operations[p]? = some between ∧ id ∈ between.keys
  previous : ∀ (j : Nat) (later : Workflow), queue.operations[j]? = some later → ∀ p ∈ later.previous,
    p < j ∧ ∃ earlier, queue.operations[p]? = some earlier ∧ ∃ id ∈ later.keys, id ∈ earlier.keys
  begun : ∀ (j : Nat) (later : Workflow), queue.operations[j]? = some later → later.stage ≠ .waiting →
    ∀ p ∈ later.previous, queue.finished p = true
  called : ∀ j, j ∈ queue.calls ↔ ∃ workflow, queue.operations[j]? = some workflow ∧
    workflow.stage ≠ .waiting
  once : queue.calls.Nodup
  accepted : ∀ i, i ∈ queue.accepted ↔ ∃ workflow, queue.operations[i]? = some workflow ∧
    workflow.stage ≠ .removed
  few : queue.accepted.items.length ≤ maxServiceWorkflowOperations
  drains : ∀ drain ∈ queue.drains, (∀ i, i < drain.before → queue.finished i = true ∨ i ∈ drain.awaited) ∧
    (drain.resolved = true → ∀ i ∈ drain.awaited, queue.finished i = true)

theorem Sound.ordered (sound : queue.Sound) {i j : Nat} {earlier later : Workflow} {id : String} (pre : i < j)
    (at_i : queue.operations[i]? = some earlier) (at_j : queue.operations[j]? = some later) (own : id ∈ earlier.keys)
    (shared : id ∈ later.keys) (begun : later.stage ≠ .waiting) : queue.finished i = true := by
  induction j using Nat.strongRecOn generalizing later with
  | ind j ih =>
    obtain finished | ⟨p, waited, reaches, between, at_p, held⟩ :=
      sound.chained j later at_j id shared i earlier pre at_i own
    · exact finished
    · have finished := sound.begun j later at_j begun p waited
      obtain same | after := Nat.eq_or_lt_of_le reaches
      · exact same ▸ finished
      · refine ih p (sound.previous j later at_j p waited).1 after at_p held ?_
        intro waiting
        simp [ServiceWorkflowQueue.finished, stage, at_p, waiting, WorkflowStage.finished] at finished

theorem finished_iff {i : Nat} : queue.finished i = true ↔
    ∃ workflow, queue.operations[i]? = some workflow ∧ workflow.stage.finished = true := by
  simp [ServiceWorkflowQueue.finished, stage, Option.any_eq_true]

/-- An operation goes on to a later stage, and where it is done with, its keys and its place are given up. -/
structure Moved (queue next : ServiceWorkflowQueue) (i : Nat) (workflow : Workflow) (stage : WorkflowStage) : Prop where
  at_i : queue.operations[i]? = some workflow
  live : workflow.stage ≠ .removed
  onward : workflow.stage.finished = true → stage.finished = true
  begun : stage ≠ .waiting
  ready : workflow.stage = .waiting → ∀ p ∈ workflow.previous, queue.finished p = true
  operations : next.operations = queue.operations.modify i fun held => { held with stage }
  calls : next.calls = if workflow.stage = .waiting then queue.calls ++ [i] else queue.calls
  drains : next.drains = queue.drains
  queues : ∀ id, next.queues.get? id = queue.queues.get? id ∨
    next.queues.get? id = none ∧ queue.queues.get? id = some i ∧ workflow.stage.finished = true
  accepted : ∀ k, k ∈ next.accepted ↔ k ∈ queue.accepted ∧ (k = i → stage ≠ .removed)
  few : next.accepted.items.length ≤ queue.accepted.items.length

namespace Moved

variable {next : ServiceWorkflowQueue} {i : Nat} {workflow : Workflow} {stage : WorkflowStage}
  (moved : queue.Moved next i workflow stage)
include moved

theorem old {k : Nat} {held : Workflow} (hit : next.operations[k]? = some held) :
    ∃ was, queue.operations[k]? = some was ∧ held.keys = was.keys ∧ held.previous = was.previous ∧
      held.stage = if i = k then stage else was.stage := by
  rw [moved.operations] at hit
  obtain ⟨was, pre, rfl⟩ := exists_of_modify hit
  refine ⟨was, pre, ?_⟩
  split <;> exact ⟨rfl, rfl, rfl⟩

theorem new {k : Nat} {was : Workflow} (pre : queue.operations[k]? = some was) :
    ∃ held, next.operations[k]? = some held ∧ held.keys = was.keys ∧
      held.stage = if i = k then stage else was.stage := by
  rw [moved.operations]
  refine ⟨_, modify_found pre _, ?_⟩
  split <;> exact ⟨rfl, rfl⟩

theorem still {k : Nat} (was : queue.finished k = true) : next.finished k = true := by
  obtain ⟨pre, at_k, finished⟩ := finished_iff.mp was
  obtain ⟨held, now, _, same⟩ := moved.new at_k
  refine finished_iff.mpr ⟨held, now, ?_⟩
  rw [same]
  split
  · rename_i here
    subst here
    obtain rfl := Option.mem_unique moved.at_i at_k
    exact moved.onward finished
  · exact finished

theorem tail (sound : queue.Sound) (id : String) (k : Nat) (tail : next.queues.get? id = some k) :
    (∃ workflow, next.operations[k]? = some workflow ∧ id ∈ workflow.keys) ∧
      ∀ (j : Nat) (workflow : Workflow), next.operations[j]? = some workflow →
        id ∈ workflow.keys → j ≤ k := by
  obtain same | ⟨gone, _⟩ := moved.queues id
  · obtain ⟨⟨was, at_k, own⟩, latest⟩ := sound.tail id k (same ▸ tail)
    obtain ⟨held, now, keys, _⟩ := moved.new at_k
    refine ⟨⟨held, now, keys ▸ own⟩, fun j other at_j shared => ?_⟩
    obtain ⟨pre, at_j, keys, _⟩ := moved.old at_j
    exact latest j pre at_j (keys ▸ shared)
  · rw [gone] at tail
    cases tail

theorem untailed (sound : queue.Sound) (id : String) (absent : next.queues.get? id = none) (j : Nat) (other : Workflow)
    (at_j : next.operations[j]? = some other) (shared : id ∈ other.keys) : next.finished j = true := by
  obtain ⟨pre, at_j, keys, _⟩ := moved.old at_j
  rw [keys] at shared
  obtain same | ⟨_, tail, finished⟩ := moved.queues id
  · exact moved.still (sound.untailed id (same ▸ absent) j pre at_j shared)
  · obtain ⟨⟨was, was_at, own⟩, latest⟩ := sound.tail id i tail
    obtain rfl := Option.mem_unique moved.at_i was_at
    obtain same | earlier := Nat.eq_or_lt_of_le (latest j pre at_j shared)
    · exact moved.still (same ▸ finished_iff.mpr ⟨workflow, moved.at_i, finished⟩)
    · refine moved.still (sound.ordered earlier at_j moved.at_i shared own fun waiting => ?_)
      rw [waiting] at finished
      cases finished

theorem chained (sound : queue.Sound) (j : Nat) (later : Workflow)
    (at_j : next.operations[j]? = some later) (id : String)
    (own : id ∈ later.keys) (k : Nat) (earlier : Workflow) (pre : k < j) (at_k : next.operations[k]? = some earlier)
    (shared : id ∈ earlier.keys) : next.finished k = true ∨ ∃ p ∈ later.previous, k ≤ p ∧
      ∃ between, next.operations[p]? = some between ∧ id ∈ between.keys := by
  obtain ⟨was, at_j, keys, waits, _⟩ := moved.old at_j
  obtain ⟨first, at_k, first_keys, _⟩ := moved.old at_k
  obtain finished | ⟨p, waited, reaches, between, at_p, held⟩ :=
    sound.chained j was at_j id (keys ▸ own) k first pre at_k (first_keys ▸ shared)
  · exact .inl (moved.still finished)
  · obtain ⟨now, at_p, now_keys, _⟩ := moved.new at_p
    exact .inr ⟨p, waits ▸ waited, reaches, now, at_p, now_keys ▸ held⟩

theorem previous (sound : queue.Sound) (j : Nat) (later : Workflow) (at_j : next.operations[j]? = some later) (p : Nat)
    (waited : p ∈ later.previous) :
    p < j ∧ ∃ earlier, next.operations[p]? = some earlier ∧ ∃ id ∈ later.keys, id ∈ earlier.keys := by
  obtain ⟨was, at_j, keys, waits, _⟩ := moved.old at_j
  obtain ⟨pre, earlier, at_p, id, own, shared⟩ := sound.previous j was at_j p (waits ▸ waited)
  obtain ⟨now, at_p, now_keys, _⟩ := moved.new at_p
  exact ⟨pre, now, at_p, id, keys ▸ own, now_keys ▸ shared⟩

theorem started (sound : queue.Sound) (j : Nat) (later : Workflow) (at_j : next.operations[j]? = some later)
    (started : later.stage ≠ .waiting) (p : Nat) (waited : p ∈ later.previous) : next.finished p = true := by
  obtain ⟨was, at_j, _, waits, same⟩ := moved.old at_j
  rw [waits] at waited
  rw [same] at started
  split at started
  · rename_i here
    subst here
    obtain rfl := Option.mem_unique moved.at_i at_j
    by_cases waiting : workflow.stage = .waiting
    · exact moved.still (moved.ready waiting p waited)
    · exact moved.still (sound.begun i workflow at_j waiting p waited)
  · exact moved.still (sound.begun j was at_j started p waited)

theorem called (sound : queue.Sound) (j : Nat) :
    j ∈ next.calls ↔ ∃ workflow, next.operations[j]? = some workflow ∧ workflow.stage ≠ .waiting := by
  rw [moved.calls]
  by_cases here : i = j
  · subst here
    obtain ⟨held, now, _, same⟩ := moved.new moved.at_i
    rw [if_pos rfl] at same
    refine iff_of_true ?_ ⟨held, now, same ▸ moved.begun⟩
    split
    · exact List.mem_append_right _ List.mem_cons_self
    · rename_i started
      exact (sound.called i).mpr ⟨workflow, moved.at_i, started⟩
  · have unchanged : j ∈ (if workflow.stage = .waiting then queue.calls ++ [i] else queue.calls) ↔
      j ∈ queue.calls := by
      split
      · simp [Ne.symm here]
      · exact Iff.rfl
    rw [unchanged, sound.called j]
    constructor
    · rintro ⟨was, at_j, started⟩
      obtain ⟨held, now, _, same⟩ := moved.new at_j
      exact ⟨held, now, by rwa [same, if_neg here]⟩
    · rintro ⟨held, at_j, started⟩
      obtain ⟨was, at_j, _, _, same⟩ := moved.old at_j
      rw [same, if_neg here] at started
      exact ⟨was, at_j, started⟩

theorem once (sound : queue.Sound) : next.calls.Nodup := by
  rw [moved.calls]
  split
  · rename_i waiting
    refine List.nodup_append.mpr ⟨sound.once, List.nodup_singleton i, ?_⟩
    intro called mem other single same
    rw [List.mem_singleton] at single
    subst single same
    obtain ⟨held, at_j, started⟩ := (sound.called called).mp mem
    obtain rfl := Option.mem_unique moved.at_i at_j
    exact started waiting
  · exact sound.once

theorem taken (sound : queue.Sound) (k : Nat) :
    k ∈ next.accepted ↔ ∃ workflow, next.operations[k]? = some workflow ∧ workflow.stage ≠ .removed := by
  rw [moved.accepted, sound.accepted]
  constructor
  · rintro ⟨⟨was, at_k, kept⟩, other⟩
    obtain ⟨held, now, _, same⟩ := moved.new at_k
    refine ⟨held, now, ?_⟩
    rw [same]
    split
    · rename_i here
      exact other here.symm
    · exact kept
  · rintro ⟨held, at_k, kept⟩
    obtain ⟨was, at_k, _, _, same⟩ := moved.old at_k
    rw [same] at kept
    by_cases here : i = k
    · subst here
      rw [if_pos rfl] at kept
      exact ⟨⟨workflow, moved.at_i, moved.live⟩, fun _ => kept⟩
    · rw [if_neg here] at kept
      exact ⟨⟨was, at_k, kept⟩, fun same => absurd same.symm here⟩

theorem sound (sound : queue.Sound) : next.Sound where
  tail := moved.tail sound
  untailed := moved.untailed sound
  chained := moved.chained sound
  previous := moved.previous sound
  begun := moved.started sound
  called := moved.called sound
  once := moved.once sound
  accepted := moved.taken sound
  few := Nat.le_trans moved.few sound.few
  drains := by
    intro drain mem
    rw [moved.drains] at mem
    obtain ⟨covered, resolved⟩ := sound.drains drain mem
    exact ⟨fun k pre => (covered k pre).imp_left moved.still,
      fun done k awaited => moved.still (resolved done k awaited)⟩

end Moved

theorem get?_setAll (queues : SeqMap String Nat) (keys : List String) (op : Nat) (id : String) :
    (keys.foldl (fun queues id => queues.set id op) queues).get? id =
      if id ∈ keys then some op else queues.get? id := by
  induction keys generalizing queues with
  | nil => simp
  | cons key rest ih =>
    rw [List.foldl_cons, ih, SeqMap.get?_set]
    by_cases here : key = id
    · simp [here]
    · simp [here, Ne.symm here]

theorem get?_forgotten (queues : SeqMap String Nat) (keys : List String) (op : Nat) (id : String) :
    (keys.foldl (fun queues id => if queues.get? id = some op then queues.erase id else queues) queues).get? id =
      if id ∈ keys ∧ queues.get? id = some op then none else queues.get? id := by
  induction keys generalizing queues with
  | nil => simp
  | cons key rest ih =>
    rw [List.foldl_cons, ih]
    by_cases here : key = id
    · subst here
      by_cases held : queues.get? key = some op
      · rw [if_pos held, SeqMap.get?_erase, if_pos rfl]
        simp [held]
      · simp [held]
    · have same : (if queues.get? key = some op then queues.erase key else queues).get? id =
        queues.get? id := by
        split
        · rw [SeqMap.get?_erase, if_neg here]
        · rfl
      rw [same]
      simp [Ne.symm here]

theorem Sound.enqueueMany (sound : queue.Sound) (localeCompare : String → String → Int) (ids : List String) :
    (queue.enqueueMany localeCompare ids).1.Sound := by
  unfold ServiceWorkflowQueue.enqueueMany
  split
  · exact sound
  split
  · exact sound
  rename_i _ full
  have room : queue.accepted.items.length < maxServiceWorkflowOperations := Nat.lt_of_not_le full
  have inside {k : Nat} {held : Workflow} (hit : queue.operations[k]? = some held) : k < queue.operations.length :=
    (List.getElem?_eq_some_iff.mp hit).1
  have fresh : queue.operations.length ∉ queue.accepted := by
    rw [sound.accepted]
    rintro ⟨held, hit, _⟩
    exact absurd (inside hit) (Nat.lt_irrefl _)
  have still (k : Nat) (was : queue.finished k = true) (more : List Workflow) :
      ((queue.operations ++ more)[k]?.map Workflow.stage).any WorkflowStage.finished = true := by
    obtain ⟨held, hit, finished⟩ := finished_iff.mp was
    rw [getElem?_kept hit more]
    exact finished
  refine ⟨?_, ?_, ?_, ?_, ?_, ?_, sound.once, ?_, ?_, ?_⟩
  · intro id k tail
    simp only [get?_setAll] at tail
    split at tail
    · rename_i own
      obtain rfl := Option.some.inj tail
      refine ⟨⟨_, List.getElem?_concat_length, own⟩, fun j other at_j _ => ?_⟩
      obtain pre | ⟨rfl, _⟩ := getElem?_snoc at_j
      · exact Nat.le_of_lt (inside pre)
      · exact Nat.le_refl _
    · rename_i unheld
      obtain ⟨⟨held, at_k, own⟩, latest⟩ := sound.tail id k tail
      refine ⟨⟨held, getElem?_kept at_k _, own⟩, fun j other at_j shared => ?_⟩
      obtain pre | ⟨_, rfl⟩ := getElem?_snoc at_j
      · exact latest j other pre shared
      · exact absurd shared unheld
  · intro id absent j other at_j shared
    simp only [get?_setAll] at absent
    split at absent
    · cases absent
    · rename_i unheld
      obtain pre | ⟨_, rfl⟩ := getElem?_snoc at_j
      · exact still j (sound.untailed id absent j other pre shared) _
      · exact absurd shared unheld
  · intro j later at_j id own k earlier pre at_k shared
    obtain ⟨at_k, -⟩ : queue.operations[k]? = some earlier ∧ k < queue.operations.length := by
      obtain hit | ⟨rfl, _⟩ := getElem?_snoc at_k
      · exact ⟨hit, inside hit⟩
      · have := (List.getElem?_eq_some_iff.mp at_j).1
        simp only [List.length_append, List.length_singleton] at this
        omega
    obtain hit | ⟨rfl, rfl⟩ := getElem?_snoc at_j
    · obtain finished | ⟨p, waited, reaches, between, at_p, held⟩ :=
        sound.chained j later hit id own k earlier pre at_k shared
      · exact .inl (still k finished _)
      · exact .inr ⟨p, waited, reaches, between, getElem?_kept at_p _, held⟩
    · cases tail : queue.queues.get? id with
      | none => exact .inl (still k (sound.untailed id tail k earlier at_k shared) _)
      | some p =>
        obtain ⟨⟨held, at_p, kept⟩, latest⟩ := sound.tail id p tail
        exact .inr ⟨p, List.mem_filterMap.mpr ⟨id, own, tail⟩, latest k earlier at_k shared, held,
          getElem?_kept at_p _, kept⟩
  · intro j later at_j p waited
    obtain hit | ⟨rfl, rfl⟩ := getElem?_snoc at_j
    · obtain ⟨pre, earlier, at_p, id, own, shared⟩ := sound.previous j later hit p waited
      exact ⟨pre, earlier, getElem?_kept at_p _, id, own, shared⟩
    · obtain ⟨id, own, tail⟩ := List.mem_filterMap.mp waited
      obtain ⟨⟨held, at_p, kept⟩, _⟩ := sound.tail id p tail
      exact ⟨inside at_p, held, getElem?_kept at_p _, id, own, kept⟩
  · intro j later at_j started p waited
    obtain hit | ⟨rfl, rfl⟩ := getElem?_snoc at_j
    · exact still p (sound.begun j later hit started p waited) _
    · exact absurd rfl started
  · intro j
    refine (sound.called j).trans ⟨?_, ?_⟩
    · rintro ⟨held, hit, started⟩
      exact ⟨held, getElem?_kept hit _, started⟩
    · rintro ⟨held, at_j, started⟩
      obtain hit | ⟨rfl, rfl⟩ := getElem?_snoc at_j
      · exact ⟨held, hit, started⟩
      · exact absurd rfl started
  · intro k
    rw [SeqSet.mem_add, sound.accepted]
    constructor
    · rintro (⟨held, hit, kept⟩ | rfl)
      · exact ⟨held, getElem?_kept hit _, kept⟩
      · exact ⟨_, List.getElem?_concat_length, by simp⟩
    · rintro ⟨held, at_k, kept⟩
      obtain hit | ⟨rfl, rfl⟩ := getElem?_snoc at_k
      · exact .inl ⟨held, hit, kept⟩
      · exact .inr rfl
  · change (queue.accepted.add queue.operations.length).items.length ≤ _
    have unknown : queue.operations.length ∉ queue.accepted.items := fresh
    rw [SeqSet.add, dif_neg unknown, List.length_append, List.length_singleton]
    exact room
  · intro drain mem
    obtain ⟨covered, resolved⟩ := sound.drains drain mem
    exact ⟨fun k pre => (covered k pre).imp_left fun finished => still k finished _,
      fun done k awaited => still k (resolved done k awaited) _⟩

theorem Sound.drain (sound : queue.Sound) : queue.drain.Sound := by
  refine { sound with drains := fun held mem => ?_ }
  obtain pre | new := List.mem_append.mp mem
  · exact sound.drains held pre
  · obtain rfl := List.mem_singleton.mp new
    refine ⟨fun k below => ?_, nofun⟩
    have hit := List.getElem?_eq_getElem below
    by_cases gone : queue.operations[k].stage = .removed
    · exact .inl (finished_iff.mpr ⟨_, hit, by rw [gone]; rfl⟩)
    · exact .inr (SeqSet.mem_items.mpr ((sound.accepted k).mpr ⟨_, hit, gone⟩))

theorem step_sound (sound : queue.Sound) (act : WorkflowAct) : (queue.step localeCompare act).Sound := by
  cases act with
  | close => exact { sound with }
  | enqueue id => exact sound.enqueueMany localeCompare [id]
  | enqueueMany ids => exact sound.enqueueMany localeCompare ids
  | read id => exact sound.enqueueMany localeCompare [id]
  | readMany ids => exact sound.enqueueMany localeCompare ids
  | drain => exact sound.drain
  | finish op resolved =>
    simp only [step]
    split
    · rename_i running
      obtain ⟨workflow, hit, running⟩ := Option.map_eq_some_iff.mp running
      have moved : queue.Moved (queue.setStage op (.ended resolved)) op workflow (.ended resolved) :=
        ⟨hit, by simp [running], by simp [running, WorkflowStage.finished], nofun, by simp [running], rfl,
          by simp [running, setStage], rfl, fun _ => .inl rfl, fun k =>
            (and_iff_left fun _ => nofun).symm, Nat.le_refl _⟩
      exact moved.sound sound
    · exact sound
  | start op =>
    simp only [step]
    split
    · rename_i keys prev hit
      split
      · rename_i ready
        have moved :
          queue.Moved { queue.setStage op .running with calls := queue.calls ++ [op] } op
            ⟨keys, prev, .waiting⟩ .running :=
          ⟨hit, nofun, nofun, nofun, fun _ p waited => List.all_eq_true.mp ready p waited, rfl, rfl, rfl,
            fun _ => .inl rfl, fun k => (and_iff_left fun _ => nofun).symm, Nat.le_refl _⟩
        exact moved.sound sound
      · exact sound
    · exact sound
  | settle op =>
    simp only [step]
    split
    · rename_i resolved ended
      obtain ⟨workflow, hit, ended⟩ := Option.map_eq_some_iff.mp ended
      have moved : queue.Moved (queue.setStage op .settled) op workflow .settled :=
        ⟨hit, by simp [ended], fun _ => rfl, nofun, by simp [ended], rfl, by simp [ended, setStage], rfl,
          fun _ => .inl rfl, fun k => (and_iff_left fun _ => nofun).symm, Nat.le_refl _⟩
      exact moved.sound sound
    · exact sound
  | remove op =>
    simp only [step]
    split
    · rename_i keys prev hit
      have moved : queue.Moved ((queue.setStage op .removed).forget op keys) op
          ⟨keys, prev, .settled⟩ .removed := by
        refine ⟨hit, nofun, fun _ => rfl, nofun, nofun, rfl, rfl, rfl, ?_, ?_, ?_⟩
        · intro id
          simp only [forget, get?_forgotten]
          split
          · rename_i dropped
            exact .inr ⟨rfl, dropped.2, rfl⟩
          · exact .inl rfl
        · intro k
          rw [forget, SeqSet.mem_erase]
          exact and_congr_right fun _ => ⟨fun ne same => absurd same ne, fun ne same => ne same rfl⟩
        · exact List.length_filter_le _ _
      exact moved.sound sound
    · exact sound
  | drained drain =>
    simp only [step]
    split
    · rename_i pre awaited hit
      split
      · rename_i ready
        refine { sound with drains := fun held mem => ?_ }
        obtain ⟨k, at_k⟩ := List.mem_iff_getElem?.mp mem
        obtain ⟨was, was_at, rfl⟩ := exists_of_modify at_k
        obtain ⟨covered, resolved⟩ := sound.drains was (List.mem_of_getElem? was_at)
        split
        · rename_i here
          subst here
          obtain rfl := Option.mem_unique hit was_at
          exact ⟨covered, fun _ k waited => List.all_eq_true.mp ready k waited⟩
        · exact ⟨covered, resolved⟩
      · exact sound
    · exact sound

theorem run_sound (localeCompare : String → String → Int) (sound : queue.Sound) (acts : List WorkflowAct) :
    (queue.run localeCompare acts).Sound := by
  induction acts generalizing queue with
  | nil => exact sound
  | cons act rest ih => exact ih (step_sound sound act)

theorem initial_sound : ({} : ServiceWorkflowQueue).Sound := by
  refine ⟨nofun, nofun, nofun, nofun, nofun, ?_, List.nodup_nil, ?_, Nat.zero_le _, nofun⟩
  · exact fun j => iff_of_false nofun nofun
  · exact fun i => iff_of_false nofun nofun

/-- Nothing is due: every act of the host's own changes nothing. -/
def Quiet (localeCompare : String → String → Int) (queue : ServiceWorkflowQueue) : Prop :=
  ∀ act : WorkflowAct, act.internal = true → queue.step localeCompare act = queue

def pendingWork (queue : ServiceWorkflowQueue) : Nat :=
  (queue.operations.map fun workflow => workflow.stage.left).sum +
    (queue.drains.map fun drain => if drain.resolved then 0 else 1).sum

theorem stage_of_setStage {op : Nat} {workflow : Workflow} (hit : queue.operations[op]? = some workflow)
    (stage : WorkflowStage) : (queue.setStage op stage).stage op = some stage := by
  simp [setStage, ServiceWorkflowQueue.stage, modify_found hit]

/-- While nothing is due, what waits has an earlier operation with a key of its own. -/
theorem Sound.quiet (sound : queue.Sound) (quiet : queue.Quiet localeCompare) {j : Nat} {later : Workflow}
    (at_j : queue.operations[j]? = some later) (waiting : later.stage = .waiting) :
    ∃ (i : Nat) (earlier : Workflow), i < j ∧ queue.operations[i]? = some earlier ∧
      (∃ id ∈ later.keys, id ∈ earlier.keys) ∧ earlier.stage.complete = false := by
  have held_up : ∃ p ∈ later.previous, queue.finished p = false := by
    by_contra all
    push Not at all
    have ready : later.previous.all queue.finished = true :=
      List.all_eq_true.mpr fun p waited => by simpa using all p waited
    have same := congrArg (fun next => next.stage j) (quiet (.start j) rfl)
    obtain ⟨keys, prev, stage⟩ := later
    obtain rfl : stage = .waiting := waiting
    simp only [step, at_j, if_pos ready] at same
    exact absurd ((stage_of_setStage at_j .running).symm.trans
      (same.trans (by rw [ServiceWorkflowQueue.stage, at_j, Option.map_some]))) (by simp)
  obtain ⟨p, waited, unfinished⟩ := held_up
  obtain ⟨pre, earlier, at_p, shared⟩ := sound.previous j later at_j p waited
  refine ⟨p, earlier, pre, at_p, shared, ?_⟩
  cases reached : earlier.stage with
  | waiting | running => rfl
  | ended resolved =>
    have same := congrArg (fun next => next.stage p) (quiet (.settle p) rfl)
    have now : queue.stage p = some (.ended resolved) := by rw [stage, at_p, Option.map_some, reached]
    simp only [step, now] at same
    exact absurd ((stage_of_setStage at_p .settled).symm.trans same) (by simp)
  | settled | removed =>
    exact absurd (finished_iff.mpr ⟨earlier, at_p, by rw [reached]; rfl⟩) (by simp [unfinished])

theorem Sound.someone_runs (sound : queue.Sound) (quiet : queue.Quiet localeCompare) {j : Nat} {later : Workflow}
    (at_j : queue.operations[j]? = some later) (waiting : later.stage = .waiting) :
    ∃ (i : Nat) (earlier : Workflow), i < j ∧ queue.operations[i]? = some earlier ∧ earlier.stage = .running := by
  induction j using Nat.strongRecOn generalizing later with
  | ind j ih =>
    obtain ⟨i, earlier, pre, at_i, _, incomplete⟩ := sound.quiet quiet at_j waiting
    cases reached : earlier.stage with
    | waiting =>
      obtain ⟨k, first, further, hit⟩ := ih i pre at_i reached
      exact ⟨k, first, Nat.lt_trans further pre, hit⟩
    | running => exact ⟨i, earlier, pre, at_i, reached⟩
    | ended resolved | settled | removed => rw [reached] at incomplete; cases incomplete

theorem setStage_pendingWork {op : Nat} {workflow : Workflow}
    (hit : queue.operations[op]? = some workflow) (stage : WorkflowStage) {next : ServiceWorkflowQueue}
    (less : stage.left < workflow.stage.left)
    (operations : next.operations = (queue.setStage op stage).operations)
    (drains : next.drains = queue.drains) : next.pendingWork < queue.pendingWork := by
  have moved := sum_modify hit (fun held => { held with stage }) fun held => held.stage.left
  change _ = _ + stage.left at moved
  simp only [pendingWork, operations, drains, setStage]
  omega

/-- Each act of the host's own that changes something leaves less to be done. -/
theorem internal_less (act : WorkflowAct) (internal : act.internal = true) :
    queue.step localeCompare act = queue ∨ (queue.step localeCompare act).pendingWork < queue.pendingWork := by
  cases act with
  | close | enqueue | enqueueMany | read | readMany | drain | finish => cases internal
  | start op =>
    simp only [step]
    split
    · rename_i keys prev hit
      split
      · exact .inr (setStage_pendingWork hit .running (Nat.lt_succ_self 3) rfl rfl)
      · exact .inl rfl
    · exact .inl rfl
  | settle op =>
    simp only [step]
    split
    · rename_i resolved ended
      obtain ⟨workflow, hit, ended⟩ := Option.map_eq_some_iff.mp ended
      exact .inr (setStage_pendingWork hit .settled (by rw [ended]; exact Nat.lt_succ_self 1) rfl rfl)
    · exact .inl rfl
  | remove op =>
    simp only [step]
    split
    · rename_i keys prev hit
      exact .inr (setStage_pendingWork hit .removed (Nat.lt_succ_self 0) rfl rfl)
    · exact .inl rfl
  | drained drain =>
    simp only [step]
    split
    · rename_i pre awaited hit
      split
      · have moved := sum_modify hit (fun held => { held with resolved := true })
          fun held => if held.resolved then 0 else 1
        simp only [Bool.false_eq_true, if_false, if_true] at moved
        simp only [pendingWork]
        exact .inr (by omega)
      · exact .inl rfl
    · exact .inl rfl

def Busy (localeCompare : String → String → Int) : ServiceWorkflowQueue → List WorkflowAct → Prop
  | _, [] => True
  | queue, act :: rest => act.internal = true ∧ queue.step localeCompare act ≠ queue ∧
    Busy localeCompare (queue.step localeCompare act) rest

theorem busy_ends {acts : List WorkflowAct} (busy : Busy localeCompare queue acts) :
    acts.length ≤ queue.pendingWork := by
  induction acts generalizing queue with
  | nil => exact Nat.zero_le _
  | cons act rest ih =>
    obtain ⟨internal, changed, later⟩ := busy
    have shorter := (@internal_less localeCompare queue act internal).resolve_left changed
    have bounded := ih later
    rw [List.length_cons]
    omega

theorem finished_complete {i : Nat} (finished : queue.finished i = true) :
    ∃ workflow, queue.operations[i]? = some workflow ∧ workflow.stage.complete = true := by
  obtain ⟨workflow, hit, done⟩ := finished_iff.mp finished
  refine ⟨workflow, hit, ?_⟩
  cases reached : workflow.stage with
  | waiting | running | ended => rw [reached] at done; cases done
  | settled | removed => rfl

theorem mem_canonicalKeys (localeCompare : String → String → Int) (ids : List String) (id : String) :
    id ∈ canonicalKeys localeCompare ids ↔ id ∈ ids := by
  rw [canonicalKeys, List.mem_mergeSort, SeqSet.mem_items, SeqSet.mem_ofList]

theorem keys_kept {i : Nat} {workflow : Workflow} (at_i : queue.operations[i]? = some workflow) (act : WorkflowAct) :
    ∃ held, (queue.step localeCompare act).operations[i]? = some held ∧ held.keys = workflow.keys := by
  have added (ids : List String) : ∃ held,
      (queue.enqueueMany localeCompare ids).1.operations[i]? = some held ∧ held.keys = workflow.keys := by
    unfold ServiceWorkflowQueue.enqueueMany
    split_ifs
    · exact ⟨workflow, at_i, rfl⟩
    · exact ⟨workflow, at_i, rfl⟩
    · exact ⟨workflow, getElem?_kept at_i _, rfl⟩
  have moved (k : Nat) (stage : WorkflowStage) : ∃ held,
      (queue.setStage k stage).operations[i]? = some held ∧ held.keys = workflow.keys := by
    refine ⟨_, modify_found at_i _, ?_⟩
    split <;> rfl
  have same : ∃ held, queue.operations[i]? = some held ∧ held.keys = workflow.keys := ⟨workflow, at_i, rfl⟩
  cases act with
  | close | drain => exact same
  | enqueue id | read id => exact added [id]
  | enqueueMany ids | readMany ids => exact added ids
  | finish | start | settle | remove | drained =>
    simp only [step]
    repeat' split
    all_goals first | exact same | exact moved _ _

/-- What a submission answered as accepted added is new, is to run under the submitted keys, and is never lost. -/
def Taken (localeCompare : String → String → Int) (queue : ServiceWorkflowQueue) (ids : List String)
    (submitted : ServiceWorkflowQueue × Submission) : Prop :=
  ∀ operation, submitted.2 = .accepted operation → operation = queue.operations.length ∧
    ∀ acts, ∃ workflow, (submitted.1.run localeCompare acts).operations[operation]? = some workflow ∧
      ∀ id, id ∈ workflow.keys ↔ id ∈ ids

theorem keys_run {i : Nat} {ids : List String} (acts : List WorkflowAct)
    (held : ∃ workflow, queue.operations[i]? = some workflow ∧ ∀ id, id ∈ workflow.keys ↔ id ∈ ids) :
    ∃ workflow, (queue.run localeCompare acts).operations[i]? = some workflow ∧
      ∀ id, id ∈ workflow.keys ↔ id ∈ ids := by
  induction acts generalizing queue with
  | nil => exact held
  | cons act rest ih =>
    obtain ⟨workflow, at_i, keys⟩ := held
    obtain ⟨next, now, same⟩ := @keys_kept localeCompare queue _ _ at_i act
    exact ih ⟨next, now, same ▸ keys⟩

theorem enqueueMany_taken (localeCompare : String → String → Int) (queue : ServiceWorkflowQueue)
    (ids : List String) :
    queue.Taken localeCompare ids (queue.enqueueMany localeCompare ids) := by
  intro op answer
  unfold ServiceWorkflowQueue.enqueueMany at answer ⊢
  split_ifs at answer ⊢
  obtain rfl := Submission.accepted.inj answer
  exact ⟨rfl, fun acts => keys_run acts ⟨_, List.getElem?_concat_length, mem_canonicalKeys localeCompare ids⟩⟩

/-- What the queue owes to those who submit workflows to it. -/
structure Serialized (localeCompare : String → String → Int) (queue : ServiceWorkflowQueue) : Prop where
  ordered : ∀ (i j : Nat) (earlier later : Workflow), i < j → queue.operations[i]? = some earlier →
    queue.operations[j]? = some later → (∃ id ∈ later.keys, id ∈ earlier.keys) → j ∈ queue.calls →
      i ∈ queue.calls ∧ earlier.stage.complete = true
  once : queue.calls.Nodup
  prompt : queue.Quiet localeCompare → ∀ (j : Nat) (later : Workflow), queue.operations[j]? = some later →
    j ∉ queue.calls →
      (∃ (i : Nat) (earlier : Workflow), i < j ∧ queue.operations[i]? = some earlier ∧
        (∃ id ∈ later.keys, id ∈ earlier.keys) ∧ earlier.stage.complete = false) ∧
      ∃ (i : Nat) (earlier : Workflow), i < j ∧ queue.operations[i]? = some earlier ∧ earlier.stage = .running
  due : ∀ acts, Busy localeCompare queue acts → acts.length ≤ queue.pendingWork
  few : ∀ incomplete : List Nat, incomplete.Nodup →
    (∀ i ∈ incomplete, ∃ workflow, queue.operations[i]? = some workflow ∧ workflow.stage.complete = false) →
      incomplete.length ≤ maxServiceWorkflowOperations
  taken : (∀ ids, queue.Taken localeCompare ids (queue.enqueueMany localeCompare ids)) ∧
    (∀ ids, queue.Taken localeCompare ids (queue.readMany localeCompare ids)) ∧
    (∀ id, queue.Taken localeCompare [id] (queue.enqueue localeCompare id)) ∧
    ∀ id, queue.Taken localeCompare [id] (queue.read localeCompare id)
  rejected : ∀ ids, (∀ operation, (queue.enqueueMany localeCompare ids).2 ≠ .accepted operation) →
    (queue.enqueueMany localeCompare ids).1 = queue ∧
      (queue.closing = true ∨ maxServiceWorkflowOperations ≤ queue.accepted.items.length)
  drained : ∀ drain ∈ queue.drains, drain.resolved = true → ∀ i, i < drain.before →
    ∃ workflow, queue.operations[i]? = some workflow ∧ workflow.stage.complete = true

theorem Sound.serialized (sound : queue.Sound) : queue.Serialized localeCompare where
  ordered := by
    intro i j earlier later pre at_i at_j ⟨id, own, shared⟩ called
    obtain ⟨was, hit, started⟩ := (sound.called j).mp called
    obtain rfl := Option.mem_unique at_j hit
    obtain ⟨held, at_i', complete⟩ := finished_complete (sound.ordered pre at_i at_j shared own started)
    obtain rfl := Option.mem_unique at_i at_i'
    refine ⟨(sound.called i).mpr ⟨earlier, at_i, fun waiting => ?_⟩, complete⟩
    rw [waiting] at complete
    cases complete
  once := sound.once
  prompt := by
    intro quiet j later at_j uncalled
    have waiting : later.stage = .waiting := by
      by_contra started
      exact uncalled ((sound.called j).mpr ⟨later, at_j, started⟩)
    exact ⟨sound.quiet quiet at_j waiting, sound.someone_runs quiet at_j waiting⟩
  due := fun _ busy => busy_ends busy
  few := by
    intro incomplete ne members
    have inside : incomplete ⊆ queue.accepted.items := by
      intro i mem
      obtain ⟨workflow, hit, unsettled⟩ := members i mem
      refine SeqSet.mem_items.mpr ((sound.accepted i).mpr ⟨workflow, hit, fun removed => ?_⟩)
      rw [removed] at unsettled
      cases unsettled
    exact Nat.le_trans (List.subperm_of_subset ne inside).length_le sound.few
  taken := ⟨enqueueMany_taken _ _, enqueueMany_taken _ _, fun id => enqueueMany_taken _ _ [id],
    fun id => enqueueMany_taken _ _ [id]⟩
  rejected := by
    intro ids refused
    unfold ServiceWorkflowQueue.enqueueMany at refused ⊢
    split at refused
    · rename_i closing
      rw [if_pos closing]
      exact ⟨rfl, .inl closing⟩
    · rename_i accepting
      rw [if_neg accepting]
      split at refused
      · rename_i full
        rw [if_pos full]
        exact ⟨rfl, .inr full⟩
      · exact absurd rfl (refused _)
  drained := by
    intro drain mem resolved i pre
    obtain ⟨covered, done⟩ := sound.drains drain mem
    exact finished_complete ((covered i pre).elim id (done resolved i))

end NexTerminal.Daemon.ServiceWorkflowQueue
