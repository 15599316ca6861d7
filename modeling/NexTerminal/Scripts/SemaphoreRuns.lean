import NexTerminal.Library.Runs
import NexTerminal.Scripts.Semaphore

namespace NexTerminal.Scripts

open Library

inductive PermitAct
  | acquire
  | cancel (id : Nat)
  | release
deriving DecidableEq

namespace Semaphore

def perform (sem : Semaphore) : PermitAct → Semaphore
  | .acquire => sem.acquireCancellable
  | .cancel id => (sem.cancelWaiter id).2
  | .release => sem.release

/-- The semaphore after a sequence of calls. -/
def after (limit : Nat) (acts : List PermitAct) : Semaphore := acts.foldl perform (createSemaphore limit)

/-- The requests neither granted nor cancelled, in the order they were made in. -/
def live (sem : Semaphore) : List Nat := (List.range sem.requests.length).filter sem.waiting

/-- The queue keeps the order of arrival, and whoever came before a granted request has been settled. -/
structure InOrder (sem : Semaphore) : Prop where
  sorted : sem.queue.Pairwise (· < ·)
  passed : ∀ i j : Nat, i < j → sem.requests[j]? = some (some .granted) → sem.requests[i]? ≠ some none

variable {sem : Semaphore} {limit : Nat} {acts : List PermitAct}

theorem WellFormed.perform (formed : sem.WellFormed) (act : PermitAct) : (sem.perform act).WellFormed := by
  cases act with
  | acquire => exact formed.acquire
  | cancel id => exact formed.cancelWaiter id
  | release => exact formed.release

theorem settled_perform (formed : sem.WellFormed) (act : PermitAct) {id : Nat} {outcome : PermitOutcome}
    (settled : sem.requests[id]? = some (some outcome)) : (sem.perform act).requests[id]? = some (some outcome) := by
  have inside : id < sem.requests.length := (List.getElem?_eq_some_iff.mp settled).1
  cases act with
  | acquire =>
    obtain ⟨_, requests, -⟩ := sem.acquireCancellable_requests
    rw [perform, requests, List.getElem?_append_left inside]
    exact settled
  | cancel other =>
    rw [perform, requests_cancelWaiter]
    split
    · rename_i live
      have differ : other ≠ id := by
        rintro rfl
        rw [waiting_iff.mp live] at settled
        cases settled
      rw [List.getElem?_set_ne differ]
      exact settled
    · exact settled
  | release =>
    rcases formed.released.requests id with same | ⟨waits, -⟩
    · exact same.trans settled
    · rw [waits] at settled
      cases settled

theorem shift_inOrder {queue : List Nat} (inOrder : InOrder { sem with queue := queue })
    (linked : ∀ id : Nat, sem.requests[id]? = some none → id ∈ queue) : InOrder (shift queue sem) := by
  induction queue generalizing sem with
  | nil => exact ⟨List.Pairwise.nil, inOrder.passed⟩
  | cons next rest ih =>
    obtain ⟨first, sorted⟩ := List.pairwise_cons.mp inOrder.sorted
    rw [shift]
    split
    · rename_i waits
      refine ⟨sorted, fun i j pre granted waiting => ?_⟩
      have inside : next < sem.requests.length := (List.getElem?_eq_some_iff.mp (waiting_iff.mp waits)).1
      have differ : next ≠ i := by
        rintro rfl
        simp [inside] at waiting
      have still : sem.requests[i]? = some none := by simpa [differ] using waiting
      by_cases same : next = j
      · rcases List.mem_cons.mp (linked i still) with here | member
        · exact differ here.symm
        · exact absurd (first i member) (by omega)
      · exact inOrder.passed i j pre (by simpa [same] using granted) still
    · rename_i settled
      exact ih ⟨sorted, inOrder.passed⟩ (linked_tail linked settled)

theorem InOrder.perform (inOrder : sem.InOrder) (formed : sem.WellFormed) (act : PermitAct) :
    (sem.perform act).InOrder := by
  cases act with
  | acquire =>
    rw [Semaphore.perform, acquireCancellable]
    split
    · rename_i free
      refine ⟨inOrder.sorted, fun i j pre granted => ?_⟩
      rw [getElem?_concat]
      split
      · nofun
      · exact formed.idle free i
    · refine ⟨?_, fun i j pre granted => ?_⟩
      · refine List.pairwise_append.mpr ⟨inOrder.sorted, List.pairwise_singleton _ _, fun id mem last atEnd => ?_⟩
        rw [List.mem_singleton.mp atEnd]
        exact formed.known id mem
      · rw [getElem?_concat] at granted ⊢
        split at granted
        · cases granted
        · have known : j < sem.requests.length := (List.getElem?_eq_some_iff.mp granted).1
          rw [if_neg (by omega)]
          exact inOrder.passed i j pre granted
  | cancel id =>
    refine ⟨?_, fun i j pre granted waiting => ?_⟩
    · have shrinks : (sem.cancelWaiter id).2.queue.Sublist sem.queue := by
        unfold cancelWaiter
        split
        · dsimp only
          split
          · exact List.filter_sublist
          · exact List.Sublist.refl _
        · exact List.Sublist.refl _
      exact inOrder.sorted.sublist shrinks
    · rw [Semaphore.perform, requests_cancelWaiter] at granted waiting
      split at granted
      · grind [inOrder.passed i j pre]
      · rename_i settled
        rw [if_neg settled] at waiting
        exact inOrder.passed i j pre granted waiting
  | release => exact shift_inOrder inOrder formed.linked

theorem after_append (limit : Nat) (acts : List PermitAct) (act : PermitAct) :
    after limit (acts ++ [act]) = (after limit acts).perform act := by
  rw [after, List.foldl_append]
  rfl

theorem after_wellFormed (limit : Nat) (acts : List PermitAct) : (after limit acts).WellFormed :=
  List.foldlRecOn acts perform (createSemaphore_wellFormed limit) fun _ formed act _ => formed.perform act

theorem after_inOrder (limit : Nat) (acts : List PermitAct) : (after limit acts).InOrder := by
  induction acts using List.reverseRecOn with
  | nil => exact ⟨List.Pairwise.nil, by simp [after, createSemaphore]⟩
  | append_singleton acts act ih =>
    rw [after_append]
    exact ih.perform (after_wellFormed limit acts) act

theorem settled_after {id : Nat} {outcome : PermitOutcome}
    (settled : (after limit acts).requests[id]? = some (some outcome)) (more : List PermitAct) :
    (after limit (acts ++ more)).requests[id]? = some (some outcome) := by
  induction more using List.reverseRecOn with
  | nil =>
    rw [List.append_nil]
    exact settled
  | append_singleton more act ih =>
    rw [← List.append_assoc, after_append]
    exact settled_perform (after_wellFormed limit (acts ++ more)) act ih

/-- The requests that were given a permit, whether or not it has come back. -/
def grants (sem : Semaphore) : Nat := sem.requests.count (some .granted)

theorem grants_perform (formed : sem.WellFormed) (act : PermitAct) :
    (sem.perform act).available + (sem.perform act).grants =
      sem.available + sem.grants + [act].count .release := by
  cases act with
  | acquire =>
    obtain ⟨outcome, requests, -, available⟩ := sem.acquireCancellable_requests
    rw [perform, grants, grants, requests, List.count_append, List.count_singleton, ← available]
    cases outcome with
    | none => rfl
    | some outcome =>
      cases outcome with
      | granted =>
        simp
        omega
      | cancelled => simp
  | cancel id =>
    rw [perform, grants, grants, available_cancelWaiter, requests_cancelWaiter]
    split
    · rename_i live
      obtain ⟨inside, waits⟩ := List.getElem?_eq_some_iff.mp (waiting_iff.mp live)
      rw [List.count_set inside, waits]
      rfl
    · rfl
  | release =>
    rw [perform, grants, grants]
    cases formed.released with
    | freed _ available requests =>
      rw [available, requests]
      simp
      omega
    | granted id waits available requests =>
      obtain ⟨inside, waits⟩ := List.getElem?_eq_some_iff.mp waits
      rw [available, requests, List.count_set inside, waits]
      simp
      omega

theorem grants_after (limit : Nat) (acts : List PermitAct) :
    (after limit acts).available + (after limit acts).grants = limit + acts.count .release := by
  induction acts using List.reverseRecOn with
  | nil => rfl
  | append_singleton acts act ih =>
    rw [after_append, grants_perform (after_wellFormed limit acts), ih, List.count_append, Nat.add_assoc]

theorem requests_after (limit : Nat) (acts : List PermitAct) :
    (after limit acts).requests.length = acts.count .acquire := by
  induction acts using List.reverseRecOn with
  | nil => rfl
  | append_singleton acts act ih =>
    rw [after_append, List.count_append, ← ih]
    cases act with
    | acquire =>
      obtain ⟨outcome, requests, -⟩ := (after limit acts).acquireCancellable_requests
      rw [perform, requests, List.length_append]
      rfl
    | cancel id =>
      rw [perform, requests_cancelWaiter]
      split
      · rw [List.length_set]
        rfl
      · rfl
    | release => exact (after_wellFormed limit acts).released.length_requests

theorem filter_queue (formed : sem.WellFormed) (inOrder : sem.InOrder) :
    sem.queue.filter sem.waiting = sem.live := by
  have order : sem.live.Pairwise (· < ·) := List.pairwise_lt_range.sublist List.filter_sublist
  refine List.Perm.eq_of_pairwise (fun _ _ _ _ one other => absurd one (Nat.lt_asymm other))
    (inOrder.sorted.sublist List.filter_sublist) order ?_
  refine (List.perm_ext_iff_of_nodup (formed.nodup.filter _) order.nodup).mpr fun id => ?_
  rw [live, List.mem_filter, List.mem_filter, List.mem_range]
  refine and_congr_left fun waits => ⟨formed.known id, fun _ => formed.linked id (waiting_iff.mp waits)⟩

theorem queued_eq (formed : sem.WellFormed) (inOrder : sem.InOrder) :
    sem.queue.length = sem.live.length + sem.dead := by
  rw [formed.dead, ← filter_queue formed inOrder, ← List.countP_eq_length_filter]
  simpa using List.length_eq_countP_add_countP (l := sem.queue) sem.waiting

/-- What holds of the semaphore after a sequence of calls, and what more calls cannot take back. -/
structure Orderly (limit : Nat) (acts : List PermitAct) : Prop where
  /-- Every acquire is a request of its own. -/
  requested : (after limit acts).requests.length = acts.count .acquire
  once : ∀ (id : Nat) outcome, (after limit acts).requests[id]? = some (some outcome) →
    ∀ more, (after limit (acts ++ more)).requests[id]? = some (some outcome)
  arrival : ∀ i j : Nat, i < j → (after limit acts).requests[j]? = some (some .granted) →
    (after limit acts).requests[i]? ≠ some none
  idle : 0 < (after limit acts).available → (after limit acts).live = []
  /-- A cancel that comes after the grant takes nothing back. -/
  tooLate : ∀ id : Nat, (after limit acts).requests[id]? = some (some .granted) →
    (after limit acts).cancelWaiter id = (false, after limit acts)
  conserved : (after limit acts).available + (after limit acts).grants = limit + acts.count .release
  waiting : (after limit acts).queue.filter (after limit acts).waiting = (after limit acts).live
  queued : (after limit acts).queued = (after limit acts).live.length
  dead : (after limit acts).dead =
    (after limit acts).queue.countP fun id => (after limit acts).requests[id]? == some (some .cancelled)

/-- Every run of acquires, cancels and releases is orderly. -/
theorem semaphore_orderly (limit : Nat) (acts : List PermitAct) : Orderly limit acts := by
  have wellFormed := after_wellFormed limit acts
  have inOrder := after_inOrder limit acts
  refine ⟨requests_after limit acts, fun _ _ settled more => settled_after settled more, inOrder.passed,
    fun free => ?_, fun id granted => ?_, grants_after limit acts, filter_queue wellFormed inOrder, ?_, ?_⟩
  · exact List.filter_eq_nil_iff.mpr fun id _ waits => wellFormed.idle free id (waiting_iff.mp waits)
  · rw [cancelWaiter, if_neg]
    rw [waiting_iff, granted]
    nofun
  · rw [queued, queued_eq wellFormed inOrder, Nat.add_sub_cancel]
  · refine wellFormed.dead.trans (List.countP_congr fun id member => ?_)
    rcases wellFormed.shells id member with waits | cancelled
    · simp [Semaphore.waiting, waits]
    · simp [Semaphore.waiting, cancelled]

/-- The bound that the scheduler's invariant 8 documents. -/
def Bounded (sem : Semaphore) : Prop := sem.queue.length ≤ 2 * sem.live.length + 1

/-- The shells behind the waiter that the next permit goes to. -/
def behind (sem : Semaphore) : Nat :=
  (sem.queue.dropWhile fun id => !sem.waiting id).countP fun id => !sem.waiting id

/-- A permit given back while the shells behind the next waiter outnumber the live waiters. -/
def uncovers (sem : Semaphore) : PermitAct → Bool
  | .release => sem.live.length < sem.behind
  | _ => false

theorem shift_queue (queue : List Nat) (sem : Semaphore) :
    (shift queue sem).queue = (queue.dropWhile fun id => !sem.waiting id).tail := by
  induction queue generalizing sem with
  | nil => rfl
  | cons next rest ih =>
    rw [shift]
    split
    · rename_i waits
      rw [List.dropWhile_cons_of_neg (by simp [waits])]
      rfl
    · rename_i settled
      rw [ih, List.dropWhile_cons_of_pos (by simpa using settled)]
      rfl

theorem shift_dead {queue : List Nat} (dead : sem.dead = queue.countP fun id => !sem.waiting id) :
    (shift queue sem).dead = (queue.dropWhile fun id => !sem.waiting id).countP fun id => !sem.waiting id := by
  induction queue generalizing sem with
  | nil => exact dead
  | cons next rest ih =>
    rw [shift]
    split
    · rename_i waits
      rw [List.dropWhile_cons_of_neg (by simp [waits])]
      exact dead
    · rename_i settled
      have shell : (!sem.waiting next) = true := by simpa using settled
      have counted : sem.dead = (rest.countP fun id => !sem.waiting id) + 1 :=
        dead.trans (List.countP_cons_of_pos shell)
      have remaining : sem.dead - 1 = rest.countP fun id => !sem.waiting id := Nat.sub_eq_of_eq_add counted
      exact (ih remaining).trans (by rw [List.dropWhile_cons_of_pos (p := fun id => !sem.waiting id) shell]; rfl)

theorem live_eq_countP (formed : sem.WellFormed) (inOrder : sem.InOrder) :
    sem.live.length = (sem.queue.dropWhile fun id => !sem.waiting id).countP sem.waiting := by
  have none : (sem.queue.takeWhile fun id => !sem.waiting id).countP sem.waiting = 0 :=
    List.countP_eq_zero.mpr fun id mem => by simpa using List.mem_takeWhile_imp mem
  have split := congrArg (List.countP sem.waiting)
    (List.takeWhile_append_dropWhile (p := fun id => !sem.waiting id) (l := sem.queue))
  rw [List.countP_append, none, Nat.zero_add] at split
  rw [← filter_queue formed inOrder, ← List.countP_eq_length_filter, split]

/-- The bound in the code's own counts. -/
theorem bounded_iff (formed : sem.WellFormed) (inOrder : sem.InOrder) :
    sem.Bounded ↔ 2 * sem.dead ≤ sem.queue.length + 1 := by
  have len := queued_eq formed inOrder
  unfold Bounded
  omega

theorem bounded_release_iff (formed : sem.WellFormed) (inOrder : sem.InOrder) :
    sem.release.Bounded ↔ sem.behind ≤ sem.live.length := by
  have queue : sem.release.queue.length = (sem.queue.dropWhile fun id => !sem.waiting id).length - 1 := by
    rw [release, shift_queue, List.length_tail]
  have dead : sem.release.dead = sem.behind := shift_dead formed.dead
  have live := live_eq_countP formed inOrder
  have size : (sem.queue.dropWhile fun id => !sem.waiting id).length = sem.live.length + sem.behind := by
    rw [live, behind]
    simpa using List.length_eq_countP_add_countP (l := sem.queue.dropWhile fun id => !sem.waiting id) sem.waiting
  refine (bounded_iff (formed.perform .release) (inOrder.perform formed .release)).trans ?_
  rw [Semaphore.perform, dead, queue, size]
  omega

theorem Bounded.perform (bounded : sem.Bounded) (formed : sem.WellFormed) (inOrder : sem.InOrder) (act : PermitAct)
    (covered : sem.uncovers act = false) : (sem.perform act).Bounded := by
  have room := (bounded_iff formed inOrder).mp bounded
  cases act with
  | acquire =>
    refine (bounded_iff (formed.perform .acquire) (inOrder.perform formed .acquire)).mpr ?_
    rw [Semaphore.perform, acquireCancellable]
    split
    · exact room
    · dsimp only
      rw [List.length_append]
      omega
  | cancel id =>
    refine (bounded_iff (formed.perform (.cancel id)) (inOrder.perform formed (.cancel id))).mpr ?_
    rw [Semaphore.perform, cancelWaiter]
    split
    · dsimp only
      split
      · exact Nat.zero_le _
      · dsimp only
        omega
    · exact room
  | release => exact (bounded_release_iff formed inOrder).mpr (by simpa [uncovers] using covered)

/-- The bound stands in every state reached exactly where no release uncovers too many shells. -/
theorem queue_bounded_iff (limit : Nat) (acts : List PermitAct) :
    (∀ before rest, acts = before ++ rest → (after limit before).Bounded) ↔
      Avoids perform uncovers (createSemaphore limit) acts := by
  constructor
  · intro bounded before act rest split
    cases act with
    | acquire | cancel id => rfl
    | release =>
      have reached := bounded (before ++ [.release]) rest (by simp [split])
      rw [after_append] at reached
      have covered := (bounded_release_iff (after_wellFormed limit before) (after_inOrder limit before)).mp reached
      exact decide_eq_false (Nat.not_lt.mpr covered)
  · intro avoids before rest split
    subst split
    refine (avoids.left.invariant (P := fun sem => sem.WellFormed ∧ sem.InOrder ∧ sem.Bounded) ?_ ?_).2.2
    · exact ⟨createSemaphore_wellFormed limit, after_inOrder limit [], Nat.zero_le _⟩
    · rintro sem act ⟨wellFormed, inOrder, bounded⟩ covered
      exact ⟨wellFormed.perform act, inOrder.perform wellFormed act, bounded.perform wellFormed inOrder act covered⟩

theorem queue_exceeds_bound : ¬ ∀ acts, (after 1 acts).Bounded := by
  intro bounded
  have reached := bounded [.acquire, .acquire, .acquire, .acquire, .acquire, .cancel 3, .cancel 4, .release, .release]
  unfold Bounded at reached
  exact absurd reached (by decide)

end Semaphore

end NexTerminal.Scripts
