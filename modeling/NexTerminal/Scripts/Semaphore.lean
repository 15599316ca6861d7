import NexTerminal.Library.Sequences

/-! The FIFO semaphore of the read-slot scheduler (`readSlotScheduler.ts`). A
request is known by the order it was made in, and is settled at most once. -/

namespace NexTerminal.Scripts

open Library

inductive PermitOutcome
  | granted
  | cancelled
deriving DecidableEq

structure Semaphore where
  available : Nat
  queue : List Nat := []
  /-- How each request ended; a waiter keeps its resolver until it does. -/
  requests : List (Option PermitOutcome) := []
  /-- Shells in `queue`: cancelled waiters not yet compacted or walked past. -/
  dead : Nat := 0
  compactions : Nat := 0
  cancelWork : Nat := 0

def createSemaphore (limit : Nat) : Semaphore where
  available := limit

namespace Semaphore

def waiting (sem : Semaphore) (id : Nat) : Bool := sem.requests[id]? == some none

def queued (sem : Semaphore) : Nat := sem.queue.length - sem.dead

def compact (sem : Semaphore) : Semaphore :=
  { sem with
    queue := sem.queue.filter sem.waiting
    dead := 0
    compactions := sem.compactions + 1
    cancelWork := sem.cancelWork + sem.queue.length }

/-- Abandons a wait, unless it has ended already. Shells are compacted away when
they come to outnumber the live waiters. -/
def cancelWaiter (sem : Semaphore) (id : Nat) : Bool × Semaphore :=
  if sem.waiting id then
    let sem := { sem with requests := sem.requests.set id (some .cancelled), dead := sem.dead + 1 }
    (true, if sem.dead > sem.queue.length - sem.dead then sem.compact else sem)
  else (false, sem)

/-- A new request: settled at once while a permit is free, else last in the queue. -/
def acquireCancellable (sem : Semaphore) : Semaphore :=
  if 0 < sem.available then
    { sem with available := sem.available - 1, requests := sem.requests ++ [some .granted] }
  else
    { sem with queue := sem.queue ++ [sem.requests.length], requests := sem.requests ++ [none] }

def shift (queue : List Nat) (sem : Semaphore) : Semaphore :=
  match queue with
  | [] => { sem with queue := [], available := sem.available + 1 }
  | id :: rest =>
    if sem.waiting id then
      { sem with queue := rest, requests := sem.requests.set id (some .granted) }
    else shift rest { sem with dead := sem.dead - 1 }

/-- Hands the permit straight to the next live waiter, in queue order. -/
def release (sem : Semaphore) : Semaphore := shift sem.queue sem

variable {sem : Semaphore}

theorem waiting_iff {id : Nat} : sem.waiting id = true ↔ sem.requests[id]? = some none := by
  simp [waiting]

/-- The queue holds every waiter still waiting, and shells of cancelled ones. -/
structure WellFormed (sem : Semaphore) : Prop where
  nodup : sem.queue.Nodup
  linked : ∀ id : Nat, sem.requests[id]? = some none → id ∈ sem.queue
  shells : ∀ id ∈ sem.queue, sem.requests[id]? = some none ∨ sem.requests[id]? = some (some .cancelled)
  dead : sem.dead = sem.queue.countP fun id => !sem.waiting id
  idle : 0 < sem.available → ∀ id : Nat, sem.requests[id]? ≠ some none

/-- What giving a permit back can do: no one waits and it is free again, or a
waiter has it. -/
inductive Released (sem after : Semaphore) : Prop
  | freed : (∀ id : Nat, sem.requests[id]? ≠ some none) →
      after.available = sem.available + 1 → after.requests = sem.requests → Released sem after
  | granted (id : Nat) : sem.requests[id]? = some none → after.available = sem.available →
      after.requests = sem.requests.set id (some .granted) → Released sem after

/-- A request is left as it is, or it was waiting and is now granted. -/
def Grants (before after : Option (Option PermitOutcome)) : Prop :=
  after = before ∨ before = some none ∧ after = some (some .granted)

theorem Grants.trans {pre mid after : Option (Option PermitOutcome)} (first : Grants pre mid)
    (rest : Grants mid after) : Grants pre after := by
  rcases rest with same | ⟨waits, granted⟩
  · rw [same]
    exact first
  · rcases first with same | ⟨_, earlier⟩
    · exact .inr ⟨same ▸ waits, granted⟩
    · rw [earlier] at waits
      cases waits

theorem Released.requests {after : Semaphore} (released : Released sem after) (id : Nat) :
    Grants sem.requests[id]? after.requests[id]? := by
  cases released with
  | freed _ _ requests => exact .inl (by rw [requests])
  | granted other waits _ requests =>
    rw [requests]
    by_cases same : other = id
    · subst same
      have inside : other < sem.requests.length := (List.getElem?_eq_some_iff.mp waits).1
      exact .inr ⟨waits, by simp [inside]⟩
    · exact .inl (by simp [same])

theorem Released.length_requests {after : Semaphore} (released : Released sem after) :
    after.requests.length = sem.requests.length := by
  cases released with
  | freed _ _ requests => rw [requests]
  | granted _ _ _ requests => rw [requests, List.length_set]

theorem createSemaphore_wellFormed (limit : Nat) : (createSemaphore limit).WellFormed where
  nodup := List.nodup_nil
  linked := by simp [createSemaphore]
  shells := by simp [createSemaphore]
  dead := rfl
  idle := by simp [createSemaphore]

section
variable {sem : Semaphore} {queue : List Nat}

theorem linked_tail {id : Nat} {rest : List Nat}
    (linked : ∀ other : Nat, sem.requests[other]? = some none → other ∈ id :: rest)
    (settled : ¬ sem.waiting id = true) (other : Nat) (waits : sem.requests[other]? = some none) : other ∈ rest := by
  rcases List.mem_cons.mp (linked other waits) with rfl | member
  · exact absurd (waiting_iff.mpr waits) settled
  · exact member

theorem shift_released (linked : ∀ id : Nat, sem.requests[id]? = some none → id ∈ queue) :
    Released sem (shift queue sem) := by
  induction queue generalizing sem with
  | nil => exact .freed (fun id waits => List.not_mem_nil (linked id waits)) rfl rfl
  | cons id rest ih =>
    rw [shift]
    split
    · rename_i live
      exact .granted id (waiting_iff.mp live) rfl rfl
    · rename_i settled
      have released : Released { sem with dead := sem.dead - 1 }
          (shift rest { sem with dead := sem.dead - 1 }) := ih (linked_tail linked settled)
      exact match released with
      | .freed idle available requests => .freed idle available requests
      | .granted other waits available requests => .granted other waits available requests

theorem shift_wellFormed (formed : WellFormed { sem with queue := queue }) : WellFormed (shift queue sem) := by
  induction queue generalizing sem with
  | nil =>
    exact ⟨List.nodup_nil, formed.linked, formed.shells, formed.dead,
      fun _ id waits => List.not_mem_nil (formed.linked id waits)⟩
  | cons id rest ih =>
    obtain ⟨fresh, nodup⟩ := List.nodup_cons.mp formed.nodup
    have dead := formed.dead
    rw [shift]
    split
    · rename_i live
      have waits := waiting_iff.mp live
      have ne : ∀ other ∈ rest, id ≠ other := fun other member same => fresh (same ▸ member)
      refine ⟨nodup, ?_, ?_, ?_, fun free => absurd waits (formed.idle free id)⟩
      · intro other waiting
        have differ : id ≠ other := by
          rintro rfl
          have inside : id < sem.requests.length := (List.getElem?_eq_some_iff.mp waits).1
          simp [inside] at waiting
        have pre : sem.requests[other]? = some none := by simpa [differ] using waiting
        rcases List.mem_cons.mp (formed.linked other pre) with same | member
        · exact absurd same.symm differ
        · exact member
      · intro other member
        simpa [ne other member] using formed.shells other (List.mem_cons_of_mem _ member)
      · have counted : sem.dead = rest.countP fun other => !sem.waiting other := by
          simpa [waiting, waits] using dead
        rw [counted]
        exact List.countP_congr fun other member => by simp [waiting, ne other member]
    · rename_i settled
      have shell : (!sem.waiting id) = true := by simpa using settled
      have counted : sem.dead = (rest.countP fun other => !sem.waiting other) + 1 :=
        dead.trans (List.countP_cons_of_pos shell)
      have remaining : WellFormed { sem with queue := rest, dead := sem.dead - 1 } :=
        ⟨nodup, linked_tail formed.linked settled, fun other member =>
          formed.shells other (List.mem_cons_of_mem _ member),
          Nat.sub_eq_of_eq_add counted, formed.idle⟩
      exact ih remaining

end

theorem WellFormed.release (formed : sem.WellFormed) : sem.release.WellFormed := shift_wellFormed formed

theorem WellFormed.released (formed : sem.WellFormed) :
    Released sem sem.release := shift_released formed.linked

theorem WellFormed.compact (formed : sem.WellFormed) : sem.compact.WellFormed where
  nodup := formed.nodup.filter _
  linked id waits := List.mem_filter.mpr ⟨formed.linked id waits, waiting_iff.mpr waits⟩
  shells _ member := .inl (waiting_iff.mp (List.mem_filter.mp member).2)
  dead := by
    have live : ∀ id ∈ sem.queue.filter sem.waiting, ¬ (!sem.waiting id) = true := by
      intro id member
      simp [(List.mem_filter.mp member).2]
    exact (List.countP_eq_zero.mpr live).symm
  idle := formed.idle

@[simp] theorem available_cancelWaiter (sem : Semaphore) (id : Nat) :
    (sem.cancelWaiter id).2.available = sem.available := by
  unfold cancelWaiter
  split
  · dsimp only
    split <;> rfl
  · rfl

theorem requests_cancelWaiter (sem : Semaphore) (id : Nat) :
    (sem.cancelWaiter id).2.requests =
      if sem.waiting id then sem.requests.set id (some .cancelled) else sem.requests := by
  unfold cancelWaiter
  split
  · dsimp only
    split <;> rfl
  · rfl

theorem WellFormed.cancelWaiter (formed : sem.WellFormed) (id : Nat) : (sem.cancelWaiter id).2.WellFormed := by
  unfold Semaphore.cancelWaiter
  split
  · rename_i live
    have waits := waiting_iff.mp live
    have inside : id < sem.requests.length := (List.getElem?_eq_some_iff.mp waits).1
    have marked : WellFormed { sem with
        requests := sem.requests.set id (some .cancelled), dead := sem.dead + 1 } := by
      refine ⟨formed.nodup, ?_, ?_, ?_, fun free => absurd waits (formed.idle free id)⟩
      · intro other waiting
        have differ : id ≠ other := by
          rintro rfl
          simp [inside] at waiting
        exact formed.linked other (by simpa [differ] using waiting)
      · intro other mem
        by_cases same : id = other
        · subst same; simp [inside]
        · simpa [same] using formed.shells other mem
      · rw [formed.dead]
        refine (countP_joined formed.nodup (formed.linked id waits) ?_ ?_ ?_).symm
        · simp [live]
        · simp [waiting, inside]
        · intro other differ
          simp [waiting, differ.symm]
    dsimp only
    split
    · exact marked.compact
    · exact marked
  · exact formed

theorem getElem?_concat {α : Type} {items : List α} {last : α} {i : Nat} :
    (items ++ [last])[i]? = if i = items.length then some last else items[i]? := by
  split
  · rename_i atEnd
    subst atEnd
    exact List.getElem?_concat_length
  · rename_i elsewhere
    rcases Nat.lt_or_gt_of_ne elsewhere with inside | beyond
    · exact List.getElem?_append_left inside
    · rw [List.getElem?_eq_none (by simp; omega), List.getElem?_eq_none (by omega)]

theorem acquireCancellable_requests (sem : Semaphore) : ∃ outcome,
    sem.acquireCancellable.requests = sem.requests ++ [outcome] ∧ outcome ≠ some .cancelled ∧
      sem.acquireCancellable.available + (outcome == some .granted).toNat = sem.available := by
  unfold acquireCancellable
  split
  · rename_i free
    exact ⟨some .granted, rfl, by decide, Nat.sub_add_cancel free⟩
  · exact ⟨none, rfl, by decide, rfl⟩

/-- Who waits in the queue has made a request. -/
theorem WellFormed.known (formed : sem.WellFormed) (id : Nat) (mem : id ∈ sem.queue) :
    id < sem.requests.length := by
  rcases formed.shells id mem with waits | cancelled
  · exact (List.getElem?_eq_some_iff.mp waits).1
  · exact (List.getElem?_eq_some_iff.mp cancelled).1

theorem WellFormed.acquire (formed : sem.WellFormed) : sem.acquireCancellable.WellFormed := by
  have known := formed.known
  unfold acquireCancellable
  split
  · rename_i free
    have idle := formed.idle free
    have busy : ∀ id : Nat, (sem.requests ++ [some PermitOutcome.granted])[id]? ≠ some none := by
      intro id waits
      rw [getElem?_concat] at waits
      split at waits
      · cases waits
      · exact idle id waits
    have kept : ∀ id ∈ sem.queue,
        (sem.requests ++ [some PermitOutcome.granted])[id]? = sem.requests[id]? := fun id mem =>
      List.getElem?_append_left (known id mem)
    refine ⟨formed.nodup, fun id waits => absurd waits (busy id), ?_, ?_, fun _ => busy⟩
    · intro id mem
      rw [kept id mem]
      exact formed.shells id mem
    · refine formed.dead.trans (List.countP_congr fun id mem => ?_)
      simp [waiting, kept id mem]
  · rename_i spent
    have kept : ∀ id ∈ sem.queue, (sem.requests ++ [none])[id]? = sem.requests[id]? :=
      fun id mem => List.getElem?_append_left (known id mem)
    refine ⟨?_, ?_, ?_, ?_, fun free => absurd free spent⟩
    · refine List.nodup_append.mpr ⟨formed.nodup, List.nodup_singleton _, ?_⟩
      intro id mem other last same
      rw [List.mem_singleton] at last
      exact absurd (known id mem) (by omega)
    · intro id waits
      rw [getElem?_concat] at waits
      split at waits
      · rename_i last
        exact List.mem_append_right _ (List.mem_singleton.mpr last)
      · exact List.mem_append_left _ (formed.linked id waits)
    · intro id mem
      rcases List.mem_append.mp mem with old | last
      · rw [kept id old]
        exact formed.shells id old
      · rw [List.mem_singleton] at last
        subst last
        exact .inl List.getElem?_concat_length
    · have counted : sem.queue.countP (fun id => !sem.waiting id) =
          sem.queue.countP fun id => !(sem.requests ++ [none])[id]? == some none :=
        List.countP_congr fun id mem => by rw [kept id mem]; rfl
      change sem.dead = (sem.queue ++ [sem.requests.length]).countP
        fun id => !(sem.requests ++ [none])[id]? == some none
      rw [formed.dead, counted, List.countP_append]
      simp

end Semaphore

end NexTerminal.Scripts
