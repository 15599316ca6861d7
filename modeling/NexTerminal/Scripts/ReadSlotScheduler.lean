import NexTerminal.Scripts.Semaphore

/-! The read-slot scheduler (`readSlotScheduler.ts`): admission, deadline and
detachment of the work of each call. A call is known by the order it was made in,
as is its request to the semaphore. -/

namespace NexTerminal.Scripts

inductive SlotState
  | queued
  | admitted
  | running
  | settled
  | abandoned
  | expired
  | orphaned
  | held
  | promoted
  | retired
deriving DecidableEq

namespace SlotState

def name : SlotState → String
  | .queued => "queued"
  | .admitted => "admitted"
  | .running => "running"
  | .settled => "settled"
  | .abandoned => "abandoned"
  | .expired => "expired"
  | .orphaned => "orphaned"
  | .held => "held"
  | .promoted => "promoted"
  | .retired => "retired"

def legalNext : SlotState → List SlotState
  | .queued => [.admitted, .expired]
  | .admitted => [.running, .abandoned]
  | .running => [.settled, .orphaned, .held]
  | .held => [.promoted, .settled]
  | .orphaned => [.retired]
  | .promoted => [.retired]
  | .settled | .abandoned | .expired | .retired => []

def permitHolding (state : SlotState) : Bool := state ∈ [admitted, running, held]

/-- States charged against `maxOrphaned`. -/
def orphanOccupying (state : SlotState) : Bool := state ∈ [orphaned, promoted]

end SlotState

/-- What `runGated` waits for. -/
inductive Awaiting
  /-- The race of the expiry with `claimPermit`. -/
  | permit
  /-- Nothing: `claimPermit` has admitted it, and it is about to resume. -/
  | admission
  | work
  | nothing
deriving DecidableEq

/-- The promise that `run` returned. -/
inductive Operation
  | unstarted
  /-- `run` threw instead of returning one. -/
  | threw
  | pending
  | settled
deriving DecidableEq

inductive Timer
  | armed
  | fired
  | cleared
deriving DecidableEq

/-- One call of `runGated`: its slot, and how far its asynchronous parts have come. -/
structure Call where
  label : String
  state : SlotState := .queued
  awaiting : Awaiting := .permit
  /-- `claimPermit` still awaits its grant. -/
  claiming : Bool := true
  operation : Operation := .unstarted
  timer : Timer := .armed
  /-- The deadline's handler awaits the detached operation. -/
  watching : Bool := false
  /-- How often the call gave a permit back; no step reads it. -/
  releases : Nat := 0
deriving DecidableEq

def Timer.clear : Timer → Timer
  | .armed => .cleared
  | timer => timer

structure Scheduler where
  maxConcurrent : Nat
  maxOrphaned : Nat
  permits : Semaphore
  /-- Slots in `held`, oldest first. -/
  held : List Nat := []
  orphaned : Nat := 0
  permitsInUse : Nat := 0
  calls : List Call := []
  /-- The calls whose slots were ever held, in order; no step reads it. -/
  everHeld : List Nat := []

def Scheduler.new (maxConcurrent maxOrphaned : Nat) : Scheduler where
  maxConcurrent := maxConcurrent
  maxOrphaned := maxOrphaned
  permits := createSemaphore maxConcurrent

structure ReadSlotSnapshot where
  permitsInUse : Nat
  orphaned : Nat
  held : List String
  queued : Nat

namespace Scheduler

def update (s : Scheduler) (id : Nat) (change : Call → Call) : Scheduler :=
  { s with calls := s.calls.modify id change }

def snapshot (s : Scheduler) : ReadSlotSnapshot where
  permitsInUse := s.permitsInUse
  orphaned := s.orphaned
  held := s.held.filterMap fun id => s.calls[id]?.map Call.label
  queued := s.permits.queued

def releasePermit (s : Scheduler) (id : Nat) : Scheduler :=
  { s.update id fun call => { call with releases := call.releases + 1 } with
    permits := s.permits.release }

/-- The single mutator of slots. `promoteHeld` runs last, if the slot left the
detached budget. -/
def transitionWith (promoteHeld : Scheduler → Except String Scheduler) (s : Scheduler) (id : Nat)
    (next : SlotState) : Except String Scheduler :=
  match s.calls[id]? with
  | none => .ok s
  | some slot => do
    let src := slot.state
    if next ∉ src.legalNext then
      throw (s!"ReadSlotScheduler: illegal transition {src.name} → {next.name} for "
        ++ s!"{slot.label}")
    let mut s := s.update id fun call => { call with state := next }
    if next = .held then
      s := { s with held := s.held ++ [id], everHeld := s.everHeld ++ [id] }
    if src = .held then
      if id ∉ s.held then
        throw s!"ReadSlotScheduler: held slot {slot.label} missing from held list"
      s := { s with held := s.held.erase id }
    if next.orphanOccupying then s := { s with orphaned := s.orphaned + 1 }
    if src.orphanOccupying then s := { s with orphaned := s.orphaned - 1 }
    if src.permitHolding then
      if !next.permitHolding then
        s := { s with permitsInUse := s.permitsInUse - 1 }.releasePermit id
    else if next.permitHolding then s := { s with permitsInUse := s.permitsInUse + 1 }
    if src.orphanOccupying then promoteHeld s else return s

/-- Converts held slots into detached ones, oldest first; a promotion shortens the list, which bounds the loop. -/
def promoteHeldWithin (fuel : Nat) (s : Scheduler) : Except String Scheduler :=
  match fuel with
  | 0 => .ok s
  | fuel + 1 =>
    if s.orphaned < s.maxOrphaned then
      match s.held with
      | [] => .ok s
      | oldest :: _ => do
        let s ← transitionWith (promoteHeldWithin fuel) s oldest .promoted
        promoteHeldWithin fuel s
    else .ok s

def promoteHeld (s : Scheduler) : Except String Scheduler := promoteHeldWithin s.held.length s

def transition (s : Scheduler) (id : Nat) (next : SlotState) : Except String Scheduler :=
  transitionWith promoteHeld s id next

end Scheduler

inductive Admission
  /-- `onAdmitted` throws. -/
  | declines
  /-- `run` throws. -/
  | throws
  /-- `run` returns its promise. -/
  | starts
deriving DecidableEq

/-- What can happen next: a new call, a continuation, or an outside event. -/
inductive Event
  | runGated (label : String)
  /-- `claimPermit` resumes with the outcome of its request. -/
  | claim (id : Nat)
  /-- `runGated` resumes after its admission. -/
  | admission (id : Nat) (goes : Admission)
  | settle (id : Nat)
  /-- `runGated` resumes after its work or its deadline. -/
  | finish (id : Nat)
  | deadline (id : Nat)
  /-- `runGated` resumes with the expiry of a call that never left the queue. -/
  | reject (id : Nat)
  /-- The deadline's handler resumes with the detached operation settled. -/
  | retire (id : Nat)
deriving DecidableEq

namespace Scheduler

/-- A continuation may resume once what it awaits has settled, in any order; a timer waits for its own call's
continuations, except a grant. -/
def Ready (s : Scheduler) (event : Event) : Bool :=
  let test := fun (id : Nat) (holds : Call → Bool) => (s.calls[id]?.map holds).getD false
  match event with
  | .runGated _ => true
  | .claim id => test id fun call => call.claiming && !s.permits.waiting id
  | .admission id _ => test id fun call => call.awaiting == .admission
  | .settle id => test id fun call => call.operation == .pending
  | .finish id => test id fun call =>
      call.awaiting == .work && (call.operation != .pending || call.timer == .fired)
  | .deadline id => test id fun call =>
      call.timer == .armed && (call.awaiting == .permit || (call.awaiting == .work && call.operation == .pending))
  | .reject id => test id fun call => call.awaiting == .permit && call.timer == .fired
  | .retire id => test id fun call => call.watching && call.operation == .settled

def stateOf (s : Scheduler) (id : Nat) : Option SlotState := s.calls[id]?.map Call.state

def runGated (s : Scheduler) (label : String) : Scheduler :=
  { s with permits := s.permits.acquireCancellable, calls := s.calls ++ [{ label := label }] }

def claimPermit (s : Scheduler) (id : Nat) : Except String Scheduler :=
  let s := s.update id fun call => { call with claiming := false }
  match s.permits.requests[id]? with
  | some (some .granted) =>
    -- A grant to an expired slot belongs to whoever is behind it.
    if s.stateOf id = some .expired then .ok (s.releasePermit id)
    else do
      let s ← s.transition id .admitted
      return s.update id fun call => { call with awaiting := .admission }
  | _ => .ok s

def resumeAdmitted (s : Scheduler) (id : Nat) (goes : Admission) : Except String Scheduler := do
  match goes with
  | .declines =>
    let s ← s.transition id .abandoned
    return s.update id fun call => { call with awaiting := .nothing, timer := call.timer.clear }
  | .throws =>
    let s ← s.transition id .running
    return s.update id fun call => { call with awaiting := .work, operation := .threw }
  | .starts =>
    let s ← s.transition id .running
    return s.update id fun call => { call with awaiting := .work, operation := .pending }

def finish (s : Scheduler) (id : Nat) : Except String Scheduler := do
  let s ← if s.stateOf id = some .running then s.transition id .settled else pure s
  return s.update id fun call => { call with awaiting := .nothing, timer := call.timer.clear }

def fire (s : Scheduler) (id : Nat) : Except String Scheduler := do
  let started := match s.calls[id]?.map Call.operation with
    | some .pending | some .settled => true
    | _ => false
  let s := s.update id fun call => { call with timer := .fired }
  if started then
    let s ← s.transition id (if s.orphaned < s.maxOrphaned then .orphaned else .held)
    return s.update id fun call => { call with watching := true }
  else
    let s ← s.transition id .expired
    return { s with permits := (s.permits.cancelWaiter id).2 }

def retire (s : Scheduler) (id : Nat) : Except String Scheduler := do
  let s ← s.transition id (if s.stateOf id = some .held then .settled else .retired)
  return s.update id fun call => { call with watching := false }

/-- What an event does; an error is a transition that the table or the held list
refuses. -/
def run (s : Scheduler) : Event → Except String Scheduler
  | .runGated label => .ok (s.runGated label)
  | .claim id => s.claimPermit id
  | .admission id goes => s.resumeAdmitted id goes
  | .settle id => .ok (s.update id fun call => { call with operation := .settled })
  | .finish id => s.finish id
  | .deadline id => s.fire id
  | .reject id => .ok (s.update id fun call => { call with awaiting := .nothing })
  | .retire id => s.retire id

inductive Reach (maxConcurrent maxOrphaned : Nat) : Scheduler → Prop
  | start : Reach maxConcurrent maxOrphaned (new maxConcurrent maxOrphaned)
  | next {s after : Scheduler} {event : Event} : Reach maxConcurrent maxOrphaned s →
      s.Ready event = true → s.run event = .ok after → Reach maxConcurrent maxOrphaned after

end Scheduler

end NexTerminal.Scripts
