import NexTerminal.Library.SeqMap

namespace NexTerminal.Daemon

open Library

def maxServiceWorkflowOperations : Nat := 32

inductive WorkflowStage
  /-- `Promise.all(previous)` has not called the operation yet. -/
  | waiting
  | running
  /-- The promise of the operation is resolved or rejected. -/
  | ended (resolved : Bool)
  | settled
  | removed
deriving DecidableEq

namespace WorkflowStage

def finished : WorkflowStage → Bool
  | settled | removed => true
  | _ => false

def complete : WorkflowStage → Bool
  | waiting | running => false
  | _ => true

def left : WorkflowStage → Nat
  | waiting => 4
  | running => 3
  | ended _ => 2
  | settled => 1
  | removed => 0

end WorkflowStage

structure Workflow where
  keys : List String
  /-- The operations whose tails it waits for. A key without a tail gives a resolved promise. -/
  previous : List Nat
  stage : WorkflowStage := .waiting
deriving DecidableEq

structure WorkflowDrain where
  /-- How many operations had been accepted before the call. -/
  before : Nat
  awaited : List Nat
  resolved : Bool := false
deriving DecidableEq

inductive Submission
  | accepted (operation : Nat)
  | shuttingDown
  | serverBusy
deriving DecidableEq

structure ServiceWorkflowQueue where
  queues : SeqMap String Nat := .empty
  accepted : SeqSet Nat := .empty
  closing : Bool := false
  operations : List Workflow := []
  calls : List Nat := []
  drains : List WorkflowDrain := []

namespace ServiceWorkflowQueue

-- the collation of the host
variable (localeCompare : String → String → Int)

def compareKeys (left right : String) : Int :=
  let rank (id : String) : Int := if id = "tftp" then 0 else if id = "dhcp" then 1 else 2
  if rank left - rank right ≠ 0 then rank left - rank right else localeCompare left right

def canonicalKeys (ids : List String) : List String :=
  (SeqSet.ofList ids).items.mergeSort fun left right => compareKeys localeCompare left right ≤ 0

def close (queue : ServiceWorkflowQueue) : ServiceWorkflowQueue := { queue with closing := true }

def enqueueMany (queue : ServiceWorkflowQueue) (ids : List String) : ServiceWorkflowQueue × Submission :=
  if queue.closing then (queue, .shuttingDown)
  else if maxServiceWorkflowOperations ≤ queue.accepted.items.length then (queue, .serverBusy)
  else
    let keys := canonicalKeys localeCompare ids
    let settled := queue.operations.length
    ({ queue with
        operations := queue.operations ++ [{ keys, previous := keys.filterMap queue.queues.get? }]
        accepted := queue.accepted.add settled
        queues := keys.foldl (fun queues id => queues.set id settled) queue.queues }, .accepted settled)

def enqueue (queue : ServiceWorkflowQueue) (id : String) : ServiceWorkflowQueue × Submission :=
  queue.enqueueMany localeCompare [id]

def read (queue : ServiceWorkflowQueue) (id : String) : ServiceWorkflowQueue × Submission :=
  queue.enqueue localeCompare id

def readMany (queue : ServiceWorkflowQueue) (ids : List String) : ServiceWorkflowQueue × Submission :=
  queue.enqueueMany localeCompare ids

def drain (queue : ServiceWorkflowQueue) : ServiceWorkflowQueue :=
  { queue with drains := queue.drains ++ [{ before := queue.operations.length, awaited := queue.accepted.items }] }

def stage (queue : ServiceWorkflowQueue) (operation : Nat) : Option WorkflowStage :=
  queue.operations[operation]?.map Workflow.stage

def finished (queue : ServiceWorkflowQueue) (operation : Nat) : Bool :=
  (queue.stage operation).any WorkflowStage.finished

def setStage (queue : ServiceWorkflowQueue) (operation : Nat) (stage : WorkflowStage) : ServiceWorkflowQueue :=
  { queue with operations := queue.operations.modify operation fun workflow => { workflow with stage } }

def forget (queue : ServiceWorkflowQueue) (operation : Nat) (keys : List String) : ServiceWorkflowQueue :=
  { queue with
    accepted := queue.accepted.erase operation
    queues := keys.foldl (fun queues id => if queues.get? id = some operation then queues.erase id else queues)
      queue.queues }

inductive WorkflowAct
  | close
  | enqueue (id : String)
  | enqueueMany (ids : List String)
  | read (id : String)
  | readMany (ids : List String)
  | drain
  | finish (operation : Nat) (resolved : Bool)
  | start (operation : Nat)
  | settle (operation : Nat)
  | remove (operation : Nat)
  | drained (drain : Nat)

/-- Acts that the host performs by itself once they are due. -/
def WorkflowAct.internal : WorkflowAct → Bool
  | start _ | settle _ | remove _ | drained _ => true
  | _ => false

def step (queue : ServiceWorkflowQueue) : WorkflowAct → ServiceWorkflowQueue
  | .close => queue.close
  | .enqueue id => (queue.enqueue localeCompare id).1
  | .enqueueMany ids => (queue.enqueueMany localeCompare ids).1
  | .read id => (queue.read localeCompare id).1
  | .readMany ids => (queue.readMany localeCompare ids).1
  | .drain => queue.drain
  | .finish operation resolved =>
    if queue.stage operation = some .running then queue.setStage operation (.ended resolved) else queue
  | .start operation =>
    match queue.operations[operation]? with
    | some { stage := .waiting, previous, .. } =>
      if previous.all queue.finished then
        { queue.setStage operation .running with calls := queue.calls ++ [operation] }
      else queue
    | _ => queue
  | .settle operation =>
    match queue.stage operation with
    | some (.ended _) => queue.setStage operation .settled
    | _ => queue
  | .remove operation =>
    match queue.operations[operation]? with
    | some { stage := .settled, keys, .. } => (queue.setStage operation .removed).forget operation keys
    | _ => queue
  | .drained drain =>
    match queue.drains[drain]? with
    | some { resolved := false, awaited, .. } =>
      if awaited.all queue.finished then
        { queue with drains := queue.drains.modify drain fun held => { held with resolved := true } }
      else queue
    | _ => queue

def run (queue : ServiceWorkflowQueue) (acts : List WorkflowAct) : ServiceWorkflowQueue :=
  acts.foldl (step localeCompare) queue

end ServiceWorkflowQueue

end NexTerminal.Daemon
