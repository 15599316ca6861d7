import NexTerminal.Library.Holders
import NexTerminal.Library.Text

/-! The pool of SSH connections and its leases (`sshConnectionPool.ts`). What was ever
created stays in a list, and is known by its place there. -/

namespace NexTerminal.Ssh

open Library

inductive ErrorReason
  | none
  | number (code : Nat)
  | text (reason : String)

structure ChannelError where
  message : String
  reason : ErrorReason := .none

def SSH_OPEN_ADMINISTRATIVELY_PROHIBITED : Nat := 1
def SSH_OPEN_CONNECT_FAILED : Nat := 2
def SSH_OPEN_UNKNOWN_CHANNEL_TYPE : Nat := 3
def SSH_OPEN_RESOURCE_SHORTAGE : Nat := 4

def FALLBACK_ALLOW_HINTS : List String :=
  ["administratively prohibited", "resource shortage", "too many sessions", "maxsessions", "channel limit",
    "no more sessions"]

def FALLBACK_DENY_HINTS : List String := ["connection refused", "connect failed", "unknown channel type"]

def hasAnyNeedle (text : String) (needles : List String) : Bool := needles.any (includes text)

structure PoolOptions where
  enabled : Bool
  idleTimeoutMs : Nat
  toLowerCase : String → String

def PoolOptions.isStaleConnectionError (options : PoolOptions) (error : ChannelError) : Bool :=
  includes (options.toLowerCase error.message) "not connected"

def fallbackForMessage (message : String) : Bool :=
  if message = "" then false
  else if hasAnyNeedle message FALLBACK_DENY_HINTS then false
  else hasAnyNeedle message FALLBACK_ALLOW_HINTS

def PoolOptions.shouldFallbackForChannelLimit (options : PoolOptions) (error : ChannelError) : Bool :=
  let byMessage := fallbackForMessage (options.toLowerCase error.message)
  match error.reason with
  | .number code =>
    if code = SSH_OPEN_ADMINISTRATIVELY_PROHIBITED ∨ code = SSH_OPEN_RESOURCE_SHORTAGE then true
    else if code = SSH_OPEN_CONNECT_FAILED ∨ code = SSH_OPEN_UNKNOWN_CHANNEL_TYPE then false
    else byMessage
  | .text reason =>
    let normalizedReason := options.toLowerCase reason
    if hasAnyNeedle normalizedReason FALLBACK_DENY_HINTS then false
    else if hasAnyNeedle normalizedReason FALLBACK_ALLOW_HINTS then true
    else byMessage
  | .none => byMessage

structure PoolEntry (S : Type) where
  server : S
  connection : Nat
  refCount : Int := 0
  healthy : Bool := true
  idleTimer : Bool := false
  /-- The listener for the close of the connection is registered. -/
  subscribed : Bool := true

/-- A `PooledSshConnection`, which uses the connection of its entry or its fallback. -/
structure Lease (S : Type) where
  server : S
  entry : Nat
  inner : Nat
  isReused : Bool
  disposed : Bool := false
  fallbackConnection : Option Nat := none
  fallbackUsed : Bool := false
  /-- The fallback has been asked for and is not there yet. -/
  fallbackPending : Bool := false
  opening : Nat := 0
  /-- Each listener with the connection that it is registered at. -/
  closeUnsubscribes : List (Nat × Nat) := []

def Lease.active {S : Type} (lease : Lease S) : Nat := lease.fallbackConnection.getD lease.inner

def Lease.holds {S : Type} (lease : Lease S) : Option Nat :=
  if lease.disposed || lease.fallbackConnection.isSome then none else some lease.entry

/-- How far a call of `createEntry` is: it connects, it has settled, and what was to
follow that has been done. -/
inductive Stage
  | connecting
  | settled (entry : Option Nat)
  | finished (entry : Option Nat)

structure Create (S : Type) where
  server : S
  stage : Stage := .connecting

/-- What a call of `connectWithContext` waits for. -/
inductive Call
  | create (promise : Nat)
  | entry (existing : Nat)
  | inner
  | done

inductive Origin
  | entry (entry : Nat)
  | fallback (lease : Nat)
  | standalone
  | refused
deriving DecidableEq

inductive PoolEvent (S : Type)
  | connected (server : S)
  | disconnected (server : S)

structure SshConnectionPool (S : Type) where
  options : PoolOptions
  entries : List (PoolEntry S) := []
  current : S → Option Nat := fun _ => none
  creates : List (Create S) := []
  pending : S → Option Nat := fun _ => none
  calls : List Call := []
  leases : List (Lease S) := []
  disposed : Bool := false
  origins : List Origin := []
  disposals : List Nat := []
  closed : List Nat := []
  listeners : Nat := 0
  /-- Each call of a listener that was registered through a lease, with the lease. -/
  notifications : List (Nat × Nat) := []
  events : List (PoolEvent S) := []

namespace SshConnectionPool

variable {S : Type} [DecidableEq S]

def put {V : Type} (map : S → Option V) (server : S) (value : Option V) : S → Option V :=
  fun other => if other = server then value else map other

def modifyEntry (pool : SshConnectionPool S) (e : Nat) (change : PoolEntry S → PoolEntry S) : SshConnectionPool S :=
  { pool with entries := pool.entries.modify e change }

def modifyLease (pool : SshConnectionPool S) (l : Nat) (change : Lease S → Lease S) : SshConnectionPool S :=
  { pool with leases := pool.leases.modify l change }

def emit (pool : SshConnectionPool S) (event : PoolEvent S) : SshConnectionPool S :=
  { pool with events := pool.events ++ [event] }

def disposeConnection (pool : SshConnectionPool S) (connection : Nat) : SshConnectionPool S :=
  { pool with disposals := pool.disposals ++ [connection] }

/-- A connection is there, which may have been closed since. -/
def connected (pool : SshConnectionPool S) (origin : Origin) (alreadyClosed : Bool) : SshConnectionPool S :=
  { pool with
    origins := pool.origins ++ [origin]
    closed := if alreadyClosed then pool.closed ++ [pool.origins.length] else pool.closed }

def cancelIdleTimer (pool : SshConnectionPool S) (e : Nat) : SshConnectionPool S :=
  pool.modifyEntry e ({ · with idleTimer := false })

def closeUnsubscribe (pool : SshConnectionPool S) (e : Nat) : SshConnectionPool S :=
  pool.modifyEntry e ({ · with subscribed := false })

def startIdleTimer (pool : SshConnectionPool S) (e : Nat) : SshConnectionPool S :=
  if pool.options.idleTimeoutMs = 0 then pool else pool.modifyEntry e ({ · with idleTimer := true })

def evictEntry (pool : SshConnectionPool S) (server : S) (e : Nat) (entry : PoolEntry S) : SshConnectionPool S :=
  let pool := (pool.cancelIdleTimer e).closeUnsubscribe e
  ({ pool with current := put pool.current server none }.disposeConnection entry.connection).emit (.disconnected server)

def retire (pool : SshConnectionPool S) (server : S) (e : Nat) : SshConnectionPool S :=
  let pool := (pool.cancelIdleTimer e).modifyEntry e ({ · with healthy := false })
  { pool with current := put pool.current server none }.emit (.disconnected server)

def softRemoveEntry (pool : SshConnectionPool S) (server : S) (e : Nat) (entry : PoolEntry S) : SshConnectionPool S :=
  let pool := pool.retire server e
  if entry.refCount = 0 then (pool.closeUnsubscribe e).disposeConnection entry.connection else pool

/-- `onRelease` of a lease that is on its entry. -/
def releaseEntry (pool : SshConnectionPool S) (e : Nat) : SshConnectionPool S :=
  match pool.entries[e]? with
  | none => pool
  | some entry =>
    let pool := pool.modifyEntry e ({ · with refCount := entry.refCount - 1 })
    if entry.refCount - 1 = 0 then
      if pool.current entry.server = some e then pool.startIdleTimer e
      else (pool.closeUnsubscribe e).disposeConnection entry.connection
    else pool

def grant (pool : SshConnectionPool S) (e : Nat) : SshConnectionPool S :=
  match pool.entries[e]? with
  | none => pool
  | some entry =>
    let pool := (pool.cancelIdleTimer e).modifyEntry e ({ · with refCount := entry.refCount + 1 })
    { pool with
      leases := pool.leases ++
        [{ server := entry.server, entry := e, inner := entry.connection, isReused := 1 < entry.refCount + 1 }] }

def addCall (pool : SshConnectionPool S) (call : Call) :
    SshConnectionPool S := { pool with calls := pool.calls ++ [call] }

/-- A call of `connectWithContext`, as far as its first await. -/
def connectWithContext (pool : SshConnectionPool S) (server : S) (multiplexing : Option Bool) : SshConnectionPool S :=
  if pool.disposed then pool.addCall .done
  else if !multiplexing.getD pool.options.enabled then pool.addCall .inner
  else
    let existing := (pool.current server).bind fun e => (pool.entries[e]?).map fun entry => (e, entry.healthy)
    match existing with
    | some (e, true) => pool.addCall (.entry e)
    | _ =>
      let pool :=
        match existing with
        | some (e, _) => ({ pool with current := put pool.current server none }.cancelIdleTimer e).closeUnsubscribe e
        | none => pool
      match pool.pending server with
      | some promise => pool.addCall (.create promise)
      | none =>
        addCall
          { pool with
            creates := pool.creates ++ [{ server := server }]
            pending := put pool.pending server (some pool.creates.length) }
          (.create pool.creates.length)

def setStage (pool : SshConnectionPool S) (promise : Nat) (stage : Stage) : SshConnectionPool S :=
  { pool with creates := pool.creates.modify promise ({ · with stage }) }

/-- The connection of `createEntry` is there, or could not be had. -/
def entryConnected (pool : SshConnectionPool S) (promise : Nat) (result : Option Bool) : SshConnectionPool S :=
  match pool.creates[promise]? with
  | some { server, stage := .connecting } =>
    match result with
    | none => pool.setStage promise (.settled none)
    | some alreadyClosed =>
      let connection := pool.origins.length
      if pool.disposed then
        ((pool.connected .refused alreadyClosed).disposeConnection connection).setStage promise (.settled none)
      else
        let e := pool.entries.length
        let pool := pool.connected (.entry e) alreadyClosed
        (emit
          { pool with
            entries := pool.entries ++ [{ server, connection }]
            current := put pool.current server (some e) }
          (.connected server)).setStage promise (.settled (some e))
  | _ => pool

/-- The `finally` of a pending connect. -/
def pendingSettled (pool : SshConnectionPool S) (promise : Nat) : SshConnectionPool S :=
  match pool.creates[promise]? with
  | some { server, stage := .settled entry } =>
    { pool with pending := put pool.pending server none }.setStage promise (.finished entry)
  | _ => pool

def endCall (pool : SshConnectionPool S) (call : Nat) : SshConnectionPool S :=
  { pool with calls := pool.calls.modify call fun _ => .done }

def callResumed (pool : SshConnectionPool S) (call : Nat) : SshConnectionPool S :=
  match pool.calls[call]? with
  | some (.entry e) => (pool.endCall call).grant e
  | some (.create promise) =>
    match pool.creates[promise]? with
    | some { stage := .finished (some e), .. } => (pool.endCall call).grant e
    | some { stage := .finished none, .. } => pool.endCall call
    | _ => pool
  | _ => pool

/-- The connection of a call that does not share one is there, or could not be had. -/
def innerConnected (pool : SshConnectionPool S) (call : Nat) (result : Option Bool) : SshConnectionPool S :=
  match pool.calls[call]? with
  | some .inner =>
    match result with
    | none => pool.endCall call
    | some alreadyClosed => (pool.endCall call).connected .standalone alreadyClosed
  | _ => pool

def disposeStandalone (pool : SshConnectionPool S) (connection : Nat) : SshConnectionPool S :=
  if pool.origins[connection]? = some .standalone then pool.disposeConnection connection else pool

def openChannel (pool : SshConnectionPool S) (l : Nat) : SshConnectionPool S :=
  match pool.leases[l]? with
  | some lease => if lease.disposed then pool else pool.modifyLease l fun lease =>
    { lease with opening := lease.opening + 1 }
  | none => pool

def channelOpened (pool : SshConnectionPool S) (l : Nat) : SshConnectionPool S :=
  pool.modifyLease l fun lease => { lease with opening := lease.opening - 1 }

def shouldAttemptFallback (options : PoolOptions) (lease : Lease S) (error : ChannelError) : Bool :=
  !lease.fallbackUsed &&
    (options.isStaleConnectionError error || lease.isReused && options.shouldFallbackForChannelLimit error)

/-- `createFallback` up to the connect. -/
def createFallback (pool : SshConnectionPool S) (lease : Lease S) : SshConnectionPool S :=
  if pool.current lease.server = some lease.entry then pool.retire lease.server lease.entry else pool

/-- The channel is refused, whether or not the lease has been disposed meanwhile. -/
def channelFailed (pool : SshConnectionPool S) (l : Nat) (error : ChannelError) : SshConnectionPool S :=
  match pool.leases[l]? with
  | none => pool
  | some lease =>
    if lease.opening = 0 then pool
    else
      let pool := pool.modifyLease l fun lease => { lease with opening := lease.opening - 1 }
      if shouldAttemptFallback pool.options lease error && !lease.fallbackPending then
        (pool.modifyLease l ({ · with fallbackPending := true })).createFallback lease
      else pool

/-- The fallback's connection is there, or could not be had. -/
def fallbackConnected (pool : SshConnectionPool S) (l : Nat) (result : Option Bool) : SshConnectionPool S :=
  match pool.leases[l]? with
  | none => pool
  | some lease =>
    if !lease.fallbackPending then pool
    else
      match result with
      | none => pool.modifyLease l ({ · with fallbackUsed := true, fallbackPending := false })
      | some alreadyClosed =>
        let fallback := pool.origins.length
        ((pool.connected (.fallback l) alreadyClosed).modifyLease l
          ({ · with
            fallbackConnection := some fallback, fallbackUsed := true, fallbackPending := false })).releaseEntry
            lease.entry

def disposeLease (pool : SshConnectionPool S) (l : Nat) : SshConnectionPool S :=
  match pool.leases[l]? with
  | none => pool
  | some lease =>
    if lease.disposed then pool
    else
      let pool := pool.modifyLease l ({ · with disposed := true, closeUnsubscribes := [] })
      match lease.fallbackConnection with
      | some fallback => pool.disposeConnection fallback
      | none => pool.releaseEntry lease.entry

def onClose (pool : SshConnectionPool S) (l : Nat) : SshConnectionPool S :=
  match pool.leases[l]? with
  | some lease =>
    if lease.disposed then pool
    else
      { pool.modifyLease l ({ · with closeUnsubscribes := lease.closeUnsubscribes ++
        [(pool.listeners, lease.active)] }) with
        listeners := pool.listeners + 1 }
  | none => pool

/-- The function that `onClose` returned is called. -/
def unsubscribe (pool : SshConnectionPool S) (l listener : Nat) : SshConnectionPool S :=
  pool.modifyLease l fun lease =>
    { lease with closeUnsubscribes := lease.closeUnsubscribes.filter (·.1 ≠ listener) }

/-- The leases' listeners that are registered at a connection. -/
def notified (pool : SshConnectionPool S) (connection : Nat) : List (Nat × Nat) :=
  (pool.leases.mapIdx fun l lease => (lease.closeUnsubscribes.filter (·.2 = connection)).map fun listens =>
    (l, listens.1)).flatten

/-- A connection closes, by itself or because it was disposed. -/
def connectionClosed (pool : SshConnectionPool S) (connection : Nat) : SshConnectionPool S :=
  if connection < pool.origins.length ∧ connection ∉ pool.closed then
    let pool : SshConnectionPool S :=
      { pool with
        closed := pool.closed ++ [connection]
        notifications := pool.notifications ++ pool.notified connection }
    match pool.origins[connection]? with
    | some (.entry e) =>
      match pool.entries[e]? with
      | some entry =>
        if entry.subscribed then
          let pool := (pool.modifyEntry e ({ · with healthy := false })).cancelIdleTimer e
          if pool.current entry.server = some e then
            { pool with current := put pool.current entry.server none }.emit (.disconnected entry.server)
          else pool
        else pool
      | none => pool
    | _ => pool
  else pool

def idleTimeout (pool : SshConnectionPool S) (e : Nat) : SshConnectionPool S :=
  match pool.entries[e]? with
  | none => pool
  | some entry =>
    if !entry.idleTimer then pool
    else
      let pool := pool.cancelIdleTimer e
      if entry.refCount = 0 ∧ pool.current entry.server = some e then pool.evictEntry entry.server e entry else pool

def lookup (pool : SshConnectionPool S) (server : S) : Option (Nat × PoolEntry S) :=
  (pool.current server).bind fun e => (pool.entries[e]?).map (e, ·)

def disconnect (pool : SshConnectionPool S) (server : S) : SshConnectionPool S :=
  match pool.lookup server with
  | some (e, entry) => pool.evictEntry server e entry
  | none => pool

def invalidate (pool : SshConnectionPool S) (server : S) : SshConnectionPool S :=
  match pool.lookup server with
  | some (e, entry) => pool.softRemoveEntry server e entry
  | none => pool

def pooled (pool : SshConnectionPool S) (e : Nat) (entry : PoolEntry S) : Bool := pool.current entry.server = some e

def dispose (pool : SshConnectionPool S) : SshConnectionPool S :=
  if pool.disposed then pool
  else
    { pool with
      disposed := true
      entries := pool.entries.mapIdx fun e entry =>
        if pool.pooled e entry then { entry with idleTimer := false, subscribed := false } else entry
      disposals := pool.disposals ++
        (pool.entries.mapIdx fun e entry => if pool.pooled e entry then [entry.connection] else []).flatten
      events := pool.events ++
        (pool.entries.mapIdx fun e entry => if pool.pooled e entry then [.disconnected entry.server] else []).flatten
      current := fun _ => none
      pending := fun _ => none }

end SshConnectionPool

/-- What happens to a pool and its leases. The connects tell whether there is a connection,
and whether it has been closed before anybody could look. -/
inductive PoolAct (S : Type)
  | connectWithContext (server : S) (multiplexing : Option Bool)
  | entryConnected (promise : Nat) (result : Option Bool)
  | pendingSettled (promise : Nat)
  | callResumed (call : Nat)
  | innerConnected (call : Nat) (result : Option Bool)
  | disposeStandalone (connection : Nat)
  | openChannel (lease : Nat)
  | channelOpened (lease : Nat)
  | channelFailed (lease : Nat) (error : ChannelError)
  | fallbackConnected (lease : Nat) (result : Option Bool)
  | disposeLease (lease : Nat)
  | onClose (lease : Nat)
  | unsubscribe (lease listener : Nat)
  | connectionClosed (connection : Nat)
  | idleTimeout (entry : Nat)
  | disconnect (server : S)
  | invalidate (server : S)
  | dispose

namespace SshConnectionPool

variable {S : Type} [DecidableEq S]

def step (pool : SshConnectionPool S) : PoolAct S → SshConnectionPool S
  | .connectWithContext server multiplexing => pool.connectWithContext server multiplexing
  | .entryConnected promise result => pool.entryConnected promise result
  | .pendingSettled promise => pool.pendingSettled promise
  | .callResumed call => pool.callResumed call
  | .innerConnected call result => pool.innerConnected call result
  | .disposeStandalone connection => pool.disposeStandalone connection
  | .openChannel lease => pool.openChannel lease
  | .channelOpened lease => pool.channelOpened lease
  | .channelFailed lease error => pool.channelFailed lease error
  | .fallbackConnected lease result => pool.fallbackConnected lease result
  | .disposeLease lease => pool.disposeLease lease
  | .onClose lease => pool.onClose lease
  | .unsubscribe lease listener => pool.unsubscribe lease listener
  | .connectionClosed connection => pool.connectionClosed connection
  | .idleTimeout entry => pool.idleTimeout entry
  | .disconnect server => pool.disconnect server
  | .invalidate server => pool.invalidate server
  | .dispose => pool.dispose

def run (pool : SshConnectionPool S) (acts : List (PoolAct S)) : SshConnectionPool S := acts.foldl step pool

end SshConnectionPool

end NexTerminal.Ssh
