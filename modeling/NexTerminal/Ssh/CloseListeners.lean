import Mathlib.Data.List.Nodup
import NexTerminal.Ssh.PoolInvariant

namespace NexTerminal.Ssh

open Library

variable {S : Type}

/-- What holds of a lease and its listeners. One may be at the connection the lease has left if both have closed. -/
structure Lease.Heard (lease : Lease S) (connections listeners : Nat) (closed : List Nat) : Prop where
  steady : lease.Steady
  inner : lease.inner < connections
  ids : (lease.closeUnsubscribes.map (·.1)).Nodup
  fresh : ∀ listens ∈ lease.closeUnsubscribes, listens.1 < listeners
  bound : ∀ listens ∈ lease.closeUnsubscribes, listens.2 = lease.active ∨ listens.2 ∈ closed ∧
    lease.active ∈ closed
  quiet : lease.disposed = true → lease.closeUnsubscribes = []

namespace Lease.Heard

variable {lease : Lease S} {connections listeners : Nat} {closed : List Nat}

theorem mono (heard : lease.Heard connections listeners closed) {more later : Nat} {others : List Nat}
    (grows : connections ≤ more) (counts : listeners ≤ later) (closes : ∀ c ∈ closed, c ∈ others) :
    lease.Heard more later others where
  steady := heard.steady
  inner := heard.inner.trans_le grows
  ids := heard.ids
  fresh listens member := (heard.fresh listens member).trans_le counts
  bound listens member := (heard.bound listens member).imp id (And.imp (closes _) (closes _))
  quiet := heard.quiet

end Lease.Heard

namespace SshConnectionPool

variable {pool after : SshConnectionPool S}

structure Heard (pool : SshConnectionPool S) : Prop where
  entries : ∀ connection ∈ pool.entries.map (·.connection), connection < pool.origins.length
  closed : ∀ connection ∈ pool.closed, connection < pool.origins.length
  lease : ∀ ⦃l : Nat⦄ ⦃lease : Lease S⦄, pool.leases[l]? = some lease →
    lease.Heard pool.origins.length pool.listeners pool.closed

namespace Heard

section

variable (heard : pool.Heard)
include heard

theorem of_same (entries : after.entries.map (·.connection) = pool.entries.map (·.connection))
    (origins : pool.origins.length ≤ after.origins.length) (closed : ∃ more, after.closed = pool.closed ++ more ∧
      ∀ conn ∈ more, conn < after.origins.length) (leases : after.leases = pool.leases)
    (listeners : after.listeners = pool.listeners) : after.Heard := by
  obtain ⟨more, closed, within⟩ := closed
  refine ⟨fun conn mem => ?_, fun conn mem => ?_, fun l lease hit => ?_⟩
  · rw [entries] at mem
    exact (heard.entries conn mem).trans_le origins
  · rw [closed] at mem
    rcases List.mem_append.mp mem with old | new
    · exact (heard.closed conn old).trans_le origins
    · exact within conn new
  · rw [leases] at hit
    rw [listeners, closed]
    exact (heard.lease hit).mono origins le_rfl fun _ => List.mem_append_left more

theorem of_quiet (entries : after.entries.map (·.connection) = pool.entries.map (·.connection))
    (origins : after.origins = pool.origins) (closed : after.closed = pool.closed)
    (leases : after.leases = pool.leases) (listeners : after.listeners = pool.listeners) : after.Heard :=
  heard.of_same entries (by rw [origins]) ⟨[], by rw [closed, List.append_nil], nofun⟩ leases listeners

theorem modifyEntry (e : Nat) {change : PoolEntry S → PoolEntry S}
    (same : ∀ entry, (change entry).connection = entry.connection) : (pool.modifyEntry e change).Heard :=
  heard.of_quiet (map_modify_same same _ _) rfl rfl rfl rfl

theorem modifyLease (l : Nat) {change : Lease S → Lease S}
    (kept : ∀ lease, pool.leases[l]? = some lease → lease.Heard pool.origins.length pool.listeners pool.closed →
      (change lease).Heard pool.origins.length pool.listeners pool.closed) : (pool.modifyLease l change).Heard := by
  refine ⟨heard.entries, heard.closed, fun k lease now => ?_⟩
  obtain ⟨old, was, rfl⟩ := exists_of_modify now
  split_ifs with here
  · subst here
    exact kept old was (heard.lease was)
  · exact heard.lease was

theorem connected (origin : Origin) (alreadyClosed : Bool) : (pool.connected origin alreadyClosed).Heard := by
  have grows : pool.origins.length ≤ (pool.origins ++ [origin]).length := by simp
  refine heard.of_same rfl grows ⟨pool.closedAtOnce alreadyClosed, ?_, fun conn mem => ?_⟩ rfl rfl
  · cases alreadyClosed
    · exact (List.append_nil _).symm
    · rfl
  · show conn < (pool.origins ++ [origin]).length
    unfold closedAtOnce at mem
    split_ifs at mem
    · rw [List.mem_singleton.mp mem]
      simp
    · cases mem

theorem cancelIdleTimer (e : Nat) : (pool.cancelIdleTimer e).Heard := heard.modifyEntry e fun _ => rfl

theorem closeUnsubscribe (e : Nat) : (pool.closeUnsubscribe e).Heard := heard.modifyEntry e fun _ => rfl

theorem startIdleTimer (e : Nat) : (pool.startIdleTimer e).Heard := by
  unfold SshConnectionPool.startIdleTimer
  split_ifs
  · exact heard
  · exact heard.modifyEntry e fun _ => rfl

theorem disposeConnection (conn : Nat) : (pool.disposeConnection conn).Heard :=
  heard.of_quiet rfl rfl rfl rfl rfl

theorem releaseEntry (e : Nat) : (pool.releaseEntry e).Heard := by
  unfold SshConnectionPool.releaseEntry
  split
  · exact heard
  case h_2 entry hit =>
    have counted : (pool.modifyEntry e ({ · with refCount := entry.refCount - 1 })).Heard :=
      heard.modifyEntry e fun _ => rfl
    dsimp only
    split_ifs
    · exact counted.startIdleTimer e
    · exact (counted.closeUnsubscribe e).disposeConnection _
    · exact counted

theorem grant (e : Nat) : (pool.grant e).Heard := by
  unfold SshConnectionPool.grant
  split
  · exact heard
  case h_2 entry hit =>
    have counted : ((pool.cancelIdleTimer e).modifyEntry e ({ · with refCount := entry.refCount + 1 })).Heard :=
      (heard.cancelIdleTimer e).modifyEntry e fun _ => rfl
    refine ⟨counted.entries, counted.closed, fun l lease now => ?_⟩
    rcases getElem?_snoc now with was | ⟨_, rfl⟩
    · exact counted.lease was
    · refine ⟨.inl rfl, ?_, List.nodup_nil, nofun, nofun, fun _ => rfl⟩
      exact heard.entries _ (List.mem_map_of_mem (List.mem_of_getElem? hit))

theorem elsewhere (same : after.entries = pool.entries) (origins : after.origins = pool.origins)
    (closed : after.closed = pool.closed) (leases : after.leases = pool.leases)
    (listeners : after.listeners = pool.listeners) : after.Heard :=
  heard.of_quiet (by rw [same]) origins closed leases listeners

end

section Map

variable [DecidableEq S]

section

variable (heard : pool.Heard)
include heard

theorem retire (server : S) (e : Nat) : (pool.retire server e).Heard := by
  have marked : ((pool.cancelIdleTimer e).modifyEntry e ({ · with healthy := false })).Heard :=
    (heard.cancelIdleTimer e).modifyEntry e fun _ => rfl
  exact marked.elsewhere rfl rfl rfl rfl rfl

theorem evictEntry (server : S) (e : Nat) (entry : PoolEntry S) : (pool.evictEntry server e entry).Heard :=
  ((heard.cancelIdleTimer e).closeUnsubscribe e).elsewhere rfl rfl rfl rfl rfl

theorem softRemoveEntry (server : S) (e : Nat) (entry : PoolEntry S) :
    (pool.softRemoveEntry server e entry).Heard := by
  unfold SshConnectionPool.softRemoveEntry
  split_ifs
  · exact ((heard.retire server e).closeUnsubscribe e).disposeConnection _
  · exact heard.retire server e

theorem connectWithContext (server : S) (multiplexing : Option Bool) :
    (pool.connectWithContext server multiplexing).Heard := by
  unfold SshConnectionPool.connectWithContext
  dsimp only
  split_ifs
  · exact heard.elsewhere rfl rfl rfl rfl rfl
  · exact heard.elsewhere rfl rfl rfl rfl rfl
  · split
    · exact heard.elsewhere rfl rfl rfl rfl rfl
    · have cleared : ({ pool with current := put pool.current server none } : SshConnectionPool S).Heard :=
        heard.elsewhere rfl rfl rfl rfl rfl
      have removed (e : Nat) := (cleared.cancelIdleTimer e).closeUnsubscribe e
      split <;> split <;> first
        | exact heard.elsewhere rfl rfl rfl rfl rfl
        | exact (removed _).elsewhere rfl rfl rfl rfl rfl

theorem entryConnected (promise : Nat) (res : Option Bool) : (pool.entryConnected promise res).Heard := by
  unfold SshConnectionPool.entryConnected
  split
  case h_2 => exact heard
  case h_1 server hit =>
    cases res with
    | none => exact heard.elsewhere rfl rfl rfl rfl rfl
    | some alreadyClosed =>
      split_ifs
      · exact (heard.connected .refused alreadyClosed).elsewhere rfl rfl rfl rfl rfl
      · have there := heard.connected (.entry pool.entries.length) alreadyClosed
        refine ⟨fun conn mem => ?_, there.closed, there.lease⟩
        obtain ⟨entry, inside, rfl⟩ := List.mem_map.mp mem
        rcases List.mem_append.mp inside with old | new
        · exact there.entries _ (List.mem_map_of_mem old)
        · rw [List.mem_singleton.mp new]
          show pool.origins.length < (pool.origins ++ [_]).length
          simp

theorem pendingSettled (promise : Nat) : (pool.pendingSettled promise).Heard := by
  unfold SshConnectionPool.pendingSettled
  split
  · exact heard.elsewhere rfl rfl rfl rfl rfl
  · exact heard

theorem disconnect (server : S) : (pool.disconnect server).Heard := by
  unfold SshConnectionPool.disconnect
  split
  · exact heard.evictEntry _ _ _
  · exact heard

theorem invalidate (server : S) : (pool.invalidate server).Heard := by
  unfold SshConnectionPool.invalidate
  split
  · exact heard.softRemoveEntry _ _ _
  · exact heard

theorem idleTimeout (e : Nat) : (pool.idleTimeout e).Heard := by
  unfold SshConnectionPool.idleTimeout
  split
  · exact heard
  · dsimp only
    split_ifs
    · exact heard
    · exact (heard.cancelIdleTimer e).evictEntry _ _ _
    · exact heard.cancelIdleTimer e

end

omit [DecidableEq S] in
theorem dispose (heard : pool.Heard) : pool.dispose.Heard := by
  unfold SshConnectionPool.dispose
  split_ifs
  · exact heard
  · refine heard.of_quiet ?_ rfl rfl rfl rfl
    refine List.ext_getElem? fun e => ?_
    simp only [List.getElem?_map, List.getElem?_mapIdx, Option.map_map]
    congr 1
    funext entry
    simp only [Function.comp_apply]
    split_ifs <;> rfl

theorem connectionClosed (heard : pool.Heard) (conn : Nat) : (pool.connectionClosed conn).Heard := by
  unfold SshConnectionPool.connectionClosed
  split_ifs with open_
  case neg => exact heard
  have closed : ({ pool with
      closed := pool.closed ++ [conn]
      notifications := pool.notifications ++ pool.notified conn } : SshConnectionPool S).Heard := by
    refine heard.of_same rfl le_rfl ⟨[conn], rfl, fun other mem => ?_⟩ rfl rfl
    rw [List.mem_singleton.mp mem]
    exact open_.1
  have down (e : Nat) : ((SshConnectionPool.modifyEntry { pool with
      closed := pool.closed ++ [conn]
      notifications := pool.notifications ++ pool.notified conn } e ({ · with healthy := false })).cancelIdleTimer
        e).Heard := by
    refine cancelIdleTimer ?_ e
    exact closed.modifyEntry e fun _ => rfl
  dsimp only
  split
  · split
    · split_ifs
      · exact (down _).elsewhere rfl rfl rfl rfl rfl
      · exact down _
      · exact closed
    · exact closed
  · exact closed

end Map

section

variable (heard : pool.Heard)
include heard

theorem callResumed (call : Nat) : (pool.callResumed call).Heard := by
  have ended : (pool.endCall call).Heard := heard.elsewhere rfl rfl rfl rfl rfl
  unfold SshConnectionPool.callResumed
  split
  · exact ended.grant _
  · split
    · exact ended.grant _
    · exact ended
    · exact heard
  · exact heard

theorem innerConnected (call : Nat) (res : Option Bool) : (pool.innerConnected call res).Heard := by
  have ended : (pool.endCall call).Heard := heard.elsewhere rfl rfl rfl rfl rfl
  unfold SshConnectionPool.innerConnected
  split
  · cases res with
    | none => exact ended
    | some alreadyClosed => exact ended.connected _ _
  · exact heard

theorem disposeStandalone (conn : Nat) : (pool.disposeStandalone conn).Heard := by
  unfold SshConnectionPool.disposeStandalone
  split_ifs
  · exact heard.disposeConnection conn
  · exact heard

theorem openChannel (l : Nat) : (pool.openChannel l).Heard := by
  unfold SshConnectionPool.openChannel
  split
  · split_ifs
    · exact heard
    · exact heard.modifyLease l fun lease _ same => { same with }
  · exact heard

theorem channelOpened (l : Nat) : (pool.channelOpened l).Heard :=
  heard.modifyLease l fun _ _ same => { same with }

theorem channelFailed [DecidableEq S] (l : Nat) (error : ChannelError) : (pool.channelFailed l error).Heard := by
  unfold SshConnectionPool.channelFailed
  split
  · exact heard
  case h_2 lease held =>
    have refused : (pool.modifyLease l fun lease => { lease with opening := lease.opening - 1 }).Heard :=
      heard.modifyLease l fun _ _ same => { same with }
    dsimp only
    split_ifs with unasked falls
    · exact heard
    · simp only [Bool.and_eq_true] at falls
      have unused : lease.fallbackUsed = false := by
        have attempts := falls.1
        unfold shouldAttemptFallback at attempts
        simp only [Bool.and_eq_true, Bool.not_eq_true'] at attempts
        exact attempts.1
      have asked : ((pool.modifyLease l fun lease => { lease with opening := lease.opening - 1 }).modifyLease l
          ({ · with fallbackPending := true })).Heard := by
        refine refused.modifyLease l fun other hit same => { same with steady := .inl ?_ }
        obtain ⟨old, was, rfl⟩ := exists_of_modify hit
        obtain rfl := Option.mem_unique held was
        rw [if_pos rfl]
        refine (heard.lease held).steady.resolve_right fun settled => ?_
        rw [unused] at settled
        exact Bool.false_ne_true settled.1
      unfold createFallback
      split_ifs
      · exact asked.retire _ _
      · exact asked
    · exact refused

theorem disposeLease (l : Nat) : (pool.disposeLease l).Heard := by
  unfold SshConnectionPool.disposeLease
  split
  · exact heard
  · have gone : (pool.modifyLease l ({ · with disposed := true, closeUnsubscribes := [] })).Heard :=
      heard.modifyLease l fun _ _ same => ⟨same.steady, same.inner, List.nodup_nil, nofun, nofun, fun _ => rfl⟩
    split_ifs
    · exact heard
    · split
      · exact gone.disposeConnection _
      · exact gone.releaseEntry _

theorem unsubscribe (l listener : Nat) : (pool.unsubscribe l listener).Heard := by
  refine heard.modifyLease l fun lease _ same => ⟨same.steady, same.inner, ?_, fun listens mem => ?_,
    fun listens mem => ?_, fun disposed => ?_⟩
  · exact same.ids.sublist (List.filter_sublist.map _)
  · exact same.fresh listens (List.mem_filter.mp mem).1
  · exact same.bound listens (List.mem_filter.mp mem).1
  · rw [same.quiet disposed, List.filter_nil]

theorem onClose (l : Nat) : (pool.onClose l).Heard := by
  unfold SshConnectionPool.onClose
  split
  case h_2 => exact heard
  case h_1 lease held =>
    split_ifs with disposed
    · exact heard
    · have counted : ({ pool with listeners := pool.listeners + 1 } : SshConnectionPool S).Heard :=
        ⟨heard.entries, heard.closed, fun _ _ hit => (heard.lease hit).mono le_rfl (Nat.le_succ _) fun _ => id⟩
      refine counted.modifyLease l fun other hit _ => ?_
      obtain rfl := Option.mem_unique held hit
      have same := heard.lease held
      refine ⟨same.steady, same.inner, ?_, fun listens mem => ?_, fun listens mem => ?_, fun gone => ?_⟩
      · rw [List.map_append, List.map_singleton]
        refine List.nodup_append.mpr ⟨same.ids, List.nodup_singleton _, fun listener old other new => ?_⟩
        obtain ⟨listens, mem, rfl⟩ := List.mem_map.mp old
        have below := same.fresh listens mem
        rw [List.mem_singleton.mp new]
        exact Nat.ne_of_lt below
      · rcases List.mem_append.mp mem with old | new
        · exact (same.fresh listens old).trans (Nat.lt_succ_self _)
        · rw [List.mem_singleton.mp new]
          exact Nat.lt_succ_self _
      · rcases List.mem_append.mp mem with old | new
        · exact same.bound listens old
        · rw [List.mem_singleton.mp new]
          exact .inl rfl
      · exact absurd gone disposed

theorem fallbackConnected (l : Nat) (res : Option Bool)
    (clear : ∀ lease alreadyClosed, pool.leases[l]? = some lease → res = some alreadyClosed →
      lease.fallbackPending = true → lease.closeUnsubscribes ≠ [] →
      alreadyClosed = true ∧ lease.inner ∈ pool.closed) : (pool.fallbackConnected l res).Heard := by
  unfold SshConnectionPool.fallbackConnected
  split
  · exact heard
  case h_2 lease held =>
    split_ifs with unasked
    · exact heard
    · have pending : lease.fallbackPending = true := by simpa using unasked
      have unmoved : lease.fallbackConnection = none := by
        refine (heard.lease held).steady.resolve_right fun settled => ?_
        rw [pending] at settled
        exact Bool.false_ne_true settled.2.symm
      cases res with
      | none =>
        exact heard.modifyLease l fun _ _ same =>
          { same with steady := same.steady.imp id fun _ => ⟨rfl, rfl⟩ }
      | some alreadyClosed =>
        refine ((heard.connected (.fallback l) alreadyClosed).modifyLease l fun other hit same => ?_).releaseEntry _
        obtain rfl := Option.mem_unique held hit
        refine ⟨.inr ⟨rfl, rfl⟩, same.inner, same.ids, same.fresh, fun listens mem => .inr ?_, same.quiet⟩
        obtain ⟨rfl, gone⟩ := clear lease alreadyClosed held rfl pending (List.ne_nil_of_mem mem)
        refine ⟨?_, List.mem_append_right _ (List.mem_singleton_self _)⟩
        rcases (heard.lease held).bound listens mem with at_inner | ⟨closed, _⟩
        · rw [Lease.active, unmoved, Option.getD_none] at at_inner
          rw [at_inner]
          exact List.mem_append_left _ gone
        · exact List.mem_append_left _ closed

end

end Heard

variable [DecidableEq S]

/-- A lease with listeners moves to its fallback, and its old connection or its new one is
still open. -/
def Stray (pool : SshConnectionPool S) : PoolAct S → Prop
  | .fallbackConnected l (some alreadyClosed) =>
    ∃ lease, pool.leases[l]? = some lease ∧ lease.fallbackPending = true ∧
      lease.closeUnsubscribes ≠ [] ∧ (alreadyClosed = false ∨ lease.inner ∉ pool.closed)
  | _ => False

/-- Every careful step keeps the listeners where closes are heard. -/
theorem step_heard (heard : pool.Heard) (act : PoolAct S) (careful : ¬ pool.Stray act) : (pool.step act).Heard := by
  cases act with
  | connectWithContext server multiplexing => exact heard.connectWithContext server multiplexing
  | entryConnected promise res => exact heard.entryConnected promise res
  | pendingSettled promise => exact heard.pendingSettled promise
  | callResumed call => exact heard.callResumed call
  | innerConnected call res => exact heard.innerConnected call res
  | disposeStandalone conn => exact heard.disposeStandalone conn
  | openChannel lease => exact heard.openChannel lease
  | channelOpened lease => exact heard.channelOpened lease
  | channelFailed l error => exact heard.channelFailed l error
  | fallbackConnected l res =>
    refine heard.fallbackConnected l res fun lease alreadyClosed held connected pending listens => ?_
    rw [connected] at careful
    by_contra either
    refine careful ⟨lease, held, pending, listens, ?_⟩
    rw [not_and_or] at either
    exact either.imp Bool.eq_false_iff.mpr id
  | disposeLease lease => exact heard.disposeLease lease
  | onClose lease => exact heard.onClose lease
  | unsubscribe lease listener => exact heard.unsubscribe lease listener
  | connectionClosed conn => exact heard.connectionClosed conn
  | idleTimeout entry => exact heard.idleTimeout entry
  | disconnect server => exact heard.disconnect server
  | invalidate server => exact heard.invalidate server
  | dispose => exact heard.dispose

def Closes (pool : SshConnectionPool S) (act : PoolAct S) (connection : Nat) : Prop :=
  act = .connectionClosed connection ∧ connection < pool.origins.length ∧ connection ∉ pool.closed

/-- Listeners registered through a lease are called if and only if the connection it uses closes. -/
def Heeded (pool : SshConnectionPool S) : Prop :=
  ∀ act, ∃ new, (pool.step act).notifications = pool.notifications ++ new ∧
    ∀ (l : Nat) (lease : Lease S), pool.leases[l]? = some lease → lease.disposed = false →
      ∀ listens ∈ lease.closeUnsubscribes, (l, listens.1) ∈ new ↔ pool.Closes act lease.active

omit [DecidableEq S] in
theorem mem_notified {l : Nat} {lease : Lease S} (held : pool.leases[l]? = some lease)
    (nodup : (lease.closeUnsubscribes.map (·.1)).Nodup) {listens : Nat × Nat}
    (mem : listens ∈ lease.closeUnsubscribes) (connection : Nat) :
    (l, listens.1) ∈ pool.notified connection ↔ listens.2 = connection := by
  unfold notified
  rw [List.mem_flatten]
  constructor
  · rintro ⟨calls, inside, called⟩
    obtain ⟨k, at_k⟩ : ∃ k : Nat, _ := List.mem_iff_getElem?.mp inside
    rw [List.getElem?_mapIdx, Option.map_eq_some_iff] at at_k
    obtain ⟨other, hit, rfl⟩ := at_k
    obtain ⟨same, kept, pair⟩ := List.mem_map.mp called
    obtain ⟨rfl, ids⟩ := Prod.mk.inj pair
    obtain rfl := Option.mem_unique held hit
    obtain ⟨also, here⟩ := List.mem_filter.mp kept
    have one := List.inj_on_of_nodup_map nodup also mem ids
    rw [← one]
    simpa using here
  · intro here
    refine ⟨(lease.closeUnsubscribes.filter (·.2 = connection)).map fun listens => (l, listens.1),
      @List.mem_of_getElem? _ _ l _ ?_, ?_⟩
    · rw [List.getElem?_mapIdx, held, Option.map_some]
    · refine List.mem_map.mpr ⟨listens, List.mem_filter.mpr ⟨mem, ?_⟩, rfl⟩
      simpa using here

end SshConnectionPool

end NexTerminal.Ssh
