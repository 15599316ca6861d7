import NexTerminal.Ssh.PoolLedger

namespace NexTerminal.Ssh

open Library

variable {S : Type}

namespace SshConnectionPool

variable {pool : SshConnectionPool S}

theorem modifyLease_ledger (l : Nat) {change : Lease S → Lease S}
    (same : ∀ lease, (change lease).core = lease.core) :
    (pool.modifyLease l change).ledger = pool.ledger := by
  unfold ledger modifyLease
  rw [map_modify_same same]

theorem modifyEntry_ledger (e : Nat) {change : PoolEntry S → PoolEntry S}
    (same : ∀ entry, (change entry).core = entry.core) : (pool.modifyEntry e change).ledger = pool.ledger := by
  unfold ledger modifyEntry
  rw [map_modify_same same]

variable {entry : PoolEntry S}

@[simp] theorem cancelIdleTimer_ledger (e : Nat) : (pool.cancelIdleTimer e).ledger = pool.ledger :=
  modifyEntry_ledger e fun _ => rfl

@[simp] theorem closeUnsubscribe_ledger (e : Nat) : (pool.closeUnsubscribe e).ledger = pool.ledger :=
  modifyEntry_ledger e fun _ => rfl

@[simp] theorem startIdleTimer_ledger (e : Nat) : (pool.startIdleTimer e).ledger = pool.ledger := by
  unfold startIdleTimer
  split_ifs
  · rfl
  · exact modifyEntry_ledger e fun _ => rfl

theorem entry_found {e : Nat} (hit : pool.entries[e]? = some entry) :
    pool.ledger.entries[e]? = some entry.core := by
  show (pool.entries.map PoolEntry.core)[e]? = _
  rw [List.getElem?_map, hit]
  rfl

variable {lease : Lease S}

theorem lease_found {l : Nat} (hit : pool.leases[l]? = some lease) : pool.ledger.leases[l]? = some lease.core := by
  show (pool.leases.map Lease.core)[l]? = _
  rw [List.getElem?_map, hit]
  rfl

section Map

variable [DecidableEq S]

theorem retire_ledger (server : S) (e : Nat) :
    (pool.retire server e).ledger = pool.ledger.unmap (put pool.current server none) e false [] := by
  have marked := @map_modify (PoolEntry S) (EntryCore S) PoolEntry.core ({ · with healthy := false })
    (fun entry => { entry with healthy := entry.healthy && false }) (fun entry => by simp [PoolEntry.core])
    (pool.cancelIdleTimer e).entries e
  have timers := congrArg Ledger.entries (@cancelIdleTimer_ledger S pool e)
  unfold Ledger.unmap
  rw [List.append_nil, ← timers]
  simp only [ledger, retire, emit, modifyEntry, marked]
  rfl

theorem evictEntry_ledger (server : S) (e : Nat) (entry : PoolEntry S) :
    (pool.evictEntry server e entry).ledger =
      pool.ledger.unmap (put pool.current server none) e true [entry.connection] := by
  have unmarked : (fun entry : EntryCore S => { entry with healthy := entry.healthy && true }) = id := by
    funext entry
    simp
  have flags := congrArg Ledger.entries ((@closeUnsubscribe_ledger S (pool.cancelIdleTimer e) e).trans
    (cancelIdleTimer_ledger e))
  unfold Ledger.unmap
  rw [unmarked, List.modify_id, ← flags]
  rfl

theorem softRemoveEntry_ledger (server : S) (e : Nat) (entry : PoolEntry S) :
    (pool.softRemoveEntry server e entry).ledger =
      pool.ledger.unmap (put pool.current server none) e false (if entry.refCount =
        0 then [entry.connection] else []) := by
  unfold softRemoveEntry
  split_ifs
  · have retired := (@closeUnsubscribe_ledger S (pool.retire server e) e).trans (retire_ledger server e)
    show ({ ((pool.retire server e).closeUnsubscribe e).ledger with disposals := _ } : Ledger S) = _
    rw [retired]
    congr 1
  · exact retire_ledger server e

end Map

def released (pool : SshConnectionPool S) (e : Nat) (entry : PoolEntry S) : List Nat :=
  if entry.refCount - 1 = 0 ∧ pool.current entry.server ≠ some e then [entry.connection] else []

theorem releaseEntry_ledger {e : Nat} (hit : pool.entries[e]? = some entry) : (pool.releaseEntry e).ledger =
      { pool.ledger with
        entries := pool.ledger.entries.modify e ({ · with refCount := entry.refCount - 1 })
        disposals := pool.ledger.disposals ++ pool.released e entry } := by
  have counted : (pool.modifyEntry e ({ · with refCount := entry.refCount - 1 })).ledger =
      { pool.ledger with entries := pool.ledger.entries.modify e ({ · with refCount := entry.refCount - 1 }) } := by
    simp only [ledger]
    congr 1
    exact map_modify (fun _ => by rfl) _ _
  have current (change : PoolEntry S → PoolEntry S) : (pool.modifyEntry e change).current = pool.current := rfl
  unfold releaseEntry released
  simp only [hit, current]
  by_cases last : entry.refCount - 1 = 0
  · by_cases mapped : pool.current entry.server = some e
    · rw [if_pos last, if_pos mapped, if_neg fun orphan => orphan.2 mapped, List.append_nil, startIdleTimer_ledger]
      exact counted
    · rw [if_pos last, if_neg mapped, if_pos ⟨last, mapped⟩]
      show ({ (closeUnsubscribe _ e).ledger with disposals := _ } : Ledger S) = _
      rw [closeUnsubscribe_ledger, counted]
      rfl
  · rw [if_neg last, if_neg fun orphan => last orphan.1, List.append_nil]
    exact counted

/-- A release touches neither leases, origins nor notifications. -/
theorem releaseEntry_rest (pool : SshConnectionPool S) (e : Nat) :
    (pool.releaseEntry e).leases = pool.leases ∧ (pool.releaseEntry e).origins = pool.origins ∧
      (pool.releaseEntry e).closed = pool.closed ∧ (pool.releaseEntry e).notifications = pool.notifications := by
  unfold releaseEntry
  split
  · exact ⟨rfl, rfl, rfl, rfl⟩
  · dsimp only
    split_ifs
    · unfold startIdleTimer
      split_ifs <;> exact ⟨rfl, rfl, rfl, rfl⟩
    · exact ⟨rfl, rfl, rfl, rfl⟩
    · exact ⟨rfl, rfl, rfl, rfl⟩

theorem disposeLease_ledger_held {l : Nat} (held : pool.leases[l]? = some lease) (up : lease.disposed = false)
    (unmoved : lease.fallbackConnection = none) (hit : pool.entries[lease.entry]? = some entry) :
    (pool.disposeLease l).ledger =
      pool.ledger.leave l lease.entry ({ · with disposed := true }) (entry.refCount - 1) []
        (pool.released lease.entry entry) := by
  unfold disposeLease
  simp only [held, up, Bool.false_eq_true, if_false, unmoved]
  have there : (pool.modifyLease l ({ · with disposed := true, closeUnsubscribes := [] })).entries[lease.entry]? =
      some entry := hit
  rw [releaseEntry_ledger there]
  simp only [Ledger.leave, List.append_nil]
  simp only [ledger, modifyLease, Ledger.mk.injEq, true_and, and_true]
  exact ⟨map_modify (fun _ => by rfl) _ _, rfl⟩

theorem disposeLease_ledger_moved {l : Nat} (held : pool.leases[l]? = some lease) (up : lease.disposed = false)
    {fallback : Nat} (moved : lease.fallbackConnection = some fallback) :
    (pool.disposeLease l).ledger = pool.ledger.disposeMoved l fallback := by
  unfold disposeLease
  simp only [held, up, Bool.false_eq_true, if_false, moved]
  simp only [ledger, modifyLease, disposeConnection, Ledger.disposeMoved, Ledger.mk.injEq, true_and, and_true]
  exact map_modify (fun _ => by rfl) _ _

def closedAtOnce (pool : SshConnectionPool S) (alreadyClosed : Bool) : List Nat :=
  if alreadyClosed then [pool.origins.length] else []

theorem connected_ledger (origin : Origin) (alreadyClosed : Bool) :
    (pool.connected origin alreadyClosed).ledger =
      { pool.ledger with
        origins := pool.ledger.origins ++ [origin]
        closed := pool.ledger.closed ++ pool.closedAtOnce alreadyClosed } := by
  cases alreadyClosed
  · simp [connected, closedAtOnce, ledger]
  · rfl

theorem fallbackConnected_ledger {l : Nat} (held : pool.leases[l]? = some lease)
    (pending : lease.fallbackPending = true) (hit : pool.entries[lease.entry]? = some entry) (alreadyClosed : Bool) :
    (pool.fallbackConnected l (some alreadyClosed)).ledger =
      { pool.ledger.leave l lease.entry ({ · with fallbackConnection := some pool.origins.length })
        (entry.refCount - 1)
          [.fallback l] (pool.released lease.entry entry) with
        closed := pool.ledger.closed ++ pool.closedAtOnce alreadyClosed } := by
  unfold fallbackConnected
  simp only [held, pending, Bool.not_true, Bool.false_eq_true, if_false]
  have there : ((pool.connected (.fallback l) alreadyClosed).modifyLease l
      ({ · with
        fallbackConnection := some pool.origins.length, fallbackUsed := true, fallbackPending := false })).entries[
        lease.entry]? = some entry := hit
  rw [releaseEntry_ledger there]
  have view := @connected_ledger _ pool (.fallback l) alreadyClosed
  simp only [ledger, Ledger.mk.injEq] at view ⊢
  refine ⟨rfl, ?_, view.2.2.1, view.2.2.2.1, congrArg (· ++ _) view.2.2.2.2.1, view.2.2.2.2.2⟩
  exact map_modify (fun _ => by rfl) _ _

theorem grant_ledger {e : Nat} (hit : pool.entries[e]? = some entry) :
    (pool.grant e).ledger = pool.ledger.grant e entry.core := by
  unfold grant
  simp only [hit]
  have timers := congrArg Ledger.entries (@cancelIdleTimer_ledger S pool e)
  simp only [Ledger.grant, ← timers]
  simp only [ledger, modifyEntry, cancelIdleTimer, Ledger.mk.injEq, List.map_append, and_true]
  exact ⟨map_modify (fun _ => by rfl) _ _, rfl⟩

end SshConnectionPool

end NexTerminal.Ssh
