import NexTerminal.Ssh.PoolSteps

namespace NexTerminal.Ssh

open Library

variable {S : Type}

def Stage.unfinished : Stage → Bool
  | .finished _ => false
  | _ => true

/-- A lease that has moved to its fallback asks for no other. -/
def Lease.Steady (lease : Lease S) : Prop :=
  lease.fallbackConnection = none ∨ lease.fallbackUsed = true ∧ lease.fallbackPending = false

namespace SshConnectionPool

/-- One connect at a time is under way for the entry of a server. -/
structure Creating (pool : SshConnectionPool S) : Prop where
  pending : ∀ ⦃p : Nat⦄ ⦃create : Create S⦄, pool.creates[p]? = some create →
    create.stage.unfinished = true → pool.disposed = false → pool.pending create.server = some p
  single : ∀ ⦃p q : Nat⦄ ⦃first second : Create S⦄, pool.creates[p]? = some first →
    pool.creates[q]? = some second →
    first.stage.unfinished = true → second.stage.unfinished = true → first.server = second.server → p = q
  vacant : ∀ ⦃p : Nat⦄ ⦃create : Create S⦄, pool.creates[p]? = some create → create.stage = .connecting →
    pool.disposed = false → pool.current create.server = none

structure Sound (pool : SshConnectionPool S) : Prop where
  ledger : pool.ledger.Sound
  creating : pool.Creating
  steady : ∀ ⦃l : Nat⦄ ⦃lease : Lease S⦄, pool.leases[l]? = some lease → lease.Steady

variable {pool after : SshConnectionPool S} {l e : Nat} {lease : Lease S} {entry : PoolEntry S}

theorem Creating.of_same (creating : pool.Creating) (creates : after.creates = pool.creates)
    (pending : after.pending = pool.pending) (disposed : after.disposed = pool.disposed)
    (vacant : ∀ server, pool.current server = none → after.current server = none) : after.Creating where
  pending p create hit unfinished up := by
    rw [pending]
    exact creating.pending (creates ▸ hit) unfinished (disposed ▸ up)
  single p q first second hit also := creating.single (creates ▸ hit) (creates ▸ also)
  vacant p create hit connecting up := vacant _ (creating.vacant (creates ▸ hit) connecting (disposed ▸ up))

theorem steady_modify (steady : ∀ ⦃l : Nat⦄ ⦃lease : Lease S⦄, pool.leases[l]? = some lease →
    lease.Steady) (l : Nat)
    {change : Lease S → Lease S} (kept : ∀ lease, pool.leases[l]? = some lease → lease.Steady →
      (change lease).Steady) :
    ∀ ⦃k : Nat⦄ ⦃lease : Lease S⦄, (pool.leases.modify l change)[k]? = some lease → lease.Steady := by
  intro k lease now
  obtain ⟨old, was, rfl⟩ := exists_of_modify now
  split_ifs with here
  · subst here
    exact kept old was (steady was)
  · exact steady was

namespace Sound

theorem modifyLease (sound : pool.Sound) (l : Nat) {change : Lease S → Lease S}
    (same : ∀ lease, (change lease).core = lease.core)
    (kept : ∀ lease, pool.leases[l]? = some lease → lease.Steady → (change lease).Steady) :
    (pool.modifyLease l change).Sound where
  ledger := (modifyLease_ledger l same).symm ▸ sound.ledger
  creating := sound.creating.of_same rfl rfl rfl fun _ => id
  steady := steady_modify sound.steady l kept

theorem addCall (sound : pool.Sound) (call : Call) : (pool.addCall call).Sound :=
  ⟨sound.ledger, sound.creating.of_same rfl rfl rfl fun _ => id, sound.steady⟩

theorem endCall (sound : pool.Sound) (call : Nat) : (pool.endCall call).Sound :=
  ⟨sound.ledger, sound.creating.of_same rfl rfl rfl fun _ => id, sound.steady⟩

theorem entry_of_lease (sound : pool.Sound) (held : pool.leases[l]? = some lease) :
    ∃ entry, pool.entries[lease.entry]? = some entry ∧ entry.server = lease.server ∧
      entry.connection = lease.inner := by
  obtain ⟨core, there, server, inner⟩ := sound.ledger.lease (lease_found held)
  have hit : (pool.entries.map PoolEntry.core)[lease.entry]? = some core := there
  rw [List.getElem?_map, Option.map_eq_some_iff] at hit
  obtain ⟨entry, hit, rfl⟩ := hit
  exact ⟨entry, hit, server, inner⟩

theorem setStage (sound : pool.Sound) (p : Nat) {stage : Stage} {create : Create S}
    (hit : pool.creates[p]? = some create) (unfinished : create.stage.unfinished = true)
    (ceased : stage ≠ .connecting) : (pool.setStage p stage).Sound := by
  have pre {q : Nat} {after : Create S}
      (now : (pool.creates.modify p ({ · with stage }))[q]? = some after) :
      ∃ old, pool.creates[q]? = some old ∧ after.server = old.server ∧
        (after.stage.unfinished = true → old.stage.unfinished = true) ∧
        (after.stage = .connecting → old.stage = .connecting) := by
    obtain ⟨old, was, rfl⟩ := exists_of_modify now
    refine ⟨old, was, ?_⟩
    split_ifs with here
    · subst here
      obtain rfl := Option.mem_unique hit was
      exact ⟨rfl, fun _ => unfinished, fun connecting => absurd connecting ceased⟩
    · exact ⟨rfl, id, id⟩
  refine ⟨sound.ledger, ⟨fun q after now open_ up => ?_, fun q r first second now also one other same => ?_,
    fun q after now connecting up => ?_⟩, sound.steady⟩
  · obtain ⟨old, was, server, still, _⟩ := pre now
    rw [server]
    exact sound.creating.pending was (still open_) up
  · obtain ⟨old, was, server, still, _⟩ := pre now
    obtain ⟨old', was', server', still', _⟩ := pre also
    exact sound.creating.single was was' (still one) (still' other) (server.symm.trans (same.trans server'))
  · obtain ⟨old, was, server, _, still⟩ := pre now
    rw [server]
    exact sound.creating.vacant was (still connecting) up

section

variable (sound : pool.Sound)
include sound

/-- The entry under a server is healthy and its own. -/
theorem mapped {server : S} (mapped : pool.current server = some e) :
    ∃ entry, pool.entries[e]? = some entry ∧ entry.server = server ∧ entry.healthy = true := by
  obtain ⟨core, there, same, healthy⟩ := sound.ledger.current mapped
  have hit : (pool.entries.map PoolEntry.core)[e]? = some core := there
  rw [List.getElem?_map, Option.map_eq_some_iff] at hit
  obtain ⟨entry, hit, rfl⟩ := hit
  exact ⟨entry, hit, same, healthy⟩

theorem addCreate {server : S} [DecidableEq S] (up : pool.disposed = false) (vacant : pool.current server = none)
    (free : pool.pending server = none) : ({ pool with
      creates := pool.creates ++ [{ server := server }]
      pending := put pool.pending server (some pool.creates.length) } : SshConnectionPool S).Sound := by
  have other {p : Nat} {create : Create S} (hit : pool.creates[p]? = some create)
      (unfinished : create.stage.unfinished = true) : create.server ≠ server := by
    rintro rfl
    rw [sound.creating.pending hit unfinished up] at free
    cases free
  refine ⟨sound.ledger, ⟨fun p create now unfinished up => ?_, fun p q first second now also one two same => ?_,
    fun p create now connecting up => ?_⟩, sound.steady⟩
  · rcases getElem?_snoc now with was | ⟨rfl, rfl⟩
    · show put pool.pending server _ create.server = _
      rw [put_other (other was unfinished)]
      exact sound.creating.pending was unfinished up
    · exact put_self
  · rcases getElem?_snoc now with was | ⟨rfl, rfl⟩ <;> rcases getElem?_snoc also with was' | ⟨rfl, rfl⟩
    · exact sound.creating.single was was' one two same
    · exact absurd same (other was one)
    · exact absurd same.symm (other was' two)
    · rfl
  · rcases getElem?_snoc now with was | ⟨rfl, rfl⟩
    · exact sound.creating.vacant was connecting up
    · exact vacant

theorem connectWithContext [DecidableEq S] (server : S) (multiplexing : Option Bool) :
    (pool.connectWithContext server multiplexing).Sound := by
  unfold SshConnectionPool.connectWithContext
  split_ifs with disposed alone
  · exact sound.addCall _
  · exact sound.addCall _
  · cases mapped : pool.current server with
    | none =>
      simp only [Option.bind_none]
      cases free : pool.pending server with
      | some promise => exact sound.addCall _
      | none => exact (sound.addCreate (Bool.eq_false_iff.mpr disposed) mapped free).addCall _
    | some e =>
      obtain ⟨entry, hit, _, up⟩ := sound.mapped mapped
      simp only [Option.bind_some, hit, Option.map_some, up]
      exact sound.addCall _

theorem entryConnected [DecidableEq S] (promise : Nat) (res : Option Bool) :
    (pool.entryConnected promise res).Sound := by
  unfold SshConnectionPool.entryConnected
  split
  case h_2 => exact sound
  case h_1 server hit =>
    have staged (entry : Option Nat) : (pool.setStage promise (.settled entry)).Sound :=
      sound.setStage promise hit rfl nofun
    cases res with
    | none => exact staged none
    | some alreadyClosed =>
      split_ifs with disposed
      · refine ⟨?_, (staged none).creating.of_same rfl rfl rfl fun _ => id, sound.steady⟩
        have refused := (sound.ledger.addOrigin (.inr ⟨rfl, List.mem_singleton_self _⟩)).more_closed
          (pool.closedAtOnce alreadyClosed)
        have view := @connected_ledger _ pool .refused alreadyClosed
        show ({ (pool.connected .refused alreadyClosed).ledger with disposals := _ } : Ledger S).Sound
        rw [view]
        exact refused
      · have up : pool.disposed = false := Bool.eq_false_iff.mpr disposed
        have vacant : pool.current server = none := sound.creating.vacant hit rfl up
        have settled := (staged (some pool.entries.length)).creating
        have here : (pool.setStage promise (.settled (some pool.entries.length))).creates[promise]? =
            some ⟨server, .settled (some pool.entries.length)⟩ := by
          show (pool.creates.modify promise _)[promise]? = _
          rw [modify_found hit, if_pos rfl]
        refine ⟨?_, ⟨settled.pending, settled.single, fun q create now connecting still => ?_⟩, sound.steady⟩
        · have added := (sound.ledger.addEntry vacant).more_closed (pool.closedAtOnce alreadyClosed)
          have view := @connected_ledger _ pool (.entry pool.entries.length) alreadyClosed
          simp only [Ledger.addEntry, SshConnectionPool.ledger, Ledger.mk.injEq, List.length_map] at view added
          simp only [SshConnectionPool.ledger, SshConnectionPool.setStage, emit, List.map_append, view]
          exact added
        · have ne : create.server ≠ server := by
            intro same
            have at_promise := settled.single now here (by rw [connecting]; rfl) rfl same
            subst at_promise
            rw [Option.mem_unique now here] at connecting
            cases connecting
          exact (put_other ne).trans (settled.vacant now connecting still)

theorem pendingSettled [DecidableEq S] (promise : Nat) : (pool.pendingSettled promise).Sound := by
  unfold SshConnectionPool.pendingSettled
  split
  case h_2 => exact sound
  case h_1 server entry hit =>
    have finished := (@setStage _ _ sound promise (.finished entry) _ hit rfl nofun).creating
    refine ⟨sound.ledger, ⟨fun q create now unfinished up => ?_, finished.single,
      finished.vacant⟩, sound.steady⟩
    have pending := finished.pending now unfinished up
    refine (put_other ?_).trans pending
    rintro rfl
    -- The connect that was pending for the server is finished now.
    have pre : pool.pending create.server = some promise :=
      @Creating.pending _ _ sound.creating _ ⟨create.server, .settled entry⟩ hit rfl up
    have same : some promise = some q := pre.symm.trans pending
    obtain rfl := Option.some.inj same
    obtain ⟨old, -, is⟩ := exists_of_modify now
    rw [if_pos rfl] at is
    rw [is] at unfinished
    cases unfinished

theorem grant (e : Nat) : (pool.grant e).Sound := by
  cases hit : pool.entries[e]? with
  | none =>
    unfold SshConnectionPool.grant
    simp only [hit]
    exact sound
  | some entry =>
    refine ⟨?_, ?_, fun l lease now => ?_⟩
    · rw [grant_ledger hit]
      exact sound.ledger.grant (entry_found hit)
    · refine sound.creating.of_same ?_ ?_ ?_ fun server vacant => ?_ <;>
        unfold SshConnectionPool.grant <;> simp only [hit]
      · rfl
      · rfl
      · rfl
      · exact vacant
    · unfold SshConnectionPool.grant at now
      simp only [hit] at now
      rcases getElem?_snoc now with was | ⟨_, rfl⟩
      · exact sound.steady was
      · exact .inl rfl

theorem callResumed (call : Nat) : (pool.callResumed call).Sound := by
  unfold SshConnectionPool.callResumed
  split
  · exact (sound.endCall call).grant _
  · split
    · exact (sound.endCall call).grant _
    · exact sound.endCall call
    · exact sound
  · exact sound

theorem innerConnected (call : Nat) (res : Option Bool) : (pool.innerConnected call res).Sound := by
  unfold SshConnectionPool.innerConnected
  split
  case h_2 => exact sound
  case h_1 =>
    cases res with
    | none => exact sound.endCall call
    | some alreadyClosed =>
      refine ⟨?_, sound.creating.of_same rfl rfl rfl fun _ => id, sound.steady⟩
      have ended := (sound.endCall call).ledger
      have added := (@Ledger.Sound.addOrigin _ _ [] ended .standalone (.inl rfl)).more_closed
        ((pool.endCall call).closedAtOnce alreadyClosed)
      have view := @connected_ledger _ (pool.endCall call) .standalone alreadyClosed
      rw [view]
      simp only [Ledger.addOrigin, List.append_nil] at added
      exact added

theorem disposeStandalone (conn : Nat) : (pool.disposeStandalone conn).Sound := by
  unfold SshConnectionPool.disposeStandalone
  split_ifs
  · exact ⟨sound.ledger.more_disposed [conn], sound.creating.of_same rfl rfl rfl fun _ => id, sound.steady⟩
  · exact sound

theorem listening (listeners : Nat) : ({ pool with listeners } : SshConnectionPool S).Sound :=
  ⟨sound.ledger, sound.creating.of_same rfl rfl rfl fun _ => id, sound.steady⟩

theorem openChannel (l : Nat) : (pool.openChannel l).Sound := by
  unfold SshConnectionPool.openChannel
  split
  · split_ifs
    · exact sound
    · exact sound.modifyLease l (fun _ => rfl) fun _ _ => id
  · exact sound

theorem onClose (l : Nat) : (pool.onClose l).Sound := by
  unfold SshConnectionPool.onClose
  split
  · split_ifs
    · exact sound
    · refine listening ?_ _
      exact sound.modifyLease l (fun _ => rfl) fun _ _ => id
  · exact sound

theorem unsubscribe (l listener : Nat) : (pool.unsubscribe l listener).Sound :=
  sound.modifyLease l (fun _ => rfl) fun _ _ => id

theorem channelOpened (l : Nat) : (pool.channelOpened l).Sound := sound.modifyLease l (fun _ => rfl) fun _ _ => id

end

theorem releaseEntry_creating (creating : pool.Creating) (e : Nat) : (pool.releaseEntry e).Creating := by
  unfold SshConnectionPool.releaseEntry
  split
  · exact creating
  · dsimp only
    split_ifs
    · refine creating.of_same ?_ ?_ ?_ fun server vacant => ?_ <;> unfold startIdleTimer <;> split_ifs
      all_goals first | rfl | exact vacant
    · exact creating.of_same rfl rfl rfl fun _ => id
    · exact creating.of_same rfl rfl rfl fun _ => id

theorem released_idle (pool : SshConnectionPool S) (e : Nat) (entry : PoolEntry S) :
    entry.core.refCount - 1 = 0 → pool.ledger.current entry.core.server = some e ∨
      entry.core.connection ∈ pool.released e entry := by
  intro last
  by_cases mapped : pool.current entry.server = some e
  · exact .inl mapped
  · refine .inr ?_
    rw [released, if_pos ⟨last, mapped⟩]
    exact List.mem_singleton_self _

theorem disposeLease (sound : pool.Sound) (l : Nat) : (pool.disposeLease l).Sound := by
  cases held : pool.leases[l]? with
  | none =>
    unfold SshConnectionPool.disposeLease
    simp only [held]
    exact sound
  | some lease =>
    by_cases disposed : lease.disposed = true
    · unfold SshConnectionPool.disposeLease
      simp only [held, disposed]
      exact sound
    · have up : lease.disposed = false := Bool.eq_false_iff.mpr disposed
      cases moved : lease.fallbackConnection with
      | some fallback =>
        refine ⟨?_, ?_, fun k other now => ?_⟩
        · rw [disposeLease_ledger_moved held up moved]
          exact sound.ledger.disposeMoved (lease_found held) moved
        · unfold SshConnectionPool.disposeLease
          simp only [held, up, moved]
          exact sound.creating.of_same rfl rfl rfl fun _ => id
        · unfold SshConnectionPool.disposeLease at now
          simp only [held, up, moved] at now
          refine steady_modify sound.steady l ?_ now
          exact fun _ _ steady => steady
      | none =>
        obtain ⟨entry, hit, _, _⟩ := sound.entry_of_lease held
        have holding : lease.core.holds = some lease.entry := LeaseCore.holds_eq_some.mpr ⟨up, moved, rfl⟩
        refine ⟨?_, ?_, fun k other now => ?_⟩
        · rw [disposeLease_ledger_held held up moved hit]
          refine sound.ledger.leave (entry_found hit) (lease_found held) holding ?_ ?_ ?_ (released_idle pool _ entry)
          · exact fun _ => ⟨rfl, rfl, rfl⟩
          · rfl
          · exact .inl ⟨rfl, moved⟩
        · unfold SshConnectionPool.disposeLease
          simp only [held, up, moved]
          refine releaseEntry_creating ?_ _
          exact sound.creating.of_same rfl rfl rfl fun _ => id
        · unfold SshConnectionPool.disposeLease at now
          simp only [held, up, Bool.false_eq_true, if_false, moved, (releaseEntry_rest _ _).1] at now
          refine steady_modify sound.steady l ?_ now
          exact fun _ _ steady => steady

theorem fallbackConnected (sound : pool.Sound) (l : Nat) (res : Option Bool)
    (up : ∀ lease alreadyClosed, pool.leases[l]? = some lease → res = some alreadyClosed →
      lease.fallbackPending = true → lease.disposed = false) : (pool.fallbackConnected l res).Sound := by
  cases held : pool.leases[l]? with
  | none =>
    unfold SshConnectionPool.fallbackConnected
    simp only [held]
    exact sound
  | some lease =>
    by_cases pending : lease.fallbackPending = true
    · cases res with
      | none =>
        unfold SshConnectionPool.fallbackConnected
        simp only [held, pending]
        refine sound.modifyLease l (fun _ => rfl) fun lease _ steady => ?_
        exact steady.imp id fun _ => ⟨rfl, rfl⟩
      | some alreadyClosed =>
        have undisposed := up lease alreadyClosed held rfl pending
        obtain ⟨entry, hit, _, _⟩ := sound.entry_of_lease held
        have unmoved : lease.fallbackConnection = none := by
          refine (sound.steady held).resolve_right fun settled => ?_
          rw [pending] at settled
          exact Bool.false_ne_true settled.2.symm
        have holding : lease.core.holds = some lease.entry := LeaseCore.holds_eq_some.mpr ⟨undisposed, unmoved, rfl⟩
        refine ⟨?_, ?_, fun k other now => ?_⟩
        · rw [fallbackConnected_ledger held pending hit]
          refine Ledger.Sound.more_closed ?_ _
          refine sound.ledger.leave (entry_found hit) (lease_found held) holding ?_ ?_ ?_ (released_idle pool _ entry)
          · exact fun _ => ⟨rfl, rfl, rfl⟩
          · exact if_pos (Bool.or_true _)
          · exact .inr ⟨rfl, rfl, undisposed⟩
        · unfold SshConnectionPool.fallbackConnected
          simp only [held, pending]
          refine releaseEntry_creating ?_ _
          exact sound.creating.of_same rfl rfl rfl fun _ => id
        · unfold SshConnectionPool.fallbackConnected at now
          simp only [held, pending, Bool.not_true, Bool.false_eq_true, if_false, (releaseEntry_rest _ _).1] at now
          exact steady_modify sound.steady l (fun _ _ _ => .inr ⟨rfl, rfl⟩) now
    · unfold SshConnectionPool.fallbackConnected
      simp only [held, Bool.eq_false_iff.mpr pending]
      exact sound

section Map

variable [DecidableEq S]

theorem put_vacant {map : S → Option Nat} (server other : S) (vacant : map other = none) :
    put map server none other = none := by
  unfold put
  split_ifs
  · rfl
  · exact vacant

section

variable (sound : pool.Sound)
include sound

theorem retire (hit : pool.entries[e]? = some entry) (mapped : pool.current entry.server = some e)
    (idle : entry.refCount = 0 → entry.connection ∈ pool.disposals ∨ entry.connection ∈ pool.closed) :
    (pool.retire entry.server e).Sound := by
  refine ⟨?_, sound.creating.of_same rfl rfl rfl fun server => put_vacant _ server, sound.steady⟩
  rw [retire_ledger]
  exact sound.ledger.unmap (entry_found hit) (sound.ledger.put_iff (entry_found hit) mapped) (.inl rfl)
    fun unheld => .inr (idle unheld)

theorem evictEntry (hit : pool.ledger.entries[e]? = some entry.core) (mapped : pool.current entry.server = some e) :
    (pool.evictEntry entry.server e entry).Sound := by
  refine ⟨?_, sound.creating.of_same rfl rfl rfl fun server => put_vacant _ server, sound.steady⟩
  rw [evictEntry_ledger]
  have disposed : entry.core.connection ∈ [entry.connection] := List.mem_singleton_self _
  exact sound.ledger.unmap hit (sound.ledger.put_iff hit mapped) (.inr disposed) fun _ => .inl disposed

theorem softRemoveEntry (hit : pool.entries[e]? = some entry) (mapped : pool.current entry.server = some e) :
    (pool.softRemoveEntry entry.server e entry).Sound := by
  refine ⟨?_, ?_, ?_⟩
  · rw [softRemoveEntry_ledger]
    refine sound.ledger.unmap (entry_found hit) (sound.ledger.put_iff (entry_found hit) mapped) (.inl rfl)
      fun unheld => .inl ?_
    have last : entry.refCount = 0 := unheld
    rw [if_pos last]
    exact List.mem_singleton_self _
  · unfold SshConnectionPool.softRemoveEntry
    split_ifs <;> exact sound.creating.of_same rfl rfl rfl fun server => put_vacant _ server
  · unfold SshConnectionPool.softRemoveEntry
    split_ifs <;> exact sound.steady

theorem disconnect (server : S) : (pool.disconnect server).Sound := by
  unfold SshConnectionPool.disconnect lookup
  cases mapped : pool.current server with
  | none => exact sound
  | some e =>
    obtain ⟨entry, hit, rfl, _⟩ := sound.mapped mapped
    simp only [Option.bind_some, hit]
    exact sound.evictEntry (entry_found hit) mapped

theorem invalidate (server : S) : (pool.invalidate server).Sound := by
  unfold SshConnectionPool.invalidate lookup
  cases mapped : pool.current server with
  | none => exact sound
  | some e =>
    obtain ⟨entry, hit, rfl, _⟩ := sound.mapped mapped
    simp only [Option.bind_some, hit]
    exact sound.softRemoveEntry hit mapped

end

omit [DecidableEq S] in
theorem cancelIdleTimer (sound : pool.Sound) (e : Nat) : (pool.cancelIdleTimer e).Sound :=
  ⟨(cancelIdleTimer_ledger e).symm ▸ sound.ledger, sound.creating.of_same rfl rfl rfl fun _ => id, sound.steady⟩

theorem idleTimeout (sound : pool.Sound) (e : Nat) : (pool.idleTimeout e).Sound := by
  unfold SshConnectionPool.idleTimeout
  split
  · exact sound
  case h_2 entry hit =>
    dsimp only
    split_ifs with unset due
    · exact sound
    · refine (sound.cancelIdleTimer e).evictEntry ?_ due.2
      rw [cancelIdleTimer_ledger]
      exact entry_found hit
    · exact sound.cancelIdleTimer e

theorem channelFailed (sound : pool.Sound) (l : Nat) (error : ChannelError)
    (idle : ∀ lease entry, pool.leases[l]? = some lease → pool.entries[lease.entry]? = some entry →
      lease.opening ≠ 0 → shouldAttemptFallback pool.options lease error = true →
        lease.fallbackPending = false → pool.current lease.server = some lease.entry → entry.refCount = 0 →
      entry.connection ∈ pool.disposals ∨
        entry.connection ∈ pool.closed) : (pool.channelFailed l error).Sound := by
  unfold SshConnectionPool.channelFailed
  split
  · exact sound
  case h_2 lease held =>
    have refused : (pool.modifyLease l fun lease => { lease with opening := lease.opening - 1 }).Sound :=
      sound.modifyLease l (fun _ => rfl) fun _ _ => id
    dsimp only
    split_ifs with unasked falls
    · exact sound
    · simp only [Bool.and_eq_true, Bool.not_eq_true'] at falls
      have unused : lease.fallbackUsed = false := by
        have attempts := falls.1
        unfold shouldAttemptFallback at attempts
        simp only [Bool.and_eq_true, Bool.not_eq_true'] at attempts
        exact attempts.1
      have unmoved : lease.fallbackConnection = none := by
        refine (sound.steady held).resolve_right fun settled => ?_
        rw [unused] at settled
        exact Bool.false_ne_true settled.1
      have asked : ((pool.modifyLease l fun lease => { lease with opening := lease.opening - 1 }).modifyLease l
          ({ · with fallbackPending := true })).Sound := by
        refine refused.modifyLease l (fun _ => rfl) fun other hit _ => .inl ?_
        obtain ⟨old, was, rfl⟩ := exists_of_modify hit
        obtain rfl := Option.mem_unique held was
        rw [if_pos rfl]
        exact unmoved
      unfold createFallback
      split_ifs with mapped
      · obtain ⟨entry, hit, server, _⟩ := sound.entry_of_lease held
        rw [← server]
        exact asked.retire hit (by rw [server]; exact mapped)
          (idle lease entry held hit unasked falls.1 falls.2 mapped)
      · exact asked
    · exact refused

theorem connectionClosed (sound : pool.Sound) (connection : Nat) : (pool.connectionClosed connection).Sound := by
  unfold SshConnectionPool.connectionClosed
  split_ifs with open_
  case neg => exact sound
  have closed : ({ pool with
      closed := pool.closed ++ [connection]
      notifications := pool.notifications ++ pool.notified connection } : SshConnectionPool S).Sound :=
    ⟨sound.ledger.more_closed [connection], sound.creating.of_same rfl rfl rfl fun _ => id, sound.steady⟩
  dsimp only
  split
  case h_2 => exact closed
  case h_1 e created =>
    split
    case h_2 => exact closed
    case h_1 entry hit =>
      have here : entry.connection = connection := by
        obtain ⟨core, there, at_connection⟩ := sound.ledger.owner created
        rw [← at_connection, ← Option.mem_unique (entry_found hit) there]
        rfl
      have gone : ({ pool with closed := pool.closed ++ [connection] } : SshConnectionPool S).ledger.Gone
          entry.core.connection := .inr (List.mem_append_right _ (List.mem_singleton.mpr here))
      have marked := @map_modify (PoolEntry S) (EntryCore S) PoolEntry.core ({ · with healthy := false })
        (fun entry => { entry with healthy := entry.healthy && false }) (fun entry => by simp [PoolEntry.core])
        pool.entries e
      have flags := @map_modify_same (PoolEntry S) (EntryCore S) PoolEntry.core ({ · with idleTimer := false })
        (fun _ => rfl) (pool.entries.modify e ({ · with healthy := false })) e
      split_ifs with subscribed mapped
      · have out := @Ledger.Sound.unmap _ _ _ _ [] closed.ledger (entry_found hit) _
          (closed.ledger.put_iff (entry_found hit) mapped) false (.inl rfl) fun _ => .inr gone
        refine ⟨?_, closed.creating.of_same rfl rfl rfl fun server => put_vacant _ server, sound.steady⟩
        simp only [Ledger.unmap, List.append_nil] at out
        simp only [SshConnectionPool.ledger, emit, SshConnectionPool.cancelIdleTimer, modifyEntry, flags, marked]
        exact out
      · have out := @Ledger.Sound.unmap _ _ _ _ [] closed.ledger (entry_found hit) _
          (closed.ledger.unmapped_iff (entry_found hit) mapped) false (.inl rfl) fun _ => .inr gone
        refine ⟨?_, closed.creating.of_same rfl rfl rfl fun _ => id, sound.steady⟩
        simp only [Ledger.unmap, List.append_nil] at out
        simp only [SshConnectionPool.ledger, SshConnectionPool.cancelIdleTimer, modifyEntry, flags, marked]
        exact out
      · exact closed

omit [DecidableEq S] in
theorem dispose (sound : pool.Sound) [DecidableEq S] : pool.dispose.Sound := by
  unfold SshConnectionPool.dispose
  split_ifs with disposed
  · exact sound
  · have cores : (pool.entries.mapIdx fun e entry =>
        if pool.pooled e entry then
          { entry with idleTimer := false, subscribed := false } else entry).map PoolEntry.core =
          pool.entries.map PoolEntry.core := by
      refine List.ext_getElem? fun e => ?_
      simp only [List.getElem?_map, List.getElem?_mapIdx, Option.map_map]
      congr 1
      funext entry
      simp only [Function.comp_apply]
      split_ifs <;> rfl
    refine ⟨?_, ⟨nofun, sound.creating.single, nofun⟩, sound.steady⟩
    simp only [SshConnectionPool.ledger, cores]
    refine sound.ledger.clear fun e core there mapped => ?_
    have hit : (pool.entries.map PoolEntry.core)[e]? = some core := there
    rw [List.getElem?_map, Option.map_eq_some_iff] at hit
    obtain ⟨entry, hit, rfl⟩ := hit
    have pooled : pool.pooled e entry = true := decide_eq_true mapped
    refine List.mem_flatten.mpr ⟨[entry.connection], ?_, List.mem_singleton_self _⟩
    refine @List.mem_of_getElem? _ _ e _ ?_
    rw [List.getElem?_mapIdx, hit, Option.map_some, if_pos pooled]

end Map

end Sound

end SshConnectionPool

end NexTerminal.Ssh
