import NexTerminal.Ssh.PoolInvariant

namespace NexTerminal.Ssh

open Library

variable {S : Type}

namespace Ledger

variable {ledger : Ledger S}

/-- The entry that holds the connection, if one does, has no lease. -/
def Unheld (ledger : Ledger S) (connection : Nat) : Prop :=
  ∀ (e : Nat) (entry : EntryCore S), ledger.entries[e]? = some entry → entry.connection = connection →
    entry.refCount = 0

theorem Sound.holder (sound : ledger.Sound) {l e : Nat} {lease : LeaseCore S} (held : ledger.leases[l]? = some lease)
    (holding : lease.holds = some e) :
    ∃ entry, ledger.entries[e]? = some entry ∧ entry.connection = lease.inner ∧ entry.refCount ≠ 0 := by
  obtain ⟨entry, hit, _, inner⟩ := sound.lease held
  rw [(LeaseCore.holds_eq_some.mp holding).2.2] at hit
  refine ⟨entry, hit, inner, fun unheld => ?_⟩
  have counted := sound.counted hit
  refine shares_eq_zero ?_ held holding
  unfold holders at counted
  omega

theorem Sound.spared (sound : ledger.Sound) {connection l : Nat} {lease : LeaseCore S}
    (unheld : ledger.Unheld connection) (held : ledger.leases[l]? = some lease) (holding : lease.holds.isSome) :
    lease.inner ≠ connection := by
  intro same
  obtain ⟨e, holds⟩ := Option.isSome_iff_exists.mp holding
  obtain ⟨entry, hit, inner, counted⟩ := sound.holder held holds
  exact counted (unheld e entry hit (inner.trans same))

theorem Sound.unheld_of_origin (sound : ledger.Sound) {connection : Nat} {origin : Origin}
    (created : ledger.origins[connection]? = some origin) (ne : ∀ e, origin ≠ .entry e) :
    ledger.Unheld connection := by
  rintro e entry hit rfl
  exact absurd (Option.mem_unique created (sound.entryOrigin hit)) (ne e)

theorem Sound.unheld_of_entry (sound : ledger.Sound) {e : Nat} {entry : EntryCore S}
    (hit : ledger.entries[e]? = some entry) (last : entry.refCount = 0) : ledger.Unheld entry.connection := by
  intro f other there same
  have origin := sound.entryOrigin there
  rw [same, sound.entryOrigin hit] at origin
  cases origin
  rw [Option.mem_unique there hit]
  exact last

end Ledger

namespace SshConnectionPool

def InPool (pool : SshConnectionPool S) (connection : Nat) : Prop :=
  ∃ (server : S) (e : Nat) (entry : PoolEntry S), pool.current server = some e ∧ pool.entries[e]? = some entry ∧
    entry.connection = connection

/-- A lease that has not been disposed uses the connection, or its caller has it as it is. -/
def Leased (pool : SshConnectionPool S) (connection : Nat) : Prop :=
  pool.origins[connection]? = some .standalone ∨
    ∃ (l : Nat) (lease : Lease S), pool.leases[l]? = some lease ∧ lease.disposed = false ∧
      lease.active = connection

structure Accounted (pool : SshConnectionPool S) : Prop where
  counted : ∀ (e : Nat) (entry : PoolEntry S), pool.entries[e]? = some entry →
    entry.refCount = (pool.leases.countP fun lease => lease.holds = some e : Nat)
  single : ∀ (e f : Nat) (first second : PoolEntry S), pool.entries[e]? = some first →
    pool.entries[f]? = some second →
    first.healthy = true → second.healthy = true → first.connection ∉ pool.disposals →
    second.connection ∉ pool.disposals → first.server = second.server → e = f
  creating : ∀ (p q : Nat) (first second : Create S), pool.creates[p]? = some first →
    pool.creates[q]? = some second →
    first.stage.unfinished = true → second.stage.unfinished = true → first.server = second.server → p = q
  answered : ∀ connection < pool.origins.length,
    connection ∈ pool.disposals ∨ connection ∈ pool.closed ∨ pool.InPool connection ∨ pool.Leased connection

theorem holders_eq (pool : SshConnectionPool S) (e : Nat) :
    pool.ledger.holders e = pool.leases.countP fun lease => lease.holds = some e := by
  show List.countP _ (pool.leases.map Lease.core) = _
  rw [List.countP_map]
  rfl

variable {pool : SshConnectionPool S}

theorem Sound.accounted (sound : pool.Sound) : pool.Accounted where
  counted e entry found := by
    rw [← holders_eq]
    exact sound.ledger.counted (entry_found found)
  single e f first second found there up alive kept lives same := by
    have mapped := (sound.ledger.healthy (entry_found found) up).resolve_right kept
    have also := (sound.ledger.healthy (entry_found there) alive).resolve_right lives
    have at_same : pool.current first.server = some f := by
      rw [same]
      exact also
    exact Option.mem_unique mapped at_same
  creating p q first second := @Creating.single _ _ sound.creating p q first second
  answered connection created := by
    have owner := sound.ledger.owner (List.getElem?_eq_getElem created)
    cases created_for : pool.origins[connection] with
    | entry e =>
      have owner : pool.ledger.Owner connection (.entry e) := created_for ▸ owner
      obtain ⟨core, there, rfl⟩ := owner
      have found : (pool.entries.map PoolEntry.core)[e]? = some core := there
      rw [List.getElem?_map, Option.map_eq_some_iff] at found
      obtain ⟨entry, found, rfl⟩ := found
      by_cases unheld : entry.core.refCount = 0
      · rcases sound.ledger.idle there unheld with mapped | gone
        · exact .inr (.inr (.inl ⟨_, e, entry, mapped, found, rfl⟩))
        · exact gone.imp id .inl
      · -- An entry that counts has a lease, which uses its connection.
        have counted := sound.ledger.counted there
        have some_holder : pool.ledger.holders e ≠ 0 := by omega
        obtain ⟨l, core, at_lease, holds⟩ := exists_holder some_holder
        have held : (pool.leases.map Lease.core)[l]? = some core := at_lease
        rw [List.getElem?_map, Option.map_eq_some_iff] at held
        obtain ⟨lease, held, rfl⟩ := held
        obtain ⟨up, unmoved, on⟩ := LeaseCore.holds_eq_some.mp holds
        obtain ⟨other, at_entry, _, inner⟩ := sound.entry_of_lease held
        refine .inr (.inr (.inr (.inr ⟨l, lease, held, up, ?_⟩)))
        have unmoved : lease.fallbackConnection = none := unmoved
        have on : lease.entry = e := on
        rw [on] at at_entry
        rw [Lease.active, unmoved, Option.getD_none, ← inner, Option.mem_unique at_entry found]
        rfl
    | fallback l =>
      have owner : pool.ledger.Owner connection (.fallback l) := created_for ▸ owner
      obtain ⟨core, at_lease, moved, gone⟩ := owner
      have held : (pool.leases.map Lease.core)[l]? = some core := at_lease
      rw [List.getElem?_map, Option.map_eq_some_iff] at held
      obtain ⟨lease, held, rfl⟩ := held
      by_cases disposed : lease.disposed = true
      · exact .inl (gone disposed)
      · refine .inr (.inr (.inr (.inr ⟨l, lease, held, Bool.eq_false_iff.mpr disposed, ?_⟩)))
        have moved : lease.fallbackConnection = some connection := moved
        rw [Lease.active, moved, Option.getD_some]
    | standalone =>
      refine .inr (.inr (.inr (.inl ?_)))
      rw [List.getElem?_eq_getElem created, created_for]
    | refused =>
      have owner : pool.ledger.Owner connection .refused := created_for ▸ owner
      exact .inl owner

variable [DecidableEq S]

/-- A fallback starts on a disposed lease and takes the idle entry out of the map, or succeeds on one. -/
def Slip (pool : SshConnectionPool S) : PoolAct S → Prop
  | .channelFailed l error => ∃ (lease : Lease S) (entry : PoolEntry S), pool.leases[l]? = some lease ∧
    pool.entries[lease.entry]? = some entry ∧
      lease.opening ≠ 0 ∧ shouldAttemptFallback pool.options lease error = true ∧
        lease.fallbackPending = false ∧
      lease.disposed = true ∧ pool.current lease.server = some lease.entry ∧ entry.refCount = 0 ∧
      entry.connection ∉ pool.disposals ∧ entry.connection ∉ pool.closed
  | .fallbackConnected l (some _) => ∃ lease, pool.leases[l]? = some lease ∧ lease.fallbackPending = true ∧
      lease.disposed = true
  | _ => False

theorem step_sound (sound : pool.Sound) (act : PoolAct S) (careful : ¬ pool.Slip act) : (pool.step act).Sound := by
  cases act with
  | connectWithContext server multiplexing => exact sound.connectWithContext server multiplexing
  | entryConnected promise res => exact sound.entryConnected promise res
  | pendingSettled promise => exact sound.pendingSettled promise
  | callResumed call => exact sound.callResumed call
  | innerConnected call res => exact sound.innerConnected call res
  | disposeStandalone conn => exact sound.disposeStandalone conn
  | openChannel lease => exact sound.openChannel lease
  | channelOpened lease => exact sound.channelOpened lease
  | channelFailed l error =>
    refine sound.channelFailed l error fun lease entry held hit asked attempts unasked mapped unheld => ?_
    by_contra kept
    rw [not_or] at kept
    have disposed : lease.disposed = true := by
      by_contra up
      have unused : lease.fallbackUsed = false := by
        unfold shouldAttemptFallback at attempts
        simp only [Bool.and_eq_true, Bool.not_eq_true'] at attempts
        exact attempts.1
      have unmoved : lease.fallbackConnection = none := by
        refine (sound.steady held).resolve_right fun settled => ?_
        rw [unused] at settled
        exact Bool.false_ne_true settled.1
      obtain ⟨core, there, _, counted⟩ := sound.ledger.holder (lease_found held)
        (LeaseCore.holds_eq_some.mpr ⟨Bool.eq_false_iff.mpr up, unmoved, rfl⟩)
      rw [Option.mem_unique there (entry_found hit)] at counted
      exact counted unheld
    exact careful ⟨lease, entry, held, hit, asked, attempts, unasked, disposed, mapped, unheld, kept⟩
  | fallbackConnected l res =>
    refine sound.fallbackConnected l res fun lease alreadyClosed held connected pending => ?_
    rw [connected] at careful
    by_contra disposed
    exact careful ⟨lease, held, pending, Bool.of_not_eq_false disposed⟩
  | disposeLease lease => exact sound.disposeLease lease
  | onClose lease => exact sound.onClose lease
  | unsubscribe lease listener => exact sound.unsubscribe lease listener
  | connectionClosed conn => exact sound.connectionClosed conn
  | idleTimeout entry => exact sound.idleTimeout entry
  | disconnect server => exact sound.disconnect server
  | invalidate server => exact sound.invalidate server
  | dispose => exact sound.dispose

def forces : PoolAct S → Bool
  | .disconnect _ | .dispose => true
  | _ => false

/-- What a step disposes of is in no use, unless that is what it is for. -/
def Spares (pool : SshConnectionPool S) (act : PoolAct S) : Prop :=
  ∃ new, (pool.step act).disposals = pool.disposals ++ new ∧
    (forces act = false → ∀ connection ∈ new, ∀ (l : Nat)
      (lease : Lease S), (pool.step act).leases[l]? = some lease →
      lease.holds.isSome → lease.inner ≠ connection)

variable {act : PoolAct S}

theorem spares_none (same : (pool.step act).disposals = pool.disposals) : pool.Spares act :=
  ⟨[], by rw [same, List.append_nil], nofun⟩

theorem spares_of {act : PoolAct S} (after : (pool.step act).Sound) {new : List Nat}
    (disposals : (pool.step act).disposals = pool.disposals ++ new)
    (unheld : ∀ conn ∈ new, (pool.step act).ledger.Unheld conn) : pool.Spares act :=
  ⟨new, disposals, fun _ conn mem _ _ held holding =>
    after.ledger.spared (unheld conn mem) (lease_found held) holding⟩

variable {entry : PoolEntry S}

theorem unheld_changed (after : (pool.step act).Sound) {e : Nat} {change : EntryCore S → EntryCore S}
    (hit : pool.entries[e]? = some entry)
      (entries : (pool.step act).ledger.entries = pool.ledger.entries.modify e change)
    (last : (change entry.core).refCount = 0) : (pool.step act).ledger.Unheld (change entry.core).connection := by
  refine after.ledger.unheld_of_entry (e := e) ?_ last
  rw [entries, modify_found (entry_found hit), if_pos rfl]

theorem unheld_released (after : (pool.step act).Sound) {e : Nat}
    (hit : pool.entries[e]? = some entry)
    (entries : (pool.step act).ledger.entries =
      pool.ledger.entries.modify e ({ · with refCount := entry.refCount - 1 })) :
    ∀ connection ∈ pool.released e entry, (pool.step act).ledger.Unheld connection := by
  intro connection mem
  unfold released at mem
  split_ifs at mem with last
  · obtain rfl := List.mem_singleton.mp mem
    exact unheld_changed after hit entries last.1
  · cases mem

omit [DecidableEq S] in
theorem grant_disposals (e : Nat) : (pool.grant e).disposals = pool.disposals := by
  unfold grant
  split <;> rfl

theorem spares_entryConnected (promise : Nat) (res : Option Bool)
    (after : (pool.step (.entryConnected promise res)).Sound) :
    pool.Spares (.entryConnected promise res) := by
  by_cases refused : ∃ server alreadyClosed, pool.creates[promise]? = some ⟨server, .connecting⟩ ∧
      res = some alreadyClosed ∧ pool.disposed = true
  · obtain ⟨server, alreadyClosed, hit, rfl, disposed⟩ := refused
    have is : pool.step (.entryConnected promise (some alreadyClosed)) =
        ((pool.connected .refused alreadyClosed).disposeConnection pool.origins.length).setStage promise
          (.settled none) := by
      show pool.entryConnected promise (some alreadyClosed) = _
      unfold entryConnected
      simp [hit, disposed]
    refine spares_of after (by rw [is]; rfl) fun connection mem => ?_
    obtain rfl := List.mem_singleton.mp mem
    refine @Ledger.Sound.unheld_of_origin _ _ after.ledger _ .refused ?_ (by simp)
    rw [is]
    exact List.getElem?_concat_length
  · refine spares_none ?_
    show (pool.entryConnected promise res).disposals = _
    unfold entryConnected
    split
    case h_2 => rfl
    case h_1 server hit =>
      cases res with
      | none => rfl
      | some alreadyClosed =>
        split_ifs with disposed
        · exact absurd ⟨server, alreadyClosed, hit, rfl, disposed⟩ refused
        · rfl

theorem spares_callResumed (call : Nat) :
    pool.Spares (.callResumed call) := by
  refine spares_none ?_
  show (pool.callResumed call).disposals = _
  unfold callResumed
  split
  · exact grant_disposals _
  · split
    · exact grant_disposals _
    · rfl
    · rfl
  · rfl

theorem spares_disposeStandalone (connection : Nat) (after : (pool.step (.disposeStandalone connection)).Sound) :
    pool.Spares (.disposeStandalone connection) := by
  by_cases alone : pool.origins[connection]? = some .standalone
  · have is : pool.step (.disposeStandalone connection) = pool.disposeConnection connection := if_pos alone
    rw [is] at after
    refine @spares_of _ _ _ _ (is ▸ after) [connection] (by rw [is]; rfl) ?_
    rw [is]
    intro other mem
    obtain rfl := List.mem_singleton.mp mem
    exact after.ledger.unheld_of_origin alone (by simp)
  · have is : pool.step (.disposeStandalone connection) = pool := if_neg alone
    exact spares_none (by rw [is])

theorem spares_fallbackConnected (l : Nat) (res : Option Bool) (sound : pool.Sound)
    (after : (pool.step (.fallbackConnected l res)).Sound) :
    pool.Spares (.fallbackConnected l res) := by
  by_cases falls : ∃ lease alreadyClosed, pool.leases[l]? = some lease ∧ lease.fallbackPending = true ∧
      res = some alreadyClosed
  · obtain ⟨lease, alreadyClosed, held, pending, rfl⟩ := falls
    obtain ⟨entry, hit, _, _⟩ := sound.entry_of_lease held
    have view := fallbackConnected_ledger held pending hit alreadyClosed
    exact spares_of after (congrArg Ledger.disposals view)
      (unheld_released after hit (congrArg Ledger.entries view))
  · refine spares_none ?_
    show (pool.fallbackConnected l res).disposals = _
    unfold fallbackConnected
    split
    · rfl
    case h_2 lease held =>
      split_ifs with pending
      · rfl
      · cases res with
        | none => rfl
        | some alreadyClosed => exact absurd ⟨lease, alreadyClosed, held, by simpa using pending, rfl⟩ falls

theorem spares_disposeLease (l : Nat) (sound : pool.Sound) (after : (pool.step (.disposeLease l)).Sound) :
    pool.Spares (.disposeLease l) := by
  cases held : pool.leases[l]? with
  | none =>
    refine spares_none ?_
    show (pool.disposeLease l).disposals = _
    unfold disposeLease
    rw [held]
  | some lease =>
    cases disposed : lease.disposed with
    | true =>
      refine spares_none ?_
      show (pool.disposeLease l).disposals = _
      unfold disposeLease
      simp [held, disposed]
    | false =>
      cases moved : lease.fallbackConnection with
      | some fallback =>
        have view := disposeLease_ledger_moved held disposed moved
        refine spares_of after (congrArg Ledger.disposals view) fun connection mem => ?_
        obtain rfl := List.mem_singleton.mp mem
        refine @Ledger.Sound.unheld_of_origin _ _ after.ledger _ (.fallback l) ?_ (by simp)
        exact (congrArg (·.origins[connection]?) view).trans (sound.ledger.fallbackOrigin (lease_found held) moved)
      | none =>
        obtain ⟨entry, hit, _, _⟩ := sound.entry_of_lease held
        have view := disposeLease_ledger_held held disposed moved hit
        exact spares_of after (congrArg Ledger.disposals view)
          (unheld_released after hit (congrArg Ledger.entries view))

theorem spares_idleTimeout (e : Nat) (after : (pool.step (.idleTimeout e)).Sound) :
    pool.Spares (.idleTimeout e) := by
  by_cases due : ∃ entry, pool.entries[e]? = some entry ∧ entry.idleTimer = true ∧ entry.refCount = 0 ∧
      pool.current entry.server = some e
  · obtain ⟨entry, hit, set_timer, unheld, mapped⟩ := due
    have is : pool.step (.idleTimeout e) = (pool.cancelIdleTimer e).evictEntry entry.server e entry := by
      show pool.idleTimeout e = _
      unfold idleTimeout
      simp only [hit, set_timer, Bool.not_true, Bool.false_eq_true, if_false]
      exact if_pos ⟨unheld, mapped⟩
    have view := (congrArg SshConnectionPool.ledger is).trans (evictEntry_ledger entry.server e entry)
    rw [cancelIdleTimer_ledger] at view
    refine spares_of after (congrArg Ledger.disposals view) fun connection mem => ?_
    obtain rfl := List.mem_singleton.mp mem
    exact unheld_changed after hit (congrArg Ledger.entries view) unheld
  · refine spares_none ?_
    show (pool.idleTimeout e).disposals = _
    unfold idleTimeout
    split
    · rfl
    case h_2 entry hit =>
      dsimp only
      split_ifs with unset expired
      · rfl
      · exact absurd ⟨entry, hit, by simpa using unset, expired⟩ due
      · rfl

theorem spares_invalidate (server : S) (sound : pool.Sound) (after : (pool.step (.invalidate server)).Sound) :
    pool.Spares (.invalidate server) := by
  cases mapped : pool.current server with
  | none =>
    refine spares_none ?_
    show (pool.invalidate server).disposals = _
    unfold invalidate lookup
    rw [mapped]
    rfl
  | some e =>
    obtain ⟨entry, hit, rfl, _⟩ := sound.mapped mapped
    have is : pool.step (.invalidate entry.server) = pool.softRemoveEntry entry.server e entry := by
      show pool.invalidate entry.server = _
      unfold invalidate lookup
      simp [mapped, hit]
    have view := (congrArg SshConnectionPool.ledger is).trans (softRemoveEntry_ledger entry.server e entry)
    refine spares_of after (congrArg Ledger.disposals view) fun connection mem => ?_
    split_ifs at mem with unheld
    · obtain rfl := List.mem_singleton.mp mem
      exact unheld_changed after hit (congrArg Ledger.entries view) unheld
    · cases mem

theorem step_spares (sound : pool.Sound) (act : PoolAct S) (careful : ¬ pool.Slip act) : pool.Spares act := by
  have after := step_sound sound act careful
  cases act with
  | connectWithContext | pendingSettled | openChannel | channelOpened | channelFailed | onClose | unsubscribe
  | connectionClosed =>
    refine spares_none ?_
    simp only [step, connectWithContext, pendingSettled, openChannel, channelOpened, channelFailed, createFallback,
      onClose, unsubscribe, connectionClosed]
    repeat' split
    all_goals rfl
  | entryConnected promise res => exact spares_entryConnected _ _ after
  | callResumed call => exact spares_callResumed _
  | innerConnected call res =>
    refine spares_none ?_
    show (pool.innerConnected call res).disposals = _
    unfold innerConnected
    split
    · cases res <;> rfl
    · rfl
  | disposeStandalone connection => exact spares_disposeStandalone _ after
  | fallbackConnected l res => exact spares_fallbackConnected _ _ sound after
  | disposeLease l => exact spares_disposeLease _ sound after
  | idleTimeout e => exact spares_idleTimeout _ after
  | disconnect server =>
    show ∃ new, (pool.disconnect server).disposals = _ ∧ _
    unfold disconnect
    split
    · exact ⟨_, rfl, by rintro ⟨⟩⟩
    · exact ⟨[], (List.append_nil _).symm, by simp⟩
  | invalidate server => exact spares_invalidate _ sound after
  | dispose =>
    show ∃ new, pool.dispose.disposals = _ ∧ _
    unfold dispose
    split_ifs
    · exact ⟨[], (List.append_nil _).symm, by simp⟩
    · exact ⟨_, rfl, by rintro ⟨⟩⟩

omit [DecidableEq S] in
theorem Sound.not_leased (sound : pool.Sound) {e : Nat} (hit : pool.entries[e]? = some entry)
    (unheld : entry.refCount = 0) : ¬ pool.Leased entry.connection := by
  have origin : pool.origins[entry.connection]? = some (.entry e) := sound.ledger.entryOrigin (entry_found hit)
  rintro (alone | ⟨l, lease, held, up, uses⟩)
  · rw [origin] at alone
    cases alone
  · cases moved : lease.fallbackConnection with
    | some fallback =>
      rw [Lease.active, moved, Option.getD_some] at uses
      rw [← uses] at origin
      have other : pool.origins[fallback]? = some (.fallback l) := sound.ledger.fallbackOrigin (lease_found held) moved
      rw [origin] at other
      cases other
    | none =>
      rw [Lease.active, moved, Option.getD_none] at uses
      refine sound.ledger.spared ?_ (lease_found held) ?_ uses
      · exact sound.ledger.unheld_of_entry (entry_found hit) unheld
      · rw [LeaseCore.holds_eq_some.mpr ⟨up, moved, rfl⟩]
        rfl

omit [DecidableEq S] in
theorem Leased.of_same {after : SshConnectionPool S} {connection : Nat} (leased : after.Leased connection)
    (origins : after.origins = pool.origins) (leases : after.ledger.leases = pool.ledger.leases) :
    pool.Leased connection := by
  rcases leased with alone | ⟨l, lease, held, up, uses⟩
  · exact .inl (origins ▸ alone)
  · have there := lease_found held
    rw [leases] at there
    have hit : (pool.leases.map Lease.core)[l]? = some lease.core := there
    rw [List.getElem?_map, Option.map_eq_some_iff] at hit
    obtain ⟨old, hit, same⟩ := hit
    refine .inr ⟨l, old, hit, (congrArg LeaseCore.disposed same).trans up, ?_⟩
    exact (congrArg LeaseCore.active same).trans uses

/-- What a slip leaves behind: an entry that nobody answers for, or one whose count is short
of a lease. -/
theorem not_accounted_of_slip (sound : pool.Sound) (slip : pool.Slip act) : ¬ (pool.step act).Accounted := by
  intro accounted
  cases act with
  | channelFailed l error =>
    obtain ⟨lease, entry, held, hit, asked, attempts, unasked, _, mapped, unheld, kept, open_⟩ := slip
    have origin := sound.ledger.entryOrigin (entry_found hit)
    obtain ⟨other, at_entry, server, _⟩ := sound.entry_of_lease held
    obtain rfl := Option.mem_unique hit at_entry
    have is : pool.step (.channelFailed l error) =
        retire ((pool.modifyLease l fun lease => { lease with opening := lease.opening - 1 }).modifyLease l
          ({ · with fallbackPending := true })) lease.server lease.entry := by
      show pool.channelFailed l error = _
      unfold channelFailed
      simp only [held, if_neg asked]
      rw [if_pos (by rw [Bool.and_eq_true, Bool.not_eq_true']; exact ⟨attempts, unasked⟩)]
      exact if_pos mapped
    have view := (congrArg SshConnectionPool.ledger is).trans (retire_ledger lease.server lease.entry)
    rw [modifyLease_ledger l fun _ => by rfl, modifyLease_ledger l fun _ => by rfl] at view
    have small : entry.connection < (pool.step (.channelFailed l error)).origins.length := by
      rw [is]
      exact (List.getElem?_eq_some_iff.mp origin).1
    rcases accounted.answered entry.connection small with disposed | closed | pooled | leased
    · rw [is] at disposed
      exact kept disposed
    · rw [is] at closed
      exact open_ closed
    · obtain ⟨other, e, after, at_server, there, same⟩ := pooled
      have at_ledger := entry_found there
      rw [view] at at_ledger
      obtain ⟨old, was, changed⟩ := exists_of_modify at_ledger
      have connection : old.connection = entry.connection := by
        rw [← same]
        have kept := congrArg EntryCore.connection changed
        split_ifs at kept <;> exact kept.symm
      have at_old := sound.ledger.entryOrigin was
      rw [connection, show pool.ledger.origins[entry.connection]? = some (.entry lease.entry) from origin] at at_old
      cases at_old
      have in_map : put pool.current lease.server none other = some lease.entry := by
        rw [is] at at_server
        exact at_server
      obtain ⟨ne, pre⟩ := put_none in_map
      obtain ⟨core, here, at_other, _⟩ := sound.ledger.current pre
      rw [Option.mem_unique here (entry_found hit)] at at_other
      exact ne (at_other.symm.trans server)
    · refine sound.not_leased hit unheld (leased.of_same ?_ ?_)
      · rw [is]
        rfl
      · rw [view]
        rfl
  | fallbackConnected l res =>
    cases res with
    | none => exact slip
    | some alreadyClosed =>
      obtain ⟨lease, held, pending, disposed⟩ := slip
      obtain ⟨entry, hit, _, _⟩ := sound.entry_of_lease held
      have view := fallbackConnected_ledger held pending hit alreadyClosed
      -- The lease did not count before, and the count goes down all the same.
      have counted : entry.refCount = pool.ledger.holders lease.entry := sound.ledger.counted (entry_found hit)
      have still : shares LeaseCore.holds (pool.ledger.leases.modify l
          ({ · with fallbackConnection := some pool.origins.length })) lease.entry =
            pool.ledger.holders lease.entry := by
        refine shares_modify_same (lease_found held) ?_ _
        have unheld (lease : LeaseCore S) (gone : lease.disposed = true) : lease.holds = none := by
          unfold LeaseCore.holds
          rw [gone, Bool.true_or, if_pos rfl]
        rw [unheld _ disposed, unheld lease.core disposed]
      have there : (pool.step (.fallbackConnected l (some alreadyClosed))).ledger.entries[lease.entry]? =
          some { entry.core with refCount := entry.refCount - 1 } := by
        refine (congrArg (·.entries[lease.entry]?) view).trans ((modify_found (entry_found hit) _).trans ?_)
        rw [if_pos rfl]
      have found_after :
        ((pool.step (.fallbackConnected l (some alreadyClosed))).entries.map PoolEntry.core)[lease.entry]? =
          some { entry.core with refCount := entry.refCount - 1 } := there
      rw [List.getElem?_map, Option.map_eq_some_iff] at found_after
      obtain ⟨after, at_after, same⟩ := found_after
      have right := accounted.counted lease.entry after at_after
      rw [← holders_eq] at right
      have short : after.refCount = entry.refCount - 1 := congrArg EntryCore.refCount same
      have unchanged : after.refCount = (shares LeaseCore.holds (pool.ledger.leases.modify l
        ({ · with fallbackConnection := some pool.origins.length })) lease.entry : Nat) :=
          right.trans (congrArg (fun ledger => ((ledger.holders lease.entry : Nat) : Int)) view)
      omega
  | _ => exact slip

/-- The property, in every state of a run and at each of its steps. -/
def Correct (pool : SshConnectionPool S) : List (PoolAct S) → Prop
  | [] => pool.Accounted
  | act :: rest => pool.Accounted ∧ pool.Spares act ∧ (pool.step act).Correct rest

def NoSlip (pool : SshConnectionPool S) : List (PoolAct S) → Prop
  | [] => True
  | act :: rest => ¬ pool.Slip act ∧ (pool.step act).NoSlip rest

omit [DecidableEq S] in
theorem Correct.accounted [DecidableEq S] {acts : List (PoolAct S)} (correct : pool.Correct acts) : pool.Accounted := by
  cases acts with
  | nil => exact correct
  | cons => exact correct.1

theorem correct_iff (sound : pool.Sound) (acts : List (PoolAct S)) : pool.Correct acts ↔ pool.NoSlip acts := by
  induction acts generalizing pool with
  | nil => exact ⟨fun _ => trivial, fun _ => sound.accounted⟩
  | cons act rest ih =>
    constructor
    · rintro ⟨_, _, later⟩
      have careful : ¬ pool.Slip act := fun slip => not_accounted_of_slip sound slip later.accounted
      exact ⟨careful, (ih (step_sound sound act careful)).mp later⟩
    · rintro ⟨careful, later⟩
      exact ⟨sound.accounted, step_spares sound act careful, (ih (step_sound sound act careful)).mpr later⟩

def create (options : PoolOptions) : SshConnectionPool S := { options }

omit [DecidableEq S] in
theorem create_sound (opts : PoolOptions) : (create opts : SshConnectionPool S).Sound where
  ledger :=
    { counted := nofun
      current := nofun
      healthy := nofun
      idle := nofun
      entryOrigin := nofun
      fallbackOrigin := nofun
      lease := nofun
      owner := nofun }
  creating := ⟨nofun, nofun, nofun⟩
  steady := nofun

/-- The counts are those of the leases, and every connection is accounted for, in exactly the runs without slips. -/
theorem connections_owned (options : PoolOptions) (acts : List (PoolAct S)) :
    (create options).Correct acts ↔ (create options).NoSlip acts := correct_iff (create_sound options) acts

theorem Correct.after {acts : List (PoolAct S)} (correct : pool.Correct acts) : (pool.run acts).Accounted := by
  induction acts generalizing pool with
  | nil => exact correct
  | cons act rest ih => exact ih correct.2.2

def sampleOptions : PoolOptions := { enabled := true, idleTimeoutMs := 300000, toLowerCase := id }

def leaseActs (rest : List (PoolAct Nat)) : List (PoolAct Nat) :=
  [.connectWithContext 7 none, .entryConnected 0 (some false), .pendingSettled 0, .callResumed 0,
    .openChannel 0] ++ rest

/-- A lease disposed while its fallback connects is released twice; one whose channel fails afterwards takes the idle
entry. -/
theorem connections_lost :
    let pool := create sampleOptions
    let inside := leaseActs
      [.channelFailed 0 { message := "not connected" }, .disposeLease 0, .fallbackConnected 0 (some false)]
    let late := leaseActs
      [.disposeLease 0, .channelFailed 0 { message := "not connected" }, .fallbackConnected 0 none]
    ((pool.run inside).entries.map (·.refCount) = [-1] ∧ (pool.run inside).origins = [.entry 0, .fallback 0] ∧
      (pool.run inside).disposals = [0] ∧ (pool.run inside).closed = [] ∧ ¬ pool.Correct inside) ∧
    (pool.run late).origins = [.entry 0] ∧ (pool.run late).disposals = [] ∧ (pool.run late).closed = [] ∧
      (pool.run late).current 7 = none ∧ (pool.run late).leases.map (·.disposed) = [true] := by
  refine ⟨⟨by decide, by decide, by decide, by decide, fun correct => ?_⟩,
    by decide, by decide, by decide, by decide, by decide⟩
  have counted := correct.after.counted 0
    { server := 7, connection := 0, refCount := -1, healthy := false, subscribed := false } (by rfl)
  have negative : (-1 : Int) = _ := counted
  omega

end SshConnectionPool

end NexTerminal.Ssh
