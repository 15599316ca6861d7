import NexTerminal.Ssh.ConnectionPool

namespace NexTerminal.Ssh

open Library

variable {S : Type}

structure EntryCore (S : Type) where
  server : S
  connection : Nat
  refCount : Int
  healthy : Bool

structure LeaseCore (S : Type) where
  server : S
  entry : Nat
  inner : Nat
  disposed : Bool
  fallbackConnection : Option Nat

namespace LeaseCore

def active (lease : LeaseCore S) : Nat := lease.fallbackConnection.getD lease.inner

def holds (lease : LeaseCore S) : Option Nat :=
  if lease.disposed || lease.fallbackConnection.isSome then none else some lease.entry

theorem holds_eq_some {lease : LeaseCore S} {e : Nat} :
    lease.holds = some e ↔ lease.disposed = false ∧ lease.fallbackConnection = none ∧ lease.entry = e := by
  unfold holds
  cases lease.disposed <;> cases lease.fallbackConnection <;> simp

end LeaseCore

def PoolEntry.core (entry : PoolEntry S) : EntryCore S :=
  ⟨entry.server, entry.connection, entry.refCount, entry.healthy⟩

def Lease.core (lease : Lease S) : LeaseCore S :=
  ⟨lease.server, lease.entry, lease.inner, lease.disposed, lease.fallbackConnection⟩

structure Ledger (S : Type) where
  entries : List (EntryCore S)
  leases : List (LeaseCore S)
  current : S → Option Nat
  origins : List Origin
  disposals : List Nat
  closed : List Nat

def SshConnectionPool.ledger (pool : SshConnectionPool S) : Ledger S where
  entries := pool.entries.map PoolEntry.core
  leases := pool.leases.map Lease.core
  current := pool.current
  origins := pool.origins
  disposals := pool.disposals
  closed := pool.closed

namespace Ledger

def holders (ledger : Ledger S) (e : Nat) : Nat := shares LeaseCore.holds ledger.leases e

def Gone (ledger : Ledger S) (connection : Nat) : Prop :=
  connection ∈ ledger.disposals ∨ connection ∈ ledger.closed

/-- Who answers for a connection, by what it was created for. -/
def Owner (ledger : Ledger S) (connection : Nat) : Origin → Prop
  | .entry e => ∃ entry, ledger.entries[e]? = some entry ∧ entry.connection = connection
  | .fallback l => ∃ lease, ledger.leases[l]? = some lease ∧ lease.fallbackConnection = some connection ∧
      (lease.disposed = true → connection ∈ ledger.disposals)
  | .standalone => True
  | .refused => connection ∈ ledger.disposals

structure Sound (ledger : Ledger S) : Prop where
  counted : ∀ ⦃e : Nat⦄ ⦃entry : EntryCore S⦄, ledger.entries[e]? = some entry →
    entry.refCount = ledger.holders e
  current : ∀ ⦃server : S⦄ ⦃e : Nat⦄, ledger.current server = some e →
    ∃ entry, ledger.entries[e]? = some entry ∧ entry.server = server ∧ entry.healthy = true
  healthy : ∀ ⦃e : Nat⦄ ⦃entry : EntryCore S⦄, ledger.entries[e]? = some entry → entry.healthy = true →
    ledger.current entry.server = some e ∨ entry.connection ∈ ledger.disposals
  idle : ∀ ⦃e : Nat⦄ ⦃entry : EntryCore S⦄, ledger.entries[e]? = some entry → entry.refCount = 0 →
    ledger.current entry.server = some e ∨ ledger.Gone entry.connection
  entryOrigin : ∀ ⦃e : Nat⦄ ⦃entry : EntryCore S⦄, ledger.entries[e]? = some entry →
    ledger.origins[entry.connection]? = some (.entry e)
  fallbackOrigin : ∀ ⦃l : Nat⦄ ⦃lease : LeaseCore S⦄ ⦃connection :
    Nat⦄, ledger.leases[l]? = some lease →
    lease.fallbackConnection = some connection → ledger.origins[connection]? = some (.fallback l)
  lease : ∀ ⦃l : Nat⦄ ⦃lease : LeaseCore S⦄, ledger.leases[l]? = some lease →
    ∃ entry, ledger.entries[lease.entry]? = some entry ∧ entry.server = lease.server ∧
      entry.connection = lease.inner
  owner : ∀ ⦃connection : Nat⦄ ⦃origin : Origin⦄, ledger.origins[connection]? = some origin →
    ledger.Owner connection origin

def unmap (ledger : Ledger S) (current : S → Option Nat) (e : Nat) (unmarked : Bool) (disposals : List Nat) :
    Ledger S :=
  { ledger with
    entries := ledger.entries.modify e fun entry => { entry with healthy := entry.healthy && unmarked }
    current
    disposals := ledger.disposals ++ disposals }

def leave (ledger : Ledger S) (l e : Nat) (change : LeaseCore S → LeaseCore S) (refCount : Int)
    (origins : List Origin) (disposals : List Nat) : Ledger S :=
  { ledger with
    entries := ledger.entries.modify e ({ · with refCount })
    leases := ledger.leases.modify l change
    origins := ledger.origins ++ origins
    disposals := ledger.disposals ++ disposals }

def disposeMoved (ledger : Ledger S) (l : Nat) (fallback : Nat) : Ledger S :=
  { ledger with
    leases := ledger.leases.modify l ({ · with disposed := true })
    disposals := ledger.disposals ++ [fallback] }

def grant (ledger : Ledger S) (e : Nat) (entry : EntryCore S) : Ledger S :=
  { ledger with
    entries := ledger.entries.modify e ({ · with refCount := entry.refCount + 1 })
    leases := ledger.leases ++ [⟨entry.server, e, entry.connection, false, none⟩] }

def addEntry [DecidableEq S] (ledger : Ledger S) (server : S) : Ledger S :=
  { ledger with
    entries := ledger.entries ++ [⟨server, ledger.origins.length, 0, true⟩]
    current := SshConnectionPool.put ledger.current server (some ledger.entries.length)
    origins := ledger.origins ++ [.entry ledger.entries.length] }

def addOrigin (ledger : Ledger S) (origin : Origin) (disposals : List Nat) : Ledger S :=
  { ledger with
    origins := ledger.origins ++ [origin]
    disposals := ledger.disposals ++ disposals }

end Ledger

namespace SshConnectionPool

variable [DecidableEq S] {V : Type} {map : S → Option V} {server other : S} {value : V}

theorem put_none (hit : put map server none other = some value) : other ≠ server ∧ map other = some value := by
  unfold put at hit
  split_ifs at hit with same
  exact ⟨same, hit⟩

theorem put_some {added : V} (hit : put map server (some added) other = some value) :
    other = server ∧ value = added ∨ other ≠ server ∧ map other = some value := by
  unfold put at hit
  split_ifs at hit with same
  · exact .inl ⟨same, (Option.some.inj hit).symm⟩
  · exact .inr ⟨same, hit⟩

theorem put_other {added : Option V} (ne : other ≠ server) : put map server added other = map other := if_neg ne

@[simp] theorem put_self {added : Option V} : put map server added server = added := if_pos rfl

end SshConnectionPool

namespace Ledger

open SshConnectionPool

variable {ledger : Ledger S} {e l : Nat} {entry : EntryCore S} {lease : LeaseCore S}

theorem exists_modified {change : EntryCore S → EntryCore S}
    (same : ∀ entry, (change entry).server = entry.server ∧ (change entry).connection = entry.connection)
    {f : Nat} (hit : ledger.entries[f]? = some entry) :
    ∃ after, (ledger.entries.modify e change)[f]? = some after ∧
      after.server = entry.server ∧ after.connection = entry.connection := by
  refine ⟨_, modify_found hit change, ?_⟩
  split_ifs
  · exact same entry
  · exact ⟨rfl, rfl⟩

theorem Sound.more_gone (sound : ledger.Sound) (disposals closed : List Nat) :
    ({ ledger with disposals := ledger.disposals ++ disposals, closed := ledger.closed ++ closed } : Ledger S).Sound :=
  { sound with
    healthy := fun _ _ hit up => (sound.healthy hit up).imp id (List.mem_append_left _)
    idle := fun _ _ hit unheld => (sound.idle hit unheld).imp id
      (Or.imp (List.mem_append_left _) (List.mem_append_left _))
    owner := fun conn origin created => by
      cases origin with
      | entry e => exact sound.owner created
      | fallback l =>
        obtain ⟨lease, hit, here, gone⟩ := sound.owner created
        exact ⟨lease, hit, here, fun disposed => List.mem_append_left _ (gone disposed)⟩
      | standalone => trivial
      | refused => exact List.mem_append_left disposals (sound.owner created) }

theorem Sound.more_closed (sound : ledger.Sound) (closed : List Nat) :
    ({ ledger with closed := ledger.closed ++ closed } : Ledger S).Sound := by
  have gone := sound.more_gone [] closed
  rwa [List.append_nil] at gone

theorem Sound.more_disposed (sound : ledger.Sound) (disposals : List Nat) :
    ({ ledger with disposals := ledger.disposals ++ disposals } : Ledger S).Sound := by
  have gone := sound.more_gone disposals []
  rwa [List.append_nil] at gone

variable {disposals : List Nat}

/-- An entry may leave the map if it is not healthy, and if its connection is gone in case nobody holds it. -/
theorem Sound.unmap (sound : ledger.Sound) (hit : ledger.entries[e]? = some entry)
    {current : S → Option Nat} (others : ∀ server f, current server = some f ↔
      ledger.current server = some f ∧ e ≠ f)
    {unmarked : Bool} (down : unmarked = false ∨ entry.connection ∈ disposals)
    (idle : entry.refCount = 0 → entry.connection ∈ disposals ∨ ledger.Gone entry.connection) :
    (ledger.unmap current e unmarked disposals).Sound := by
  have gone := sound.more_gone disposals []
  refine
    { counted := fun f after now => ?_
      current := fun server f at_server => ?_
      healthy := fun f after now up => ?_
      idle := fun f after now unheld => ?_
      entryOrigin := fun f after now => ?_
      fallbackOrigin := sound.fallbackOrigin
      lease := fun k lease holds => ?_
      owner := fun conn origin created => ?_ }
  · obtain ⟨old, was, rfl⟩ := exists_of_modify now
    have counted := sound.counted was
    split_ifs <;> exact counted
  · obtain ⟨was, ne⟩ := (others server f).mp at_server
    obtain ⟨old, pre, same, up⟩ := sound.current was
    refine ⟨old, (modify_found pre _).trans ?_, same, up⟩
    rw [if_neg ne]
  · obtain ⟨old, was, rfl⟩ := exists_of_modify now
    split_ifs at up ⊢ with here
    · subst here
      obtain rfl := Option.mem_unique hit was
      rcases down with down | disposed
      · rw [down, Bool.and_false] at up
        cases up
      · exact .inr (List.mem_append_right _ disposed)
    · exact (sound.healthy was up).imp (fun mapped => (others _ f).mpr ⟨mapped, here⟩) (List.mem_append_left _)
  · obtain ⟨old, was, rfl⟩ := exists_of_modify now
    split_ifs at unheld ⊢ with here
    · subst here
      obtain rfl := Option.mem_unique hit was
      exact .inr ((idle unheld).elim (fun disposed => .inl (List.mem_append_right _ disposed))
        (Or.imp (List.mem_append_left _) id))
    · exact (sound.idle was unheld).imp (fun mapped => (others _ f).mpr ⟨mapped, here⟩)
        (Or.imp (List.mem_append_left _) id)
  · obtain ⟨old, was, rfl⟩ := exists_of_modify now
    have origin := sound.entryOrigin was
    split_ifs <;> exact origin
  · obtain ⟨old, was, server, inner⟩ := sound.lease holds
    obtain ⟨after, now, sameServer, sameConnection⟩ :=
      @exists_modified _ ledger e _ (fun entry => { entry with healthy := entry.healthy && unmarked })
        (fun _ => ⟨rfl, rfl⟩) _ was
    exact ⟨after, now, sameServer.trans server, sameConnection.trans inner⟩
  · cases origin with
    | entry f =>
      obtain ⟨old, was, here⟩ := sound.owner created
      obtain ⟨after, now, _, sameConnection⟩ :=
        @exists_modified _ ledger e _ (fun entry => { entry with healthy := entry.healthy && unmarked })
        (fun _ => ⟨rfl, rfl⟩) _ was
      exact ⟨after, now, sameConnection.trans here⟩
    | fallback l => exact gone.owner created
    | standalone => trivial
    | refused => exact gone.owner created

theorem Sound.put_iff [DecidableEq S] (sound : ledger.Sound) (hit : ledger.entries[e]? = some entry)
    (mapped : ledger.current entry.server = some e) (server : S) (f : Nat) :
    put ledger.current entry.server none server = some f ↔ ledger.current server = some f ∧ e ≠ f := by
  constructor
  · intro now
    obtain ⟨ne, was⟩ := put_none now
    refine ⟨was, ?_⟩
    rintro rfl
    obtain ⟨old, pre, same, _⟩ := sound.current was
    rw [hit] at pre
    exact ne (same ▸ (congrArg EntryCore.server (Option.some.inj pre)).symm)
  · rintro ⟨was, ne⟩
    rw [put_other, was]
    rintro rfl
    rw [mapped] at was
    exact ne (Option.some.inj was)

theorem Sound.unmapped_iff (sound : ledger.Sound) (hit : ledger.entries[e]? = some entry)
    (unmapped : ledger.current entry.server ≠ some e) (server : S) (f : Nat) :
    ledger.current server = some f ↔ ledger.current server = some f ∧ e ≠ f := by
  refine ⟨fun mapped => ⟨mapped, ?_⟩, And.left⟩
  rintro rfl
  obtain ⟨old, pre, same, _⟩ := sound.current mapped
  rw [hit] at pre
  rw [Option.some.inj pre, same] at unmapped
  exact unmapped mapped

theorem Sound.leave (sound : ledger.Sound) (hit : ledger.entries[e]? = some entry)
    (held : ledger.leases[l]? = some lease) (holding : lease.holds = some e) {change : LeaseCore S → LeaseCore S}
    (same : ∀ lease, (change lease).server = lease.server ∧ (change lease).entry = lease.entry ∧
      (change lease).inner = lease.inner) (left : (change lease).holds = none) {origins : List Origin}
    (moved : origins = [] ∧ (change lease).fallbackConnection = none ∨
      origins = [.fallback l] ∧ (change lease).fallbackConnection = some ledger.origins.length ∧
        (change lease).disposed = false)
    (idle : entry.refCount - 1 = 0 → ledger.current entry.server = some e ∨ entry.connection ∈ disposals) :
    (ledger.leave l e change (entry.refCount - 1) origins disposals).Sound := by
  obtain ⟨_, unmoved, _⟩ := LeaseCore.holds_eq_some.mp holding
  refine
    { counted := fun f after now => ?_
      current := fun server f at_server => ?_
      healthy := fun f after now up => ?_
      idle := fun f after now unheld => ?_
      entryOrigin := fun f after now => ?_
      fallbackOrigin := fun k after conn now at_fallback => ?_
      lease := fun k after now => ?_
      owner := fun conn origin created => ?_ }
  · obtain ⟨old, was, rfl⟩ := exists_of_modify now
    have counted := sound.counted was
    have moves := @shares_modify _ LeaseCore.holds _ _ _ held change f
    simp only [holding, left, reduceCtorEq, if_false, Option.some.injEq] at moves
    unfold holders at counted ⊢
    show _ = ((shares LeaseCore.holds (ledger.leases.modify l change) f : Nat) : Int)
    split_ifs at moves ⊢ with here
    · subst here
      obtain rfl := Option.mem_unique hit was
      show entry.refCount - 1 = _
      omega
    · omega
  · obtain ⟨old, was, same, up⟩ := sound.current at_server
    refine ⟨_, modify_found was _, ?_⟩
    split_ifs <;> exact ⟨same, up⟩
  · obtain ⟨old, was, rfl⟩ := exists_of_modify now
    have pre : old.healthy = true := by split_ifs at up <;> exact up
    have mapped := (sound.healthy was pre).imp id (List.mem_append_left disposals)
    split_ifs <;> exact mapped
  · obtain ⟨old, was, rfl⟩ := exists_of_modify now
    split_ifs at unheld ⊢ with here
    · subst here
      obtain rfl := Option.mem_unique hit was
      exact (idle unheld).imp id fun disposed => .inl (List.mem_append_right _ disposed)
    · exact (sound.idle was unheld).imp id (Or.imp (List.mem_append_left _) id)
  · obtain ⟨old, was, rfl⟩ := exists_of_modify now
    have origin := getElem?_kept (sound.entryOrigin was) origins
    split_ifs <;> exact origin
  · obtain ⟨old, was, rfl⟩ := exists_of_modify now
    split_ifs at at_fallback with here
    · subst here
      obtain rfl := Option.mem_unique held was
      rcases moved with ⟨_, none⟩ | ⟨new, there, _⟩
      · rw [none] at at_fallback
        cases at_fallback
      · rw [there] at at_fallback
        obtain rfl := Option.some.inj at_fallback
        show (ledger.origins ++ origins)[_]? = _
        rw [new, List.getElem?_concat_length]
    · exact getElem?_kept (sound.fallbackOrigin was at_fallback) origins
  · obtain ⟨old, was, rfl⟩ := exists_of_modify now
    obtain ⟨pre, at_entry, server, inner⟩ := sound.lease was
    obtain ⟨after, there, sameServer, sameConnection⟩ :=
      @exists_modified _ ledger e _ ({ · with refCount := entry.refCount - 1 }) (fun _ => ⟨rfl, rfl⟩) _ at_entry
    have kept : (if l = k then change old else old).server = old.server ∧
        (if l = k then change old else old).entry = old.entry ∧
          (if l = k then change old else old).inner = old.inner := by
      split_ifs
      · exact same old
      · exact ⟨rfl, rfl, rfl⟩
    rw [kept.1, kept.2.1, kept.2.2]
    exact ⟨after, there, sameServer.trans server, sameConnection.trans inner⟩
  · -- What was created before has its owner still, but for the lease that leaves.
    have old_owner (old : ledger.origins[conn]? = some origin) :
        (ledger.leave l e change (entry.refCount - 1) origins disposals).Owner conn origin := by
      have owner := sound.owner old
      cases origin with
      | entry f =>
        obtain ⟨pre, was, here⟩ := owner
        obtain ⟨after, now, _, sameConnection⟩ :=
          @exists_modified _ ledger e _ ({ · with refCount := entry.refCount - 1 }) (fun _ => ⟨rfl, rfl⟩) _ was
        exact ⟨after, now, sameConnection.trans here⟩
      | fallback k =>
        obtain ⟨other, was, here, gone⟩ := owner
        have ne : l ≠ k := by
          rintro rfl
          rw [Option.mem_unique held was, here] at unmoved
          cases unmoved
        refine ⟨other, (modify_found was _).trans ?_, here, fun disposed => List.mem_append_left _ (gone disposed)⟩
        rw [if_neg ne]
      | standalone => trivial
      | refused => exact List.mem_append_left _ owner
    rcases moved with ⟨rfl, _⟩ | ⟨rfl, there, up⟩
    · exact old_owner ((congrArg (·[conn]?) (List.append_nil _)).symm.trans created)
    · rcases getElem?_snoc created with old | ⟨rfl, rfl⟩
      · exact old_owner old
      · refine ⟨_, modify_found held change, ?_⟩
        rw [if_pos rfl]
        exact ⟨there, fun disposed => absurd disposed (by rw [up]; exact Bool.false_ne_true)⟩

theorem Sound.disposeMoved (sound : ledger.Sound) (held : ledger.leases[l]? = some lease) {fallback : Nat}
    (moved : lease.fallbackConnection = some fallback) : (ledger.disposeMoved l fallback).Sound := by
  have unheld (lease : LeaseCore S) (moved : lease.fallbackConnection.isSome) (disposed : Bool) :
      ({ lease with disposed } : LeaseCore S).holds = none := by
    unfold LeaseCore.holds
    simp [moved]
  have still (e : Nat) : (ledger.disposeMoved l fallback).holders e = ledger.holders e := by
    refine shares_modify_same held ?_ e
    rw [unheld lease (by rw [moved]; rfl), ← unheld lease (by rw [moved]; rfl) lease.disposed]
  refine
    { counted := fun e entry hit => (sound.counted hit).trans (congrArg _ (still e).symm)
      current := sound.current
      healthy := fun e entry hit up => (sound.healthy hit up).imp id (List.mem_append_left _)
      idle := fun e entry hit idle => (sound.idle hit idle).imp id (Or.imp (List.mem_append_left _) id)
      entryOrigin := sound.entryOrigin
      fallbackOrigin := fun k after conn now at_fallback => ?_
      lease := fun k after now => ?_
      owner := fun conn origin created => ?_ }
  · obtain ⟨old, was, rfl⟩ := exists_of_modify now
    refine sound.fallbackOrigin was ?_
    split_ifs at at_fallback <;> exact at_fallback
  · obtain ⟨old, was, rfl⟩ := exists_of_modify now
    have pre := sound.lease was
    split_ifs <;> exact pre
  · have owner := sound.owner created
    cases origin with
    | entry e => exact owner
    | fallback k =>
      obtain ⟨other, was, here, gone⟩ := owner
      refine ⟨_, modify_found was _, ?_, fun disposed => ?_⟩
      · split_ifs <;> exact here
      · by_cases same : l = k
        · subst same
          rw [Option.mem_unique was held, moved] at here
          rw [← Option.some.inj here]
          exact List.mem_append_right _ (List.mem_singleton_self fallback)
        · rw [if_neg same] at disposed
          exact List.mem_append_left _ (gone disposed)
    | standalone => trivial
    | refused => exact List.mem_append_left _ owner

theorem Sound.grant (sound : ledger.Sound) (hit : ledger.entries[e]? = some entry) :
    (ledger.grant e entry).Sound := by
  have modified {f : Nat} {other : EntryCore S} (was : ledger.entries[f]? = some other) :=
    @exists_modified _ ledger e _ ({ · with refCount := entry.refCount + 1 }) (fun _ => ⟨rfl, rfl⟩) _ was
  refine
    { counted := fun f after now => ?_
      current := fun server f at_server => ?_
      healthy := fun f after now up => ?_
      idle := fun f after now unheld => ?_
      entryOrigin := fun f after now => ?_
      fallbackOrigin := fun k after conn now at_fallback => ?_
      lease := fun k after now => ?_
      owner := fun conn origin created => ?_ }
  · obtain ⟨old, was, rfl⟩ := exists_of_modify now
    have counted := sound.counted was
    have more := @shares_append _ LeaseCore.holds ledger.leases ⟨entry.server, e, entry.connection, false, none⟩ f
    have holding : LeaseCore.holds ⟨entry.server, e, entry.connection, false, none⟩ = some e := rfl
    simp only [holding, Option.some.injEq] at more
    unfold holders at counted ⊢
    show _ = ((shares LeaseCore.holds (ledger.leases ++ [_]) f : Nat) : Int)
    split_ifs at more ⊢ with here
    · subst here
      obtain rfl := Option.mem_unique hit was
      show entry.refCount + 1 = _
      omega
    · omega
  · obtain ⟨old, was, same, up⟩ := sound.current at_server
    refine ⟨_, modify_found was _, ?_⟩
    split_ifs <;> exact ⟨same, up⟩
  · obtain ⟨old, was, rfl⟩ := exists_of_modify now
    have pre : old.healthy = true := by split_ifs at up <;> exact up
    have mapped := sound.healthy was pre
    split_ifs <;> exact mapped
  · obtain ⟨old, was, rfl⟩ := exists_of_modify now
    split_ifs at unheld ⊢ with here
    · have counted := sound.counted hit
      have none_left : entry.refCount + 1 = 0 := unheld
      omega
    · exact sound.idle was unheld
  · obtain ⟨old, was, rfl⟩ := exists_of_modify now
    have origin := sound.entryOrigin was
    split_ifs <;> exact origin
  · rcases getElem?_snoc now with was | ⟨_, rfl⟩
    · exact sound.fallbackOrigin was at_fallback
    · cases at_fallback
  · rcases getElem?_snoc now with was | ⟨_, rfl⟩
    · obtain ⟨pre, at_entry, server, inner⟩ := sound.lease was
      obtain ⟨after, there, sameServer, sameConnection⟩ := modified at_entry
      exact ⟨after, there, sameServer.trans server, sameConnection.trans inner⟩
    · exact modified hit
  · have owner := sound.owner created
    cases origin with
    | entry f =>
      obtain ⟨pre, was, here⟩ := owner
      obtain ⟨after, there, _, sameConnection⟩ := modified was
      exact ⟨after, there, sameConnection.trans here⟩
    | fallback k =>
      obtain ⟨other, was, rest⟩ := owner
      exact ⟨other, getElem?_kept was _, rest⟩
    | standalone => trivial
    | refused => exact owner

theorem Sound.addEntry [DecidableEq S] (sound : ledger.Sound) {server : S} (vacant : ledger.current server = none) :
    (ledger.addEntry server).Sound := by
  have elsewhere {e : Nat} {other : S} (mapped : ledger.current other = some e) :
      put ledger.current server (some ledger.entries.length) other = some e := by
    rw [put_other, mapped]
    rintro rfl
    rw [vacant] at mapped
    cases mapped
  refine
    { counted := fun e entry now => ?_
      current := fun other e at_server => ?_
      healthy := fun e entry now up => ?_
      idle := fun e entry now unheld => ?_
      entryOrigin := fun e entry now => ?_
      fallbackOrigin := fun l lease conn held at_fallback =>
        getElem?_kept (sound.fallbackOrigin held at_fallback) _
      lease := fun l lease held => ?_
      owner := fun conn origin created => ?_ }
  · rcases getElem?_snoc now with was | ⟨rfl, rfl⟩
    · exact sound.counted was
    · -- A lease has an entry that was there before.
      have nobody : ledger.holders ledger.entries.length = 0 := by
        by_contra held
        obtain ⟨l, lease, at_lease, holds⟩ := exists_holder held
        obtain ⟨_, there, _⟩ := sound.lease at_lease
        rw [(LeaseCore.holds_eq_some.mp holds).2.2, List.getElem?_length] at there
        cases there
      exact congrArg _ nobody.symm
  · rcases put_some at_server with ⟨rfl, rfl⟩ | ⟨_, was⟩
    · exact ⟨_, List.getElem?_concat_length, rfl, rfl⟩
    · obtain ⟨entry, hit, rest⟩ := sound.current was
      exact ⟨entry, getElem?_kept hit _, rest⟩
  · rcases getElem?_snoc now with was | ⟨rfl, rfl⟩
    · exact (sound.healthy was up).imp elsewhere id
    · exact .inl put_self
  · rcases getElem?_snoc now with was | ⟨rfl, rfl⟩
    · exact (sound.idle was unheld).imp elsewhere id
    · exact .inl put_self
  · rcases getElem?_snoc now with was | ⟨rfl, rfl⟩
    · exact getElem?_kept (sound.entryOrigin was) _
    · exact List.getElem?_concat_length
  · obtain ⟨entry, hit, rest⟩ := sound.lease held
    exact ⟨entry, getElem?_kept hit _, rest⟩
  · rcases getElem?_snoc created with old | ⟨rfl, rfl⟩
    · have owner := sound.owner old
      cases origin with
      | entry e =>
        obtain ⟨entry, hit, here⟩ := owner
        exact ⟨entry, getElem?_kept hit _, here⟩
      | fallback l => exact owner
      | standalone => trivial
      | refused => exact owner
    · exact ⟨_, List.getElem?_concat_length, rfl⟩

theorem Sound.addOrigin (sound : ledger.Sound) {origin : Origin}
    (unshared : origin = .standalone ∨ origin = .refused ∧ ledger.origins.length ∈ disposals) :
    (ledger.addOrigin origin disposals).Sound := by
  have gone := sound.more_gone disposals []
  refine
    { counted := sound.counted
      current := sound.current
      healthy := gone.healthy
      idle := fun e entry hit idle => (sound.idle hit idle).imp id (Or.imp (List.mem_append_left _) id)
      entryOrigin := fun e entry hit => getElem?_kept (sound.entryOrigin hit) _
      fallbackOrigin := fun l lease conn held at_fallback =>
        getElem?_kept (sound.fallbackOrigin held at_fallback) _
      lease := sound.lease
      owner := fun conn created_for created => ?_ }
  rcases getElem?_snoc created with old | ⟨rfl, rfl⟩
  · have owner := gone.owner old
    cases created_for <;> exact owner
  · rcases unshared with rfl | ⟨rfl, disposed⟩
    · trivial
    · exact List.mem_append_right _ disposed

theorem Sound.clear (sound : ledger.Sound)
    (all : ∀ e entry, ledger.entries[e]? = some entry → ledger.current entry.server = some e →
      entry.connection ∈ disposals) :
    ({ ledger with current := fun _ => none, disposals := ledger.disposals ++ disposals } : Ledger S).Sound := by
  have gone := sound.more_gone disposals []
  refine
    { counted := sound.counted
      current := nofun
      healthy := fun e entry hit up => .inr ?_
      idle := fun e entry hit unheld => .inr ?_
      entryOrigin := sound.entryOrigin
      fallbackOrigin := sound.fallbackOrigin
      lease := sound.lease
      owner := fun conn created_for created => ?_ }
  · rcases sound.healthy hit up with mapped | disposed
    · exact List.mem_append_right _ (all e entry hit mapped)
    · exact List.mem_append_left _ disposed
  · rcases sound.idle hit unheld with mapped | before
    · exact .inl (List.mem_append_right _ (all e entry hit mapped))
    · exact before.imp (List.mem_append_left _) id
  · have owner := gone.owner created
    cases created_for <;> exact owner

end Ledger

end NexTerminal.Ssh
