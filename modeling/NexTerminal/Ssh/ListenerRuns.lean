import NexTerminal.Ssh.CloseListeners
import NexTerminal.Ssh.PoolRuns

namespace NexTerminal.Ssh

open Library

variable {S : Type} [DecidableEq S]

namespace SshConnectionPool

variable {pool : SshConnectionPool S}

section

omit [DecidableEq S]

theorem grant_notifications (e : Nat) : (pool.grant e).notifications = pool.notifications := by
  unfold grant
  split <;> rfl

theorem callResumed_notifications (call : Nat) : (pool.callResumed call).notifications = pool.notifications := by
  unfold callResumed
  split
  · exact grant_notifications _
  · split
    · exact grant_notifications _
    · rfl
    · rfl
  · rfl

theorem innerConnected_notifications (call : Nat) (res : Option Bool) :
    (pool.innerConnected call res).notifications = pool.notifications := by
  unfold innerConnected
  repeat' split
  all_goals rfl

theorem disposeStandalone_notifications (connection : Nat) :
    (pool.disposeStandalone connection).notifications = pool.notifications := by
  unfold disposeStandalone
  split <;> rfl

theorem openChannel_notifications (l : Nat) : (pool.openChannel l).notifications = pool.notifications := by
  unfold openChannel
  repeat' split
  all_goals rfl

theorem fallbackConnected_notifications (l : Nat) (res : Option Bool) :
    (pool.fallbackConnected l res).notifications = pool.notifications := by
  unfold fallbackConnected
  split
  · rfl
  · split_ifs
    · rfl
    · cases res with
      | none => rfl
      | some alreadyClosed => exact (releaseEntry_rest _ _).2.2.2

theorem disposeLease_notifications (l : Nat) : (pool.disposeLease l).notifications = pool.notifications := by
  unfold disposeLease
  split
  · rfl
  · split_ifs
    · rfl
    · split
      · rfl
      · exact (releaseEntry_rest _ _).2.2.2

theorem onClose_notifications (l : Nat) : (pool.onClose l).notifications = pool.notifications := by
  unfold onClose
  repeat' split
  all_goals rfl

theorem dispose_notifications : pool.dispose.notifications = pool.notifications := by
  unfold dispose
  split <;> rfl

end

theorem connectionClosed_notifications (connection : Nat) :
    let act : PoolAct S := .connectionClosed connection
    (pool.step act).notifications = pool.notifications ∧ (∀ connection, ¬ pool.Closes act connection) ∨
      ∃ connection, pool.Closes act connection ∧
        (pool.step act).notifications = pool.notifications ++ pool.notified connection := by
  by_cases open_ : connection < pool.origins.length ∧ connection ∉ pool.closed
  · refine .inr ⟨connection, ⟨rfl, open_⟩, ?_⟩
    show (pool.connectionClosed connection).notifications = _
    unfold connectionClosed
    dsimp only
    repeat' split
    all_goals rfl
  · refine .inl ⟨?_, fun other closes => ?_⟩
    · show (pool.connectionClosed connection).notifications = _
      unfold connectionClosed
      rw [if_neg open_]
    · obtain ⟨same, rest⟩ := closes
      cases same
      exact open_ rest

theorem connectWithContext_notifications (server : S) (multiplexing : Option Bool) :
    (pool.connectWithContext server multiplexing).notifications = pool.notifications := by
  unfold connectWithContext
  dsimp only
  repeat' split
  all_goals rfl

theorem entryConnected_notifications (promise : Nat) (res : Option Bool) :
    (pool.entryConnected promise res).notifications = pool.notifications := by
  unfold entryConnected
  repeat' split
  all_goals rfl

theorem pendingSettled_notifications (promise : Nat) :
    (pool.pendingSettled promise).notifications = pool.notifications := by
  unfold pendingSettled
  split <;> rfl

theorem channelFailed_notifications (l : Nat) (error : ChannelError) :
    (pool.channelFailed l error).notifications = pool.notifications := by
  unfold channelFailed createFallback
  dsimp only
  repeat' split
  all_goals rfl

theorem idleTimeout_notifications (e : Nat) : (pool.idleTimeout e).notifications = pool.notifications := by
  unfold idleTimeout
  dsimp only
  repeat' split
  all_goals rfl

theorem disconnect_notifications (server : S) : (pool.disconnect server).notifications = pool.notifications := by
  unfold disconnect
  split <;> rfl

theorem invalidate_notifications (server : S) : (pool.invalidate server).notifications = pool.notifications := by
  unfold invalidate softRemoveEntry
  repeat' split
  all_goals rfl

theorem step_notifications (pool : SshConnectionPool S) (act : PoolAct S) :
    (pool.step act).notifications = pool.notifications ∧ (∀ connection, ¬ pool.Closes act connection) ∨
      ∃ connection, pool.Closes act connection ∧
        (pool.step act).notifications = pool.notifications ++ pool.notified connection := by
  cases act with
  | connectionClosed connection => exact connectionClosed_notifications connection
  | connectWithContext server multiplexing =>
    exact .inl ⟨connectWithContext_notifications server multiplexing, by rintro _ ⟨⟨⟩, _⟩⟩
  | entryConnected promise res => exact .inl ⟨entryConnected_notifications promise res, by rintro _ ⟨⟨⟩, _⟩⟩
  | pendingSettled promise => exact .inl ⟨pendingSettled_notifications promise, by rintro _ ⟨⟨⟩, _⟩⟩
  | callResumed call => exact .inl ⟨callResumed_notifications call, by rintro _ ⟨⟨⟩, _⟩⟩
  | innerConnected call res => exact .inl ⟨innerConnected_notifications call res, by rintro _ ⟨⟨⟩, _⟩⟩
  | disposeStandalone connection =>
    exact .inl ⟨disposeStandalone_notifications connection, by rintro _ ⟨⟨⟩, _⟩⟩
  | openChannel l => exact .inl ⟨openChannel_notifications l, by rintro _ ⟨⟨⟩, _⟩⟩
  | channelOpened l => exact .inl ⟨rfl, by rintro _ ⟨⟨⟩, _⟩⟩
  | channelFailed l error => exact .inl ⟨channelFailed_notifications l error, by rintro _ ⟨⟨⟩, _⟩⟩
  | fallbackConnected l res => exact .inl ⟨fallbackConnected_notifications l res, by rintro _ ⟨⟨⟩, _⟩⟩
  | disposeLease l => exact .inl ⟨disposeLease_notifications l, by rintro _ ⟨⟨⟩, _⟩⟩
  | onClose l => exact .inl ⟨onClose_notifications l, by rintro _ ⟨⟨⟩, _⟩⟩
  | unsubscribe l listener => exact .inl ⟨rfl, by rintro _ ⟨⟨⟩, _⟩⟩
  | idleTimeout e => exact .inl ⟨idleTimeout_notifications e, by rintro _ ⟨⟨⟩, _⟩⟩
  | disconnect server => exact .inl ⟨disconnect_notifications server, by rintro _ ⟨⟨⟩, _⟩⟩
  | invalidate server => exact .inl ⟨invalidate_notifications server, by rintro _ ⟨⟨⟩, _⟩⟩
  | dispose => exact .inl ⟨dispose_notifications, by rintro _ ⟨⟨⟩, _⟩⟩

theorem Heard.heeded (heard : pool.Heard) : pool.Heeded := by
  intro act
  rcases step_notifications pool act with ⟨same, nothing⟩ | ⟨conn, ⟨rfl, open_⟩, more⟩
  · refine ⟨[], by rw [same, List.append_nil], fun l lease held up listens mem => ?_⟩
    exact ⟨nofun, fun closes => absurd closes (nothing _)⟩
  · refine ⟨_, more, fun l lease held up listens mem =>
      (mem_notified held (heard.lease held).ids mem conn).trans ?_⟩
    rcases (heard.lease held).bound listens mem with uses | ⟨gone, left⟩
    · rw [uses]
      constructor
      · rintro rfl
        exact ⟨rfl, open_⟩
      · rintro ⟨same, _⟩
        cases same
        rfl
    · -- Both connections have closed, so that it is neither of them.
      constructor
      · rintro rfl
        exact absurd gone open_.2
      · rintro ⟨same, _⟩
        cases same
        exact absurd left open_.2

theorem Heeded.calls (heeded : pool.Heeded) {connection : Nat} (inside : connection < pool.origins.length)
    (open_ : connection ∉ pool.closed) {l : Nat} {lease : Lease S} (held : pool.leases[l]? = some lease)
    (up : lease.disposed = false) {listens : Nat × Nat} (mem : listens ∈ lease.closeUnsubscribes)
    (nodup : (lease.closeUnsubscribes.map (·.1)).Nodup) : listens.2 = connection ↔ lease.active = connection := by
  obtain ⟨new, notifies, right⟩ := heeded (.connectionClosed connection)
  have closes : pool.Closes (.connectionClosed connection) connection := ⟨rfl, inside, open_⟩
  rcases step_notifications pool (.connectionClosed connection) with ⟨_, nothing⟩ | ⟨other, ⟨same, _⟩, more⟩
  · exact absurd closes (nothing connection)
  · cases same
    obtain rfl := List.append_cancel_left (notifies.symm.trans more)
    rw [← mem_notified held nodup mem, right l lease held up listens mem]
    constructor
    · rintro ⟨same, _⟩
      cases same
      rfl
    · rintro rfl
      exact closes

theorem not_heeded_of_stray (heard : pool.Heard) {act : PoolAct S} (stray : pool.Stray act) :
    ¬ (pool.step act).Heeded := by
  intro heeded
  cases act with
  | fallbackConnected l res =>
    cases res with
    | none => exact stray
    | some alreadyClosed =>
      obtain ⟨lease, held, pending, listened, either⟩ := stray
      have same := heard.lease held
      have unmoved : lease.fallbackConnection = none := by
        refine same.steady.resolve_right fun settled => ?_
        rw [pending] at settled
        exact Bool.false_ne_true settled.2.symm
      have up : lease.disposed = false := Bool.eq_false_iff.mpr fun disposed => listened (same.quiet disposed)
      obtain ⟨listens, mem⟩ := List.exists_mem_of_ne_nil _ listened
      have small : listens.2 < pool.origins.length := by
        rcases same.bound listens mem with uses | ⟨gone, _⟩
        · rw [uses, Lease.active, unmoved, Option.getD_none]
          exact same.inner
        · exact heard.closed _ gone
      have is : pool.step (.fallbackConnected l (some alreadyClosed)) =
          (((pool.connected (.fallback l) alreadyClosed).modifyLease l
            ({ · with
              fallbackConnection := some pool.origins.length
              fallbackUsed := true
              fallbackPending := false })).releaseEntry lease.entry) := by
        show pool.fallbackConnected l (some alreadyClosed) = _
        unfold fallbackConnected
        simp [held, pending]
      have held_after : (pool.step (.fallbackConnected l (some alreadyClosed))).leases[l]? = some { lease with
          fallbackConnection := some pool.origins.length, fallbackUsed := true, fallbackPending := false } := by
        rw [is, (releaseEntry_rest _ _).1]
        refine (modify_found held _).trans ?_
        rw [if_pos rfl]
      have origins : (pool.step (.fallbackConnected l (some alreadyClosed))).origins.length =
        pool.origins.length + 1 := by
        rw [is, (releaseEntry_rest _ _).2.1]
        exact List.length_append
      have closed : (pool.step (.fallbackConnected l (some alreadyClosed))).closed =
          pool.closed ++ pool.closedAtOnce alreadyClosed := by
        rw [is, (releaseEntry_rest _ _).2.2.1]
        cases alreadyClosed
        · exact (List.append_nil _).symm
        · rfl
      rcases either with rfl | left_open
      · have calls := @Heeded.calls _ _ _ heeded pool.origins.length (by omega) ?_ _ _ held_after up _ mem same.ids
        · have here : listens.2 = pool.origins.length := calls.mpr rfl
          omega
        · rw [closed]
          intro gone
          have gone : pool.origins.length ∈ pool.closed := by simpa [closedAtOnce] using gone
          exact Nat.lt_irrefl _ (heard.closed _ gone)
      · have at_inner : listens.2 = lease.inner := by
          rcases same.bound listens mem with uses | ⟨_, gone⟩
          · rw [uses, Lease.active, unmoved, Option.getD_none]
          · rw [Lease.active, unmoved, Option.getD_none] at gone
            exact absurd gone left_open
        have ne := same.inner
        have calls := @Heeded.calls _ _ _ heeded lease.inner (by omega) ?_ _ _ held_after up _ mem same.ids
        · have there : pool.origins.length = lease.inner := calls.mp at_inner
          omega
        · rw [closed, List.mem_append, not_or]
          refine ⟨left_open, fun gone => ?_⟩
          unfold closedAtOnce at gone
          split_ifs at gone
          · rw [List.mem_singleton.mp gone] at ne
            exact Nat.lt_irrefl _ ne
          · cases gone
  | _ => exact stray

def Followed (pool : SshConnectionPool S) : List (PoolAct S) → Prop
  | [] => pool.Heeded
  | act :: rest => pool.Heeded ∧ (pool.step act).Followed rest

def NoStray (pool : SshConnectionPool S) : List (PoolAct S) → Prop
  | [] => True
  | act :: rest => ¬ pool.Stray act ∧ (pool.step act).NoStray rest

theorem Followed.heeded {acts : List (PoolAct S)} (followed : pool.Followed acts) : pool.Heeded := by
  cases acts with
  | nil => exact followed
  | cons => exact followed.1

theorem Followed.after {acts : List (PoolAct S)} (followed : pool.Followed acts) : (pool.run acts).Heeded := by
  induction acts generalizing pool with
  | nil => exact followed
  | cons act rest ih => exact ih followed.2

theorem followed_iff (heard : pool.Heard) (acts : List (PoolAct S)) : pool.Followed acts ↔ pool.NoStray acts := by
  induction acts generalizing pool with
  | nil => exact ⟨fun _ => trivial, fun _ => heard.heeded⟩
  | cons act rest ih =>
    constructor
    · rintro ⟨_, later⟩
      have careful : ¬ pool.Stray act := fun stray => not_heeded_of_stray heard stray later.heeded
      exact ⟨careful, (ih (step_heard heard act careful)).mp later⟩
    · rintro ⟨careful, later⟩
      exact ⟨heard.heeded, (ih (step_heard heard act careful)).mpr later⟩

omit [DecidableEq S] in
theorem create_heard (opts : PoolOptions) : (create opts : SshConnectionPool S).Heard := ⟨nofun, nofun, nofun⟩

/-- A lease's listeners follow its connection in exactly the runs in which no lease strays. -/
theorem listeners_follow (options : PoolOptions) (acts : List (PoolAct S)) :
    (create options).Followed acts ↔ (create options).NoStray acts := followed_iff (create_heard options) acts

/-- A listener registered before the fallback hears the pooled connection close, and not the fallback. -/
theorem listener_strays :
    let pool := create sampleOptions
    let moved := leaseActs [.onClose 0, .channelFailed 0
      { message := "not connected" }, .fallbackConnected 0 (some false)]
    (pool.run moved).leases.map (·.active) = [1] ∧ (pool.run moved).closed = [] ∧
    (pool.run (moved ++ [.connectionClosed 0])).notifications = [(0, 0)] ∧
    (pool.run (moved ++ [.connectionClosed 1])).notifications = [] ∧ ¬ pool.Followed moved := by
  refine ⟨by decide, by decide, by decide, by decide, fun followed => ?_⟩
  have calls := @Heeded.calls _ _ _ followed.after 1 (by decide) (by decide) 0
    { server := 7, entry := 0, inner := 0, isReused := false, fallbackConnection := some 1, fallbackUsed := true,
      closeUnsubscribes := [(0, 0)] } (by rfl) rfl (0, 0) (List.mem_singleton_self _) (by decide)
  exact absurd (calls.mpr rfl) (by decide)

end SshConnectionPool

end NexTerminal.Ssh
