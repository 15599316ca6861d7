import NexTerminal.Scripts.SlotAccounting

namespace NexTerminal.Scripts.Scheduler

open Library Semaphore

/-- How far a call can have come, with the outcome of its request. -/
inductive Coherent : Call → Option PermitOutcome → Prop
  | queued {label : String} {outcome : Option PermitOutcome} : outcome ≠ some .cancelled →
      Coherent { label := label } outcome
  | expired {label : String} {awaiting : Awaiting} {outcome : PermitOutcome} :
      awaiting ∈ [Awaiting.permit, .nothing] →
      Coherent { label := label, state := .expired, awaiting := awaiting, timer := .fired }
        (some outcome)
  | unclaimed {label : String} {awaiting : Awaiting} : awaiting ∈ [Awaiting.permit, .nothing] →
      Coherent { label := label, state := .expired, awaiting := awaiting, claiming := false,
                 timer := .fired } (some .cancelled)
  | forwarded {label : String} {awaiting : Awaiting} : awaiting ∈ [Awaiting.permit, .nothing] →
      Coherent { label := label, state := .expired, awaiting := awaiting, claiming := false,
                 timer := .fired, releases := 1 } (some .granted)
  | admitted {label : String} :
      Coherent { label := label, state := .admitted, awaiting := .admission, claiming := false }
        (some .granted)
  | abandoned {label : String} :
      Coherent { label := label, state := .abandoned, awaiting := .nothing, claiming := false,
                 timer := .cleared, releases := 1 } (some .granted)
  | running {label : String} {operation : Operation} : operation ≠ .unstarted →
      Coherent { label := label, state := .running, awaiting := .work, claiming := false,
                 operation := operation } (some .granted)
  | settled {label : String} {operation : Operation} : operation ∈ [Operation.threw, .settled] →
      Coherent { label := label, state := .settled, awaiting := .nothing, claiming := false,
                 operation := operation, timer := .cleared, releases := 1 } (some .granted)
  | detached {label : String} {state : SlotState} {awaiting : Awaiting} {operation : Operation} :
      state ∈ [SlotState.orphaned, .held, .promoted] → awaiting ∈ [Awaiting.work, .nothing] →
      operation ∈ [Operation.pending, .settled] →
      Coherent { label := label, state := state, awaiting := awaiting, claiming := false,
                 operation := operation, timer := .fired, watching := true,
                 releases := (!state.permitHolding).toNat } (some .granted)
  | concluded {label : String} {state : SlotState} {awaiting : Awaiting} :
      state ∈ [SlotState.settled, .retired] → awaiting ∈ [Awaiting.work, .nothing] →
      Coherent { label := label, state := state, awaiting := awaiting, claiming := false,
                 operation := .settled, timer := .fired, releases := 1 } (some .granted)

structure Invariant (s : Scheduler) : Prop where
  accounts : Accounts s
  full : s.held = [] ∨ s.orphaned = s.maxOrphaned
  balance : s.committed = s.maxConcurrent
  coherent : ∀ (id : Nat) (call : Call) (outcome : Option PermitOutcome),
    s.calls[id]? = some call → s.permits.requests[id]? = some outcome → Coherent call outcome

variable {s after : Scheduler} {id : Nat}

variable {outcome : Option PermitOutcome}

theorem Coherent.spared {call changed : Call} {settled : Option PermitOutcome} (coherent : Coherent call outcome)
    (spares : Spares s after id) (hit : s.calls[id]? = some call) (asked : s.permits.requests[id]? = some outcome)
    (found_after : after.calls[id]? = some changed) (asked_after : after.permits.requests[id]? = some settled) :
    Coherent changed settled := by
  rcases spares.call with same | ⟨pre, at_before, at_held, promoted⟩
  · rw [found_after, hit] at same
    cases same
    rcases spares.request with same | ⟨waits, granted⟩
    · rw [asked_after, asked] at same
      cases same
      exact coherent
    · rw [asked] at waits
      cases waits
      rw [asked_after] at granted
      cases granted
      cases coherent
      exact .queued (by decide)
  · rw [hit] at at_before
    cases at_before
    rw [found_after] at promoted
    cases promoted
    have kept : settled = outcome := by
      rcases spares.request with same | ⟨waits, _⟩
      · rw [asked_after, asked] at same
        exact Option.some.inj same
      · rw [asked] at waits
        cases waits
        cases coherent
        cases at_held
    rw [kept]
    cases coherent with
    | detached _ awaits operates =>
      subst at_held
      exact .detached (by decide) awaits operates
    | concluded states _ =>
      subst at_held
      exact absurd states (by decide)
    | _ => cases at_held

theorem Invariant.asked (invariant : Invariant s) {call : Call} (hit : s.calls[id]? = some call) :
    ∃ outcome, s.permits.requests[id]? = some outcome ∧ Coherent call outcome := by
  have inside : id < s.permits.requests.length := by
    rw [invariant.accounts.aligned]
    exact (List.getElem?_eq_some_iff.mp hit).1
  have asked := List.getElem?_eq_getElem inside
  exact ⟨_, asked, invariant.coherent id call _ hit asked⟩

theorem Invariant.change (invariant : Invariant s) (id : Nat) (accounts : Accounts after)
    (full : after.held = [] ∨ after.orphaned = after.maxOrphaned) (balance : after.committed = after.maxConcurrent)
    (mine : ∀ (call : Call) (outcome : Option PermitOutcome), after.calls[id]? = some call →
      after.permits.requests[id]? = some outcome → Coherent call outcome)
    (others : ∀ other, other ≠ id → Spares s after other) : Invariant after := by
  refine ⟨accounts, full, balance, fun other call outcome hit asked => ?_⟩
  by_cases same : other = id
  · exact mine call outcome (same ▸ hit) (same ▸ asked)
  · have spares := others other same
    have present : ∃ before, s.calls[other]? = some before := by
      rcases spares.call with same | ⟨before, at_before, _⟩
      · exact ⟨call, same ▸ hit⟩
      · exact ⟨before, at_before⟩
    obtain ⟨before, at_before⟩ := present
    obtain ⟨was, asked_before, coherent⟩ := invariant.asked at_before
    exact coherent.spared spares at_before asked_before hit asked

theorem Invariant.update {change : Call → Call} (invariant : Invariant s)
    (state : ∀ call, (change call).state = call.state) (claims : ∀ call, (change call).claiming = call.claiming)
    (mine : ∀ (call : Call) (outcome : Option PermitOutcome), s.calls[id]? = some call →
      s.permits.requests[id]? = some outcome → Coherent (change call) outcome) : Invariant (s.update id change) := by
  refine invariant.change id (invariant.accounts.update state fun _ => claims) invariant.full
    ((committed_update_same state claims).trans invariant.balance) ?_ fun _ => spares_update
  intro call outcome hit asked
  rw [calls_update_self] at hit
  obtain ⟨pre, at_before, rfl⟩ := Option.map_eq_some_iff.mp hit
  exact mine pre outcome at_before asked

variable {change : Call → Call}

theorem Invariant.moves {mid : Scheduler} {slot : Call} {next : SlotState} (invariant : Invariant s)
    (moves : Moves mid after id slot next) (spares : ∀ other, other ≠ id → Spares s mid other)
    (limits : mid.maxConcurrent = s.maxConcurrent)
    (balance : mid.committed + (!slot.state.permitHolding && next.permitHolding).toNat =
      s.maxConcurrent) (state : ∀ call, (change call).state = call.state)
    (claims : ∀ call, (change call).claiming = call.claiming)
    (granted : mid.permits.requests[id]? = some (some .granted)) (mine : Coherent (change { slot with
      state := next
      releases := slot.releases + (slot.state.permitHolding && !next.permitHolding).toNat })
        (some .granted)) : Invariant (after.update id change) := by
  have asked : after.permits.requests[id]? = some (some .granted) := by
    rcases moves.request with same | ⟨waits, _⟩
    · rw [same, granted]
    · rw [granted] at waits; cases waits
  refine invariant.change id (moves.accounts.update state fun _ => claims) moves.full ?_ ?_ ?_
  · rw [committed_update_same state claims, moves.committed, balance, ← limits]
    exact moves.limits.1.symm
  · intro call outcome hit known
    rw [calls_update_self, moves.mine] at hit
    cases hit
    rw [show (after.update id change).permits = after.permits from rfl, asked] at known
    cases known
    exact mine
  · exact fun other ne =>
      ((spares other ne).trans (moves.others other ne)).trans (spares_update ne)

def PromotesOldest (s after : Scheduler) : Prop :=
  ∀ i j, [i, j].Sublist s.held → after.stateOf j = some .promoted → after.stateOf i ≠ some .held

theorem PromotesOldest.unmoved (invariant : Invariant s)
    (same : ∀ j, s.stateOf j = some .held → after.stateOf j = some .held) : PromotesOldest s after := by
  intro i j pre promoted
  have mem : j ∈ s.held := pre.subset (by simp)
  rw [same j ((invariant.accounts.heldList.listed j).mp mem)] at promoted
  cases promoted

theorem ready_iff {holds : Call → Bool} :
    (s.calls[id]?.map holds).getD false = true ↔ ∃ call, s.calls[id]? = some call ∧ holds call = true := by
  cases s.calls[id]? <;> simp

def SameLimits (s after : Scheduler) : Prop :=
  after.maxConcurrent = s.maxConcurrent ∧ after.maxOrphaned = s.maxOrphaned

def Keeps (s : Scheduler) (event : Event) : Prop :=
  ∃ after, s.run event = .ok after ∧ Invariant after ∧ PromotesOldest s after ∧ SameLimits s after

theorem keeps_update {event : Event} (invariant : Invariant s) (runs : s.run event = .ok (s.update id change))
    (state : ∀ call, (change call).state = call.state) (claims : ∀ call, (change call).claiming = call.claiming)
    (mine : ∀ (call : Call) (outcome : Option PermitOutcome), s.calls[id]? = some call →
      s.permits.requests[id]? = some outcome → Coherent (change call) outcome) : Keeps s event :=
  ⟨_, runs, invariant.update state claims mine,
    .unmoved invariant fun j held => (stateOf_update state j).trans held, rfl, rfl⟩

theorem keeps_settle (invariant : Invariant s) (ready : s.Ready (.settle id) = true) : Keeps s (.settle id) := by
  obtain ⟨call, hit, pending⟩ := ready_iff.mp ready
  have pending : call.operation = .pending := eq_of_beq pending
  refine keeps_update invariant rfl (fun _ => rfl) (fun _ => rfl) fun other outcome at_other asked => ?_
  rw [hit] at at_other
  cases at_other
  cases invariant.coherent id call outcome hit asked with
  | running _ => exact .running (by decide)
  | detached states awaits _ => exact .detached states awaits (by decide)
  | settled operations => subst pending; exact absurd operations (by decide)
  | _ => cases pending

theorem keeps_reject (invariant : Invariant s) (ready : s.Ready (.reject id) = true) : Keeps s (.reject id) := by
  obtain ⟨call, hit, waits⟩ := ready_iff.mp ready
  simp only [Bool.and_eq_true, beq_iff_eq] at waits
  refine keeps_update invariant rfl (fun _ => rfl) (fun _ => rfl) fun other outcome at_other asked => ?_
  rw [hit] at at_other
  cases at_other
  cases invariant.coherent id call outcome hit asked with
  | expired _ => exact .expired (by decide)
  | unclaimed _ => exact .unclaimed (by decide)
  | forwarded _ => exact .forwarded (by decide)
  | queued _ => cases waits.2
  | detached _ awaits _ | concluded _ awaits =>
    obtain ⟨awaiting, _⟩ := waits
    subst awaiting
    exact absurd awaits (by decide)
  | _ => cases waits.1

theorem keeps_moves {mid : Scheduler} {slot : Call} {event : Event} (invariant : Invariant s) (next : SlotState)
    (runs : s.run event = mid.transition id next >>= fun after => pure (after.update id change))
    (accounts : Accounts mid) (hit : mid.calls[id]? = some slot)
    (sameLists : mid.held = s.held ∧ mid.orphaned = s.orphaned ∧ mid.maxOrphaned = s.maxOrphaned ∧
      mid.maxConcurrent = s.maxConcurrent) (spares : ∀ other, other ≠ id → Spares s mid other)
    (legal : next ∈ slot.state.legalNext) (unpromoted : next ≠ .promoted)
    (room : next = .orphaned → s.orphaned < s.maxOrphaned) (spent : next = .held → s.orphaned = s.maxOrphaned)
    (balance : mid.committed + (!slot.state.permitHolding && next.permitHolding).toNat =
      s.maxConcurrent) (state : ∀ call, (change call).state = call.state)
    (claims : ∀ call, (change call).claiming = call.claiming)
    (granted : mid.permits.requests[id]? = some (some .granted)) (mine : Coherent (change { slot with
      state := next
      releases := slot.releases + (slot.state.permitHolding && !next.permitHolding).toNat })
        (some .granted)) : Keeps s event := by
  obtain ⟨held, orphaned, maxOrphaned, maxConcurrent⟩ := sameLists
  have full : mid.held = [] ∨ mid.orphaned = mid.maxOrphaned := by
    rw [held, orphaned, maxOrphaned]
    exact invariant.full
  obtain ⟨after, ran, moves⟩ := transition_moves accounts full hit legal unpromoted
    (by rw [orphaned, maxOrphaned]; exact room) (by rw [orphaned, maxOrphaned]; exact spent)
  refine ⟨after.update id change, by rw [runs, ran]; rfl,
    invariant.moves moves spares maxConcurrent balance state claims granted mine, ?_,
    moves.limits.1.trans maxConcurrent, moves.limits.2.trans maxOrphaned⟩
  intro i j pre promoted
  rw [stateOf_update state] at promoted ⊢
  exact moves.oldest i j (held ▸ pre) promoted

theorem Coherent.of_admission {call : Call} (coherent : Coherent call outcome) (awaits : call.awaiting = .admission) :
    call = { label := call.label, state := .admitted, awaiting := .admission, claiming := false } ∧
      outcome = some .granted := by
  cases coherent <;> simp_all

theorem keeps_admission {goes : Admission} (invariant : Invariant s)
    (ready : s.Ready (.admission id goes) = true) : Keeps s (.admission id goes) := by
  obtain ⟨call, hit, awaits⟩ := ready_iff.mp ready
  obtain ⟨outcome, asked, coherent⟩ := invariant.asked hit
  obtain ⟨shape, rfl⟩ := coherent.of_admission (eq_of_beq awaits)
  rw [shape] at hit
  cases goes with
  | declines =>
    exact keeps_moves invariant .abandoned rfl invariant.accounts hit ⟨rfl, rfl, rfl, rfl⟩
      (fun _ _ => Spares.refl _ _) (by simp [SlotState.legalNext]) (by decide) (by simp) (by simp)
      invariant.balance (fun _ => rfl) (fun _ => rfl) asked .abandoned
  | throws | starts =>
    exact keeps_moves invariant .running rfl invariant.accounts hit ⟨rfl, rfl, rfl, rfl⟩
      (fun _ _ => Spares.refl _ _) (by simp [SlotState.legalNext]) (by decide) (by simp) (by simp)
      invariant.balance (fun _ => rfl) (fun _ => rfl) asked (.running (by decide))

section

variable (invariant : Invariant s)
include invariant

theorem keeps_finish (ready : s.Ready (.finish id) = true) : Keeps s (.finish id) := by
  obtain ⟨call, hit, resumes⟩ := ready_iff.mp ready
  obtain ⟨outcome, asked, coherent⟩ := invariant.asked hit
  have at_state : s.stateOf id = some call.state := by rw [stateOf, hit]; rfl
  by_cases running : call.state = .running
  · have runs : s.run (.finish id) = s.transition id .settled >>= fun after => pure
        (after.update id fun call => { call with awaiting := .nothing, timer := call.timer.clear }) := by
      rw [run, finish, if_pos (running ▸ at_state)]
    cases coherent with
    | running started =>
      refine keeps_moves invariant .settled runs invariant.accounts hit ⟨rfl, rfl, rfl, rfl⟩
        (fun _ _ => Spares.refl _ _) (by simp [SlotState.legalNext]) (by decide) (by simp) (by simp)
        invariant.balance (fun _ => rfl) (fun _ => rfl) asked (.settled ?_)
      rename_i op
      cases op <;> simp_all
    | _ => simp_all
  · have runs : s.run (.finish id) = .ok
        (s.update id fun call => { call with awaiting := .nothing, timer := call.timer.clear }) := by
      rw [run, finish, at_state, if_neg fun same => running (Option.some.inj same)]
      rfl
    refine keeps_update invariant runs (fun _ => rfl) (fun _ => rfl) fun other known at_other asked => ?_
    rw [hit] at at_other
    cases at_other
    cases invariant.coherent id call known hit asked with
    | detached states _ operates => exact .detached states (by decide) operates
    | concluded states _ => exact .concluded states (by decide)
    | _ => simp_all

theorem keeps_retire (ready : s.Ready (.retire id) = true) : Keeps s (.retire id) := by
  obtain ⟨call, hit, settled⟩ := ready_iff.mp ready
  simp only [Bool.and_eq_true, beq_iff_eq] at settled
  obtain ⟨outcome, asked, coherent⟩ := invariant.asked hit
  have at_state : s.stateOf id = some call.state := by rw [stateOf, hit]; rfl
  have runs : s.run (.retire id) =
      s.transition id (if call.state = .held then .settled else .retired) >>= fun after =>
        pure (after.update id fun call => { call with watching := false }) := by
    rw [run, retire, at_state]
    simp
  cases coherent with
  | detached states awaits operates =>
    obtain ⟨_, settled⟩ := settled
    subst settled
    simp only [List.mem_cons, List.not_mem_nil, or_false] at states
    rcases states with rfl | rfl | rfl
    · exact keeps_moves invariant .retired runs invariant.accounts hit ⟨rfl, rfl, rfl, rfl⟩
        (fun _ _ => Spares.refl _ _) (by simp [SlotState.legalNext]) (by decide) (by simp) (by simp)
        invariant.balance (fun _ => rfl) (fun _ => rfl) asked (.concluded (by simp) awaits)
    · exact keeps_moves invariant .settled runs invariant.accounts hit ⟨rfl, rfl, rfl, rfl⟩
        (fun _ _ => Spares.refl _ _) (by simp [SlotState.legalNext]) (by decide) (by simp) (by simp)
        invariant.balance (fun _ => rfl) (fun _ => rfl) asked (.concluded (by simp) awaits)
    · exact keeps_moves invariant .retired runs invariant.accounts hit ⟨rfl, rfl, rfl, rfl⟩
        (fun _ _ => Spares.refl _ _) (by simp [SlotState.legalNext]) (by decide) (by simp) (by simp)
        invariant.balance (fun _ => rfl) (fun _ => rfl) asked (.concluded (by simp) awaits)
  | _ => cases settled.1

theorem keeps_claim (ready : s.Ready (.claim id) = true) : Keeps s (.claim id) := by
  obtain ⟨call, hit, claims⟩ := ready_iff.mp ready
  simp only [Bool.and_eq_true] at claims
  obtain ⟨claiming, settled⟩ := claims
  obtain ⟨outcome, asked, coherent⟩ := invariant.asked hit
  have answered : s.permits.requests[id]? ≠ some none := fun waits => by
    rw [waiting_iff.mpr waits] at settled
    cases settled
  let claimed := s.update id fun call => { call with claiming := false }
  have accounts : Accounts claimed := invariant.accounts.update (fun _ => rfl) fun waits =>
    absurd waits answered
  have found_claimed : claimed.calls[id]? = some { call with claiming := false } := by
    rw [calls_update_self, hit]
    rfl
  have counted : claimed.committed + (s.inFlight id).toNat =
      s.committed + (claimed.inFlight id).toNat := committed_update fun _ => rfl
  have unclaimed : claimed.inFlight id = false := by
    rw [inFlight, found_claimed]
    simp
  rw [unclaimed, invariant.balance] at counted
  cases coherent with
  | queued uncancelled =>
    cases outcome with
    | none => exact absurd asked answered
    | some outcome =>
      cases outcome with
      | cancelled => exact absurd rfl uncancelled
      | granted =>
        have inFlight : s.inFlight id = true := by rw [Scheduler.inFlight, asked, hit]; rfl
        have unexpired : claimed.stateOf id ≠ some .expired := by
          rw [stateOf, found_claimed]
          simp
        have runs : s.run (.claim id) = claimed.transition id .admitted >>= fun after =>
            pure (after.update id fun call => { call with awaiting := .admission }) := by
          simp only [run, claimPermit, update, asked]
          exact if_neg unexpired
        rw [inFlight] at counted
        exact keeps_moves invariant .admitted runs accounts found_claimed ⟨rfl, rfl, rfl, rfl⟩
          (fun _ ne => spares_update ne) (by simp [SlotState.legalNext]) (by decide) (by simp) (by simp)
          counted (fun _ => rfl) (fun _ => rfl) asked .admitted
  | expired awaits =>
    rename_i label awaiting outcome
    cases outcome with
    | cancelled =>
      have runs : s.run (.claim id) = .ok claimed := by
        simp only [run, claimPermit, update, asked]
        rfl
      have still : s.inFlight id = false := by rw [inFlight, asked]; rfl
      rw [still] at counted
      refine ⟨claimed, runs, invariant.change id accounts invariant.full counted ?_ fun _ =>
        spares_update, .unmoved invariant fun j held =>
          (stateOf_update (by intro call; rfl) j).trans held, rfl, rfl⟩
      intro other known at_other at_known
      rw [found_claimed] at at_other
      cases at_other
      cases at_known.symm.trans asked
      exact .unclaimed awaits
    | granted =>
      have expired : claimed.stateOf id = some .expired := by
        rw [stateOf, found_claimed]
        rfl
      have runs : s.run (.claim id) = .ok (claimed.releasePermit id) := by
        simp only [run, claimPermit, update, asked]
        exact if_pos expired
      have inFlight : s.inFlight id = true := by rw [Scheduler.inFlight, asked, hit]; rfl
      rw [inFlight] at counted
      have states : ∀ j, (claimed.releasePermit id).stateOf j = s.stateOf j := fun j =>
        (stateOf_update (by intro call; rfl) j).trans (stateOf_update (by intro call; rfl) j)
      refine ⟨_, runs, invariant.change id (accounts.releasePermit id) invariant.full
        ((accounts.committed_releasePermit id).trans counted) ?_ ?_,
        .unmoved invariant fun j held => (states j).trans held, rfl, rfl⟩
      · intro other known at_other at_known
        have changed : (claimed.releasePermit id).calls[id]? =
            some { label := label, state := .expired, awaiting := awaiting, claiming := false,
                   timer := .fired, releases := 1 } := by
          rw [Scheduler.releasePermit, calls_update_self, found_claimed]
          rfl
        cases changed.symm.trans at_other
        rcases accounts.permits.released.requests id with same | ⟨waits, _⟩
        · cases at_known.symm.trans (same.trans asked)
          exact .forwarded awaits
        · exact absurd waits answered
      · intro other ne
        exact ⟨.inl ((calls_update_other ne).trans (calls_update_other ne)),
          accounts.permits.released.requests other⟩
  | _ => cases claiming

theorem keeps_deadline (ready : s.Ready (.deadline id) = true) : Keeps s (.deadline id) := by
  obtain ⟨call, hit, due⟩ := ready_iff.mp ready
  simp only [Bool.and_eq_true] at due
  obtain ⟨outcome, asked, coherent⟩ := invariant.asked hit
  let fired := s.update id fun call => { call with timer := .fired }
  have accounts : Accounts fired := invariant.accounts.update (fun _ => rfl) fun _ _ => rfl
  have found_fired : fired.calls[id]? = some { call with timer := .fired } := by
    rw [calls_update_self, hit]
    rfl
  have balance : fired.committed = s.maxConcurrent :=
    (committed_update_same (by intro call; rfl) (by intro call; rfl)).trans invariant.balance
  cases coherent with
  | queued uncancelled =>
    have expires : ∃ expired, fired.transition id .expired = .ok expired ∧
        Moves fired expired id _ .expired :=
      transition_moves accounts invariant.full found_fired (by simp [SlotState.legalNext])
        (by decide) (by simp) (by simp)
    obtain ⟨expired, ran, moves⟩ := expires
    let after : Scheduler := { expired with permits := (expired.permits.cancelWaiter id).2 }
    have runs : s.run (.deadline id) = .ok after := by
      rw [run, fire, hit]
      rw [ran]
      rfl
    have committed : after.committed = after.maxConcurrent :=
      (committed_cancelWaiter expired id).trans (moves.committed.trans
        (balance.trans moves.limits.1.symm))
    refine ⟨after, runs, invariant.change id (moves.accounts.cancelWaiter id) moves.full committed
      ?_ ?_, moves.oldest, moves.limits⟩
    · intro other known at_other at_known
      cases moves.mine.symm.trans at_other
      cases known with
      | some outcome => exact .expired (by simp)
      | none =>
        rw [requests_cancelWaiter] at at_known
        split at at_known
        · rename_i live
          have inside : id < expired.permits.requests.length :=
            (List.getElem?_eq_some_iff.mp (waiting_iff.mp live)).1
          rw [List.getElem?_set_self inside] at at_known
          cases at_known
        · rename_i settled
          exact absurd (waiting_iff.mpr at_known) settled
    · intro other ne
      refine ((spares_update ne).trans (moves.others other ne)).trans ⟨.inl rfl, .inl ?_⟩
      rw [requests_cancelWaiter]
      split
      · rw [List.getElem?_set_ne ne.symm]
      · rfl
  | running started =>
    rename_i label op
    have pending : op = .pending := by simpa using due.2
    subst pending
    by_cases room : s.orphaned < s.maxOrphaned
    · have runs : s.run (.deadline id) = fired.transition id .orphaned >>= fun after =>
          pure (after.update id fun call => { call with watching := true }) := by
        rw [run, fire, hit]
        change (fired.transition id (if s.orphaned < s.maxOrphaned then .orphaned else .held) >>= _) = _
        rw [if_pos room]
      exact keeps_moves invariant .orphaned runs accounts found_fired ⟨rfl, rfl, rfl, rfl⟩
        (fun _ ne => spares_update ne) (by simp [SlotState.legalNext]) (by decide)
        (fun _ => room) (by simp) balance (fun _ => rfl) (fun _ => rfl) asked
        (.detached (by simp) (by simp) (by simp))
    · have runs : s.run (.deadline id) = fired.transition id .held >>= fun after =>
          pure (after.update id fun call => { call with watching := true }) := by
        rw [run, fire, hit]
        change (fired.transition id (if s.orphaned < s.maxOrphaned then .orphaned else .held) >>= _) = _
        rw [if_neg room]
      have full : s.orphaned = s.maxOrphaned := Nat.le_antisymm invariant.accounts.room (Nat.not_lt.mp room)
      exact keeps_moves invariant .held runs accounts found_fired ⟨rfl, rfl, rfl, rfl⟩
        (fun _ ne => spares_update ne) (by simp [SlotState.legalNext]) (by decide)
        (by simp) (fun _ => full) balance (fun _ => rfl) (fun _ => rfl) asked
        (.detached (by simp) (by simp) (by simp))
  | _ => simp_all

theorem keeps_runGated (label : String) : Keeps s (.runGated label) := by
  refine ⟨s.runGated label, rfl, ⟨invariant.accounts.runGated label, invariant.full,
    (invariant.accounts.committed_runGated label).trans invariant.balance, ?_⟩,
    .unmoved invariant fun j held => ?_, rfl, rfl⟩
  · intro id call outcome hit asked
    obtain ⟨last, requests, uncancelled, _⟩ := acquireCancellable_requests s.permits
    change s.permits.acquireCancellable.requests[id]? = some outcome at asked
    rw [requests, getElem?_concat, invariant.accounts.aligned] at asked
    rw [calls_runGated] at hit
    split at hit
    · rename_i new
      rw [if_pos new] at asked
      cases hit
      cases asked
      exact .queued uncancelled
    · rename_i earlier
      rw [if_neg earlier] at asked
      exact invariant.coherent id call outcome hit asked
  · have fresh : s.stateOf s.calls.length = none := by simp [stateOf]
    rw [stateOf_runGated, if_neg]
    · exact held
    · rintro rfl
      rw [fresh] at held
      cases held

theorem Invariant.keeps {event : Event} (ready : s.Ready event = true) : Keeps s event := by
  cases event with
  | runGated label => exact keeps_runGated invariant label
  | claim id => exact keeps_claim invariant ready
  | admission id goes => exact keeps_admission invariant ready
  | settle id => exact keeps_settle invariant ready
  | finish id => exact keeps_finish invariant ready
  | deadline id => exact keeps_deadline invariant ready
  | reject id => exact keeps_reject invariant ready
  | retire id => exact keeps_retire invariant ready

end

theorem Invariant.new (maxConcurrent maxOrphaned : Nat) : Invariant (new maxConcurrent maxOrphaned) := by
  refine ⟨⟨createSemaphore_wellFormed _, rfl, by simp [Scheduler.new, createSemaphore], rfl, rfl,
    Nat.zero_le _, ⟨by simp [Scheduler.new, stateOf], .refl _, List.nodup_nil, nofun⟩⟩, .inl rfl, rfl, ?_⟩
  intro id call outcome hit
  simp [Scheduler.new] at hit

theorem Reach.invariant {maxConcurrent maxOrphaned : Nat} (reach : Reach maxConcurrent maxOrphaned s) :
    Invariant s ∧ s.maxConcurrent = maxConcurrent ∧ s.maxOrphaned = maxOrphaned := by
  induction reach with
  | start => exact ⟨Invariant.new _ _, rfl, rfl⟩
  | next _ ready ran ih =>
    obtain ⟨invariant, maxConcurrent, maxOrphaned⟩ := ih
    obtain ⟨after, runs, still, _, limits⟩ := invariant.keeps ready
    cases ran.symm.trans runs
    exact ⟨still, limits.1.trans maxConcurrent, limits.2.trans maxOrphaned⟩

theorem Coherent.releases {call : Call} (coherent : Coherent call outcome) : call.releases =
      (outcome == some .granted && !call.claiming && !call.state.permitHolding).toNat := by
  cases coherent with
  | queued _ | expired _ => simp
  | unclaimed _ | forwarded _ | admitted | abandoned | running _ | settled _ => rfl
  | detached states _ _ => simp
  | concluded states _ =>
    simp only [List.mem_cons, List.not_mem_nil, or_false] at states
    rcases states with rfl | rfl <;> rfl

/-- In every order of events the permits and the detached budget are never overdrawn and each call gives back what it
got, once. -/
theorem slot_accounting {maxConcurrent maxOrphaned : Nat}
    (reach : Reach maxConcurrent maxOrphaned s) :
    s.slotsIn SlotState.permitHolding ≤ maxConcurrent ∧
    s.orphaned = s.slotsIn SlotState.orphanOccupying ∧ s.orphaned ≤ maxOrphaned ∧
    s.permits.available + s.slotsIn SlotState.permitHolding +
      Nat.count (s.inFlight ·) s.calls.length = maxConcurrent ∧
    (s.held ≠ [] → s.orphaned = maxOrphaned) ∧
    (∀ event, s.Ready event = true → ∃ after, s.run event = .ok after ∧ PromotesOldest s after) ∧
    (∀ id, id ∈ s.held ↔ s.stateOf id = some .held) ∧ s.held.Sublist s.everHeld ∧ s.everHeld.Nodup ∧
    ∀ (id : Nat) (call : Call), s.calls[id]? = some call → call.releases =
      (s.permits.requests[id]? == some (some .granted) && !s.inFlight id && !call.state.permitHolding).toNat := by
  obtain ⟨invariant, rfl, rfl⟩ := reach.invariant
  have balance := invariant.balance
  unfold committed at balance
  refine ⟨by omega, invariant.accounts.charged, invariant.accounts.room, balance,
    fun some_held => invariant.full.resolve_left some_held, fun event ready => ?_,
    invariant.accounts.heldList.listed, invariant.accounts.heldList.ordered,
    invariant.accounts.heldList.once, fun id call found => ?_⟩
  · obtain ⟨after, ran, _, oldest, _⟩ := invariant.keeps ready
    exact ⟨after, ran, oldest⟩
  · obtain ⟨outcome, asked, coherent⟩ := invariant.asked found
    rw [coherent.releases, inFlight, asked, found]
    cases outcome with
    | none => rfl
    | some outcome =>
      cases outcome with
      | granted => simp
      | cancelled => rfl

def runAll (s : Scheduler) : List Event → Option Scheduler
  | [] => some s
  | event :: rest =>
    if s.Ready event then
      match s.run event with
      | .ok after => after.runAll rest
      | .error _ => none
    else none

theorem Reach.runAll {maxConcurrent maxOrphaned : Nat} {events : List Event}
    (reach : Reach maxConcurrent maxOrphaned s) (ran : s.runAll events = some after) :
    Reach maxConcurrent maxOrphaned after := by
  induction events generalizing s with
  | nil => cases ran; exact reach
  | cons event rest ih =>
    rw [Scheduler.runAll] at ran
    split at ran
    · rename_i ready
      split at ran
      · rename_i next stepped
        exact ih (.next reach ready stepped) ran
      · cases ran
    · cases ran

def stalled : List Event :=
  [.runGated "a", .runGated "b", .runGated "c", .claim 0, .claim 1, .admission 0 .starts,
    .admission 1 .starts, .deadline 0, .finish 0, .claim 2, .admission 2 .starts, .deadline 1,
    .settle 0]

theorem slot_accounting_stalled : ∃ s after, (new 2 1).runAll stalled = some s ∧ s.held = [1] ∧
    s.orphaned = 1 ∧ s.slotsIn SlotState.permitHolding ≤ 2 ∧ s.run (.retire 0) = .ok after ∧
    PromotesOldest s after := by
  have happens : ((new 2 1).runAll stalled).isSome = true := by decide
  obtain ⟨s, ran⟩ := Option.isSome_iff_exists.mp happens
  have held : ((new 2 1).runAll stalled).map Scheduler.held = some [1] := by decide
  have orphaned : ((new 2 1).runAll stalled).map Scheduler.orphaned = some 1 := by decide
  have ready : ((new 2 1).runAll stalled).map (Ready · (.retire 0)) = some true := by decide
  rw [ran] at held orphaned ready
  obtain ⟨bounded, _, _, _, _, next, _⟩ := slot_accounting (Reach.runAll .start ran)
  obtain ⟨after, retires, oldest⟩ := next (.retire 0) (Option.some.inj ready)
  exact ⟨s, after, ran, Option.some.inj held, Option.some.inj orphaned, bounded, retires, oldest⟩

end NexTerminal.Scripts.Scheduler
