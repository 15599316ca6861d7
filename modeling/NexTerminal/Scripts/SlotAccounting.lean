import NexTerminal.Scripts.ReadSlotScheduler

namespace NexTerminal.Scripts.Scheduler

open Library Semaphore

def slotsIn (s : Scheduler) (phase : SlotState → Bool) : Nat :=
  Nat.count (fun id => (s.stateOf id).any phase) s.calls.length

def inFlight (s : Scheduler) (id : Nat) : Bool :=
  s.permits.requests[id]? == some (some .granted) && s.calls[id]?.any Call.claiming

def committed (s : Scheduler) : Nat :=
  s.permits.available + s.slotsIn SlotState.permitHolding + Nat.count (s.inFlight ·) s.calls.length

def pastHeld : List SlotState := [.held, .promoted, .settled, .retired]

theorem legalNext_pastHeld {src next : SlotState} (legal : next ∈ src.legalNext)
    (past : src ∈ pastHeld) : next ∈ pastHeld ∧ next ≠ .held := by
  cases src <;> revert legal past <;> cases next <;> decide

/-- The held list is the slots in `held`, in the order they came to be. -/
structure HeldList (s : Scheduler) : Prop where
  listed : ∀ id, id ∈ s.held ↔ s.stateOf id = some .held
  ordered : s.held.Sublist s.everHeld
  once : s.everHeld.Nodup
  past : ∀ id ∈ s.everHeld, ∃ state ∈ pastHeld, s.stateOf id = some state

theorem HeldList.nodup {s : Scheduler} (heldList : HeldList s) : s.held.Nodup :=
  heldList.once.sublist heldList.ordered

structure Accounts (s : Scheduler) : Prop where
  permits : s.permits.WellFormed
  aligned : s.permits.requests.length = s.calls.length
  waits : ∀ id : Nat, s.permits.requests[id]? = some none → s.calls[id]?.any Call.claiming = true
  inUse : s.permitsInUse = s.slotsIn SlotState.permitHolding
  charged : s.orphaned = s.slotsIn SlotState.orphanOccupying
  room : s.orphaned ≤ s.maxOrphaned
  heldList : HeldList s

/-- The state in which a transition leaves its slot, before any promotion. -/
def moved (s : Scheduler) (id : Nat) (src next : SlotState) : Scheduler :=
  let leaves := src.permitHolding && !next.permitHolding
  let enters := !src.permitHolding && next.permitHolding
  { s with
    calls := s.calls.modify id fun call =>
      { call with state := next, releases := call.releases + leaves.toNat }
    permits := if leaves then s.permits.release else s.permits
    permitsInUse := s.permitsInUse + enters.toNat - leaves.toNat
    orphaned := s.orphaned + next.orphanOccupying.toNat - src.orphanOccupying.toNat
    held := if next = .held then s.held ++ [id] else if src = .held then s.held.erase id else s.held
    everHeld := if next = .held then s.everHeld ++ [id] else s.everHeld }

variable {s after : Scheduler} {id : Nat} {slot : Call} {next : SlotState}

theorem transitionWith_eq {promote : Scheduler → Except String Scheduler}
    (hit : s.calls[id]? = some slot) (legal : next ∈ slot.state.legalNext)
    (mem : slot.state = .held → id ∈ s.held) :
    transitionWith promote s id next =
      if slot.state.orphanOccupying then promote (s.moved id slot.state next)
      else .ok (s.moved id slot.state next) := by
  obtain ⟨label, src, awaiting, claiming, op, timer, watching, releases⟩ := slot
  unfold transitionWith
  rw [hit]
  cases src <;> simp only [SlotState.legalNext, List.mem_cons, List.not_mem_nil, or_false] at legal
  case queued =>
    rcases legal with rfl | rfl <;> rfl
  case admitted =>
    rcases legal with rfl | rfl <;>
      simp [moved, update, releasePermit, SlotState.legalNext, SlotState.permitHolding,
        SlotState.orphanOccupying, List.modify_modify_eq, Function.comp_def, pure, Except.pure]
  case running =>
    rcases legal with rfl | rfl | rfl <;>
      simp [moved, update, releasePermit, SlotState.legalNext, SlotState.permitHolding,
        SlotState.orphanOccupying, List.modify_modify_eq, Function.comp_def, pure, Except.pure]
  case held =>
    rcases legal with rfl | rfl <;>
      simp [moved, update, releasePermit, SlotState.legalNext, SlotState.permitHolding,
        SlotState.orphanOccupying, List.modify_modify_eq, Function.comp_def, pure, Except.pure, mem rfl]
  case orphaned =>
    subst legal; rfl
  case promoted =>
    subst legal; rfl

theorem calls_moved_self (hit : s.calls[id]? = some slot) :
    (s.moved id slot.state next).calls[id]? = some { slot with
      state := next
      releases := slot.releases + (slot.state.permitHolding && !next.permitHolding).toNat } := by
  simp [moved, hit]

theorem calls_moved_other {j : Nat} (ne : j ≠ id) : (s.moved id slot.state next).calls[j]? = s.calls[j]? := by
  simp [moved, ne.symm]

theorem stateOf_moved (hit : s.calls[id]? = some slot) (j : Nat) :
    (s.moved id slot.state next).stateOf j = if j = id then some next else s.stateOf j := by
  split
  · rename_i same
    subst same
    rw [stateOf, calls_moved_self hit]
    rfl
  · rename_i ne
    rw [stateOf, calls_moved_other ne, stateOf]

theorem length_moved : (s.moved id slot.state next).calls.length = s.calls.length := by
  simp [moved]

theorem claiming_moved (j : Nat) :
    (s.moved id slot.state next).calls[j]?.any Call.claiming = s.calls[j]?.any Call.claiming := by
  simp only [moved, List.getElem?_modify]
  cases s.calls[j]? with
  | none => simp
  | some call => by_cases same : id = j <;> simp [same]

theorem slotsIn_moved (next : SlotState) (hit : s.calls[id]? = some slot) (phase : SlotState → Bool) :
    (s.moved id slot.state next).slotsIn phase + (phase slot.state).toNat =
      s.slotsIn phase + (phase next).toNat := by
  have inside : id < s.calls.length := (List.getElem?_eq_some_iff.mp hit).1
  have was : (s.stateOf id).any phase = phase slot.state := by rw [stateOf, hit]; rfl
  have is : ((s.moved id slot.state next).stateOf id).any phase = phase next := by
    rw [stateOf_moved hit, if_pos rfl]; rfl
  rw [slotsIn, length_moved, slotsIn, ← was, ← is]
  exact count_moved (fun j => (s.stateOf j).any phase)
    (fun j => ((s.moved id slot.state next).stateOf j).any phase) inside fun j ne =>
      by simp [stateOf_moved hit, if_neg ne]

theorem count_inFlight_release (accounts : Accounts s) (permits : after.permits = s.permits.release)
    (claiming : ∀ j : Nat, after.calls[j]?.any Call.claiming = s.calls[j]?.any Call.claiming) :
    after.permits.available + Nat.count (after.inFlight ·) s.calls.length =
      s.permits.available + Nat.count (s.inFlight ·) s.calls.length + 1 := by
  cases accounts.permits.released with
  | freed _ available requests =>
    rw [permits, available, count_unchanged s.inFlight after.inFlight fun j _ => ?_]
    · omega
    · rw [inFlight, inFlight, permits, requests, claiming]
  | granted waiter waits available requests =>
    have known : waiter < s.permits.requests.length := (List.getElem?_eq_some_iff.mp waits).1
    have was : s.inFlight waiter = false := by simp [inFlight, waits]
    have is : after.inFlight waiter = true := by
      rw [inFlight, permits, requests, claiming, accounts.waits waiter waits]
      simp [known]
    have counted := count_moved s.inFlight after.inFlight
      (accounts.aligned ▸ known) fun j ne => by
        rw [inFlight, inFlight, permits, requests, claiming, List.getElem?_set_ne ne.symm]
    rw [was, is] at counted
    rw [permits, available]
    simp only [Bool.toNat_true, Bool.toNat_false] at counted
    omega

theorem Accounts.requests_moved (accounts : Accounts s) (id : Nat) (src next : SlotState) (j : Nat) :
    Grants s.permits.requests[j]? (s.moved id src next).permits.requests[j]? := by
  simp only [Scheduler.moved]
  split
  · exact accounts.permits.released.requests j
  · exact .inl rfl

theorem HeldList.moved (heldList : HeldList s) (hit : s.calls[id]? = some slot)
    (legal : next ∈ slot.state.legalNext) : HeldList (s.moved id slot.state next) := by
  have at_id : s.stateOf id = some slot.state := by rw [stateOf, hit]; rfl
  have unheld : slot.state ∉ pastHeld → id ∉ s.everHeld := by
    intro fresh mem
    obtain ⟨state, past, at_state⟩ := heldList.past id mem
    rw [at_id] at at_state
    cases at_state
    exact fresh past
  have past : ∀ j ∈ s.everHeld, ∃ state ∈ pastHeld,
      (s.moved id slot.state next).stateOf j = some state := by
    intro j mem
    obtain ⟨state, past, at_state⟩ := heldList.past j mem
    rw [stateOf_moved hit]
    split
    · rename_i same
      rw [same, at_id] at at_state
      cases at_state
      exact ⟨next, (legalNext_pastHeld legal past).1, rfl⟩
    · exact ⟨state, past, at_state⟩
  by_cases enters : next = .held
  · subst enters
    have fresh : slot.state ∉ pastHeld := fun past => (legalNext_pastHeld legal past).2 rfl
    refine ⟨fun j => ?_, heldList.ordered.append (List.Sublist.refl _), ?_, ?_⟩
    · rw [stateOf_moved hit]
      change j ∈ s.held ++ [id] ↔ _
      rw [List.mem_append, List.mem_singleton, heldList.listed]
      by_cases same : j = id <;> simp [same]
    · refine List.nodup_append.mpr ⟨heldList.once, List.nodup_singleton _, ?_⟩
      intro j mem other last same
      rw [List.mem_singleton] at last
      exact unheld fresh (last ▸ same ▸ mem)
    · intro j mem
      rcases List.mem_append.mp mem with old | last
      · exact past j old
      · rw [List.mem_singleton] at last
        exact ⟨.held, by decide, by rw [stateOf_moved hit, if_pos last]⟩
  · have everHeld : (s.moved id slot.state next).everHeld = s.everHeld := if_neg enters
    by_cases leaves : slot.state = .held
    · have held : (s.moved id slot.state next).held = s.held.erase id := by
        simp [Scheduler.moved, enters, leaves]
      refine ⟨fun j => ?_, ?_, by rw [everHeld]; exact heldList.once, by rw [everHeld]; exact past⟩
      · rw [held, stateOf_moved hit, heldList.nodup.mem_erase_iff, heldList.listed]
        by_cases same : j = id <;> simp [same, enters]
      · rw [held, everHeld]
        exact List.erase_sublist.trans heldList.ordered
    · have held : (s.moved id slot.state next).held = s.held := by
        simp [Scheduler.moved, enters, leaves]
      refine ⟨fun j => ?_, ?_, by rw [everHeld]; exact heldList.once, by rw [everHeld]; exact past⟩
      · rw [held, stateOf_moved hit, heldList.listed]
        by_cases same : j = id
        · rw [if_pos same, same, at_id]; simp [leaves, enters]
        · rw [if_neg same]
      · rw [held, everHeld]
        exact heldList.ordered

theorem Accounts.moved (accounts : Accounts s) (hit : s.calls[id]? = some slot)
    (legal : next ∈ slot.state.legalNext)
    (fits : slot.state.orphanOccupying = false → next.orphanOccupying = true →
      s.orphaned < s.maxOrphaned) : Accounts (s.moved id slot.state next) := by
  have held_count := slotsIn_moved next hit SlotState.permitHolding
  have orphan_count := slotsIn_moved next hit SlotState.orphanOccupying
  rw [← accounts.inUse] at held_count
  rw [← accounts.charged] at orphan_count
  have room := accounts.room
  refine ⟨?_, ?_, ?_, ?_, ?_, ?_, accounts.heldList.moved hit legal⟩
  · dsimp only [Scheduler.moved]
    split
    · exact accounts.permits.release
    · exact accounts.permits
  · rw [length_moved, ← accounts.aligned]
    dsimp only [Scheduler.moved]
    split
    · exact accounts.permits.released.length_requests
    · rfl
  · intro j waiting
    rw [claiming_moved]
    rcases accounts.requests_moved id slot.state next j with same | ⟨_, granted⟩
    · exact accounts.waits j (same ▸ waiting)
    · rw [granted] at waiting; cases waiting
  · change s.permitsInUse + _ - _ = _
    cases src : slot.state.permitHolding <;> cases dst : next.permitHolding <;>
      simp only [src, dst, Bool.not_true, Bool.not_false,
        Bool.and_true, Bool.and_false] at held_count ⊢ <;> omega
  · change s.orphaned + _ - _ = _
    omega
  · change s.orphaned + _ - _ ≤ s.maxOrphaned
    cases src : slot.state.orphanOccupying with
    | true => have := Bool.toNat_le next.orphanOccupying; rw [Bool.toNat_true]; omega
    | false =>
      cases dst : next.orphanOccupying with
      | true => have := fits src dst; rw [Bool.toNat_true]; omega
      | false => omega

theorem Accounts.committed_moved (accounts : Accounts s) (hit : s.calls[id]? = some slot) :
    (s.moved id slot.state next).committed =
      s.committed + (!slot.state.permitHolding && next.permitHolding).toNat := by
  have held_count := slotsIn_moved next hit SlotState.permitHolding
  unfold committed
  rw [length_moved]
  by_cases leaves : (slot.state.permitHolding && !next.permitHolding) = true
  · have permits : (s.moved id slot.state next).permits = s.permits.release := if_pos leaves
    have counted := count_inFlight_release accounts permits claiming_moved
    simp only [Bool.and_eq_true, Bool.not_eq_true'] at leaves
    rw [leaves.1, leaves.2] at held_count ⊢
    simp only [Bool.toNat_true, Bool.not_true, Bool.false_and] at held_count ⊢
    omega
  · have permits : (s.moved id slot.state next).permits = s.permits := if_neg leaves
    have same : Nat.count ((s.moved id slot.state next).inFlight ·) s.calls.length =
        Nat.count (s.inFlight ·) s.calls.length :=
      count_unchanged _ _ fun j _ => by rw [inFlight, inFlight, permits, claiming_moved]
    revert leaves held_count
    cases slot.state.permitHolding <;> cases next.permitHolding <;> grind

section
variable {change : Call → Call}

@[simp] theorem calls_update_self : (s.update id change).calls[id]? = s.calls[id]?.map change := by
  simp [update]

theorem calls_update_other {j : Nat} (ne : j ≠ id) : (s.update id change).calls[j]? = s.calls[j]? := by
  simp [update, ne.symm]

theorem stateOf_update (state : ∀ call, (change call).state = call.state) (j : Nat) :
    (s.update id change).stateOf j = s.stateOf j := by
  by_cases same : j = id
  · subst same
    rw [stateOf, stateOf, calls_update_self]
    cases s.calls[j]? with
    | none => rfl
    | some call => exact congrArg some (state call)
  · rw [stateOf, stateOf, calls_update_other same]

@[simp] theorem length_update : (s.update id change).calls.length = s.calls.length := by
  simp [update]

theorem slotsIn_update (state : ∀ call, (change call).state = call.state)
    (phase : SlotState → Bool) : (s.update id change).slotsIn phase = s.slotsIn phase := by
  rw [slotsIn, slotsIn, length_update]
  simp [stateOf_update state]

theorem Accounts.update (accounts : Accounts s) (state : ∀ call, (change call).state = call.state)
    (claims : s.permits.requests[id]? = some none → ∀ call, (change call).claiming = call.claiming) :
    Accounts (s.update id change) := by
  obtain ⟨permits, aligned, waits, inUse, charged, room, ⟨listed, ordered, once, past⟩⟩ := accounts
  refine ⟨permits, aligned.trans length_update.symm, ?_, ?_, ?_, room,
    ⟨fun j => by rw [stateOf_update state]; exact listed j, ordered, once,
      fun j mem => by rw [stateOf_update state]; exact past j mem⟩⟩
  · intro j waiting
    have pre := waits j waiting
    by_cases same : j = id
    · subst same
      rw [calls_update_self]
      cases hit : s.calls[j]? with
      | none => rw [hit] at pre; cases pre
      | some call =>
        rw [hit] at pre
        exact (claims waiting call).trans pre
    · rw [calls_update_other same]
      exact pre
  · rw [slotsIn_update state]; exact inUse
  · rw [slotsIn_update state]; exact charged

theorem committed_update (state : ∀ call, (change call).state = call.state) :
    (s.update id change).committed + (s.inFlight id).toNat =
      s.committed + ((s.update id change).inFlight id).toNat := by
  have ne : ∀ j, j ≠ id → (s.update id change).inFlight j = s.inFlight j := fun j differ => by
    rw [inFlight, inFlight, calls_update_other differ]
    rfl
  unfold committed
  rw [slotsIn_update state, length_update]
  change s.permits.available + _ + _ + _ = _ + _ + _
  by_cases inside : id < s.calls.length
  · have counted := count_moved s.inFlight (s.update id change).inFlight inside ne
    omega
  · have absent : s.calls[id]? = none := List.getElem?_eq_none (Nat.not_lt.mp inside)
    have still : ∀ j, (s.update id change).inFlight j = s.inFlight j := by
      intro j
      by_cases same : j = id
      · subst same
        rw [inFlight, inFlight, calls_update_self, absent]
        rfl
      · exact ne j same
    simp [still]

theorem committed_update_same (state : ∀ call, (change call).state = call.state)
    (claims : ∀ call, (change call).claiming = call.claiming) : (s.update id change).committed = s.committed := by
  have counted : (s.update id change).committed + _ = _ := committed_update state
  have same : (s.update id change).inFlight id = s.inFlight id := by
    rw [inFlight, inFlight, calls_update_self]
    cases s.calls[id]? with
    | none => rfl
    | some call => simp [update, claims call]
  rw [same] at counted
  omega

end

theorem Accounts.withPermits {permits : Semaphore} (accounts : Accounts s)
    (formed : permits.WellFormed) (len : permits.requests.length = s.permits.requests.length)
    (waits : ∀ j : Nat, permits.requests[j]? = some none → s.permits.requests[j]? = some none) :
    Accounts { s with permits := permits } where
  permits := formed
  aligned := len.trans accounts.aligned
  waits j waiting := accounts.waits j (waits j waiting)
  inUse := accounts.inUse
  charged := accounts.charged
  room := accounts.room
  heldList := { accounts.heldList with }

theorem Accounts.releasePermit (accounts : Accounts s) (id : Nat) : Accounts (s.releasePermit id) := by
  have updated : Accounts (s.update id fun call => { call with releases := call.releases + 1 }) :=
    accounts.update (fun _ => rfl) fun _ _ => rfl
  refine updated.withPermits accounts.permits.release accounts.permits.released.length_requests ?_
  intro j waiting
  rcases accounts.permits.released.requests j with same | ⟨waits, _⟩
  · exact same ▸ waiting
  · exact waits

theorem Accounts.committed_releasePermit (accounts : Accounts s) (id : Nat) :
    (s.releasePermit id).committed = s.committed + 1 := by
  have claiming : ∀ j : Nat, (s.releasePermit id).calls[j]?.any Call.claiming =
      s.calls[j]?.any Call.claiming := by
    intro j
    simp only [Scheduler.releasePermit, Scheduler.update, List.getElem?_modify]
    cases s.calls[j]? with
    | none => simp
    | some call => by_cases same : id = j <;> simp [same]
  have permits : (s.releasePermit id).permits = s.permits.release := rfl
  have counted := count_inFlight_release accounts permits claiming
  have slots : (s.update id fun call => { call with releases := call.releases + 1 }).slotsIn
      SlotState.permitHolding = s.slotsIn SlotState.permitHolding :=
    slotsIn_update (by intro call; rfl) _
  have size : (s.releasePermit id).calls.length = s.calls.length := length_update
  have slots : (s.releasePermit id).slotsIn SlotState.permitHolding = _ := slots
  rw [committed, committed, slots, size]
  omega

theorem Accounts.cancelWaiter (accounts : Accounts s) (id : Nat) :
    Accounts { s with permits := (s.permits.cancelWaiter id).2 } := by
  refine accounts.withPermits (accounts.permits.cancelWaiter id) ?_ fun j waiting => ?_
  · rw [requests_cancelWaiter]
    split
    · rw [List.length_set]
    · rfl
  · rw [requests_cancelWaiter] at waiting
    split at waiting
    · by_cases same : id = j
      · subst same
        rename_i live
        exact waiting_iff.mp live
      · simpa [same] using waiting
    · exact waiting

theorem committed_cancelWaiter (s : Scheduler) (id : Nat) :
    { s with permits := (s.permits.cancelWaiter id).2 }.committed = s.committed := by
  have same : ∀ j, { s with permits := (s.permits.cancelWaiter id).2 }.inFlight j = s.inFlight j := by
    intro j
    rw [inFlight, inFlight, requests_cancelWaiter]
    split
    · rename_i live
      by_cases same : id = j
      · subst same
        have waits := waiting_iff.mp live
        have known : id < s.permits.requests.length := (List.getElem?_eq_some_iff.mp waits).1
        rw [List.getElem?_set_self known, waits]
        rfl
      · rw [List.getElem?_set_ne same]
    · rfl
  unfold committed
  simp only [same]
  rw [available_cancelWaiter]
  rfl

section
variable {label : String}

theorem calls_runGated (j : Nat) : (s.runGated label).calls[j]? =
    if j = s.calls.length then some { label := label } else s.calls[j]? := getElem?_concat

theorem stateOf_runGated (j : Nat) : (s.runGated label).stateOf j =
    if j = s.calls.length then some .queued else s.stateOf j := by
  rw [stateOf, calls_runGated]
  split
  · rfl
  · rw [stateOf]

theorem length_runGated : (s.runGated label).calls.length = s.calls.length + 1 := by
  simp [runGated]

theorem slotsIn_runGated {phase : SlotState → Bool} (uncounted : phase .queued = false) :
    (s.runGated label).slotsIn phase = s.slotsIn phase := by
  rw [slotsIn, slotsIn, length_runGated, Nat.count_succ, stateOf_runGated, if_pos rfl]
  have earlier : ∀ j, j < s.calls.length →
      ((s.runGated label).stateOf j).any phase = (s.stateOf j).any phase := fun j inside => by
    rw [stateOf_runGated, if_neg (by omega)]
  rw [count_unchanged _ _ earlier]
  simp [uncounted]

theorem Accounts.runGated (accounts : Accounts s) (label : String) : Accounts (s.runGated label) := by
  obtain ⟨permits, aligned, waits, inUse, charged, room, ⟨listed, ordered, once, past⟩⟩ := accounts
  obtain ⟨outcome, requests, _, _⟩ := acquireCancellable_requests s.permits
  have fresh : s.stateOf s.calls.length = none := by simp [stateOf]
  refine ⟨permits.acquire, ?_, ?_, ?_, ?_, room, ⟨?_, ordered, once, ?_⟩⟩
  · rw [length_runGated, ← aligned]
    exact (congrArg List.length requests).trans List.length_append
  · intro j waiting
    change s.permits.acquireCancellable.requests[j]? = some none at waiting
    rw [requests, getElem?_concat, aligned] at waiting
    rw [calls_runGated]
    split at waiting
    · rename_i last
      rw [if_pos last]
      rfl
    · rename_i earlier
      rw [if_neg earlier]
      exact waits j waiting
  · rw [slotsIn_runGated rfl]
    exact inUse
  · rw [slotsIn_runGated rfl]
    exact charged
  · intro j
    rw [stateOf_runGated]
    split
    · rename_i last
      subst last
      refine ⟨fun mem => ?_, nofun⟩
      rw [(listed _).mp mem] at fresh
      cases fresh
    · exact listed j
  · intro j mem
    obtain ⟨state, known, at_state⟩ := past j mem
    refine ⟨state, known, ?_⟩
    rw [stateOf_runGated, if_neg]
    · exact at_state
    · rintro rfl
      rw [fresh] at at_state
      cases at_state

theorem Accounts.committed_runGated (accounts : Accounts s) (label : String) :
    (s.runGated label).committed = s.committed := by
  obtain ⟨outcome, requests, _, available⟩ := acquireCancellable_requests s.permits
  have earlier : ∀ j, j < s.calls.length → (s.runGated label).inFlight j = s.inFlight j := by
    intro j inside
    rw [inFlight, inFlight, calls_runGated, if_neg (by omega)]
    change (s.permits.acquireCancellable.requests[j]? == _ && _) = _
    rw [requests, getElem?_concat, if_neg (by rw [accounts.aligned]; omega)]
  have last : (s.runGated label).inFlight s.calls.length = (outcome == some .granted) := by
    rw [inFlight, calls_runGated, if_pos rfl]
    change (s.permits.acquireCancellable.requests[s.calls.length]? == _ && _) = _
    rw [requests, getElem?_concat, if_pos accounts.aligned.symm]
    cases outcome <;> simp
  have one : ∀ (mem : Bool), (if mem = true then 1 else 0) = mem.toNat := by decide
  rw [committed, committed, slotsIn_runGated rfl, length_runGated, Nat.count_succ,
    count_unchanged _ _ earlier, last, one]
  change s.permits.acquireCancellable.available + _ + _ = _
  omega

end

/-- What happens to a call while another slot moves: its own slot may be promoted,
and its request granted. -/
structure Spares (s after : Scheduler) (id : Nat) : Prop where
  call : after.calls[id]? = s.calls[id]? ∨
    ∃ call : Call, s.calls[id]? = some call ∧ call.state = .held ∧
      after.calls[id]? = some { call with state := .promoted, releases := call.releases + 1 }
  request : Grants s.permits.requests[id]? after.permits.requests[id]?

theorem Spares.refl (s : Scheduler) (id : Nat) : Spares s s id := ⟨.inl rfl, .inl rfl⟩

theorem spares_update {change : Call → Call} {other : Nat} (ne : other ≠ id) :
    Spares s (s.update id change) other := ⟨.inl (calls_update_other ne), .inl rfl⟩

theorem Spares.trans {mid : Scheduler} (first : Spares s mid id) (rest : Spares mid after id) :
    Spares s after id := by
  constructor
  · rcases rest.call with same | ⟨call, hit, held, promoted⟩
    · rw [same]
      exact first.call
    · rcases first.call with same | ⟨pre, _, _, earlier⟩
      · exact .inr ⟨call, same ▸ hit, held, promoted⟩
      · rw [earlier] at hit
        cases hit
        cases held
  · exact first.request.trans rest.request

structure Promotes (s after : Scheduler) : Prop where
  accounts : Accounts after
  committed : after.committed = s.committed
  full : after.held = [] ∨ after.orphaned = after.maxOrphaned
  limits : after.maxConcurrent = s.maxConcurrent ∧ after.maxOrphaned = s.maxOrphaned
  others : ∀ id, Spares s after id
  oldest : ∃ count, after.held = s.held.drop count

theorem spares_moved (accounts : Accounts s) (hit : s.calls[id]? = some slot) (at_held : slot.state = .held)
    (other : Nat) : Spares s (s.moved id slot.state .promoted) other := by
  refine ⟨?_, accounts.requests_moved id slot.state .promoted other⟩
  by_cases same : other = id
  · subst same
    refine .inr ⟨slot, hit, at_held, ?_⟩
    rw [calls_moved_self hit, at_held]
    rfl
  · exact .inl (calls_moved_other same)

theorem promoteHeldWithin_promotes {fuel : Nat} (accounts : Accounts s) (enough : s.held.length ≤ fuel) :
    ∃ after, promoteHeldWithin fuel s = .ok after ∧ Promotes s after := by
  induction fuel generalizing s with
  | zero =>
    have none_held : s.held = [] := List.eq_nil_of_length_eq_zero (Nat.le_zero.mp enough)
    exact ⟨s, rfl, accounts, rfl, .inl none_held, ⟨rfl, rfl⟩, Spares.refl s, 0, rfl⟩
  | succ fuel ih =>
    rw [promoteHeldWithin]
    by_cases room : s.orphaned < s.maxOrphaned
    · rw [if_pos room]
      cases at_held : s.held with
      | nil => exact ⟨s, rfl, accounts, rfl, .inl at_held, ⟨rfl, rfl⟩, Spares.refl s, 0, rfl⟩
      | cons oldest rest =>
        have mem : oldest ∈ s.held := at_held ▸ List.mem_cons_self
        obtain ⟨slot, hit, state⟩ := Option.map_eq_some_iff.mp
          ((accounts.heldList.listed oldest).mp mem)
        have legal : SlotState.promoted ∈ slot.state.legalNext := by rw [state]; decide
        have shrunk : (s.moved oldest slot.state .promoted).held = rest := by
          simp [moved, state, at_held]
        have stepped : transitionWith (promoteHeldWithin fuel) s oldest .promoted =
            .ok (s.moved oldest slot.state .promoted) := by
          rw [transitionWith_eq hit legal fun _ => mem, state]
          rfl
        have still := accounts.moved hit legal fun _ _ => room
        have fits : (s.moved oldest slot.state .promoted).held.length ≤ fuel := by
          rw [at_held, List.length_cons] at enough
          rw [shrunk]
          omega
        obtain ⟨after, ran, promotes⟩ := ih still fits
        refine ⟨after, by simp only [stepped]; exact ran, promotes.accounts, ?_, promotes.full,
          promotes.limits, fun other => (spares_moved accounts hit state other).trans
            (promotes.others other), ?_⟩
        · rw [promotes.committed, accounts.committed_moved hit, state]
          rfl
        · obtain ⟨count, dropped⟩ := promotes.oldest
          exact ⟨count + 1, by rw [dropped, shrunk, at_held, List.drop_succ_cons]⟩
    · rw [if_neg room]
      have full : s.orphaned = s.maxOrphaned := Nat.le_antisymm accounts.room (Nat.not_lt.mp room)
      exact ⟨s, rfl, accounts, rfl, .inr full, ⟨rfl, rfl⟩, Spares.refl s, 0, rfl⟩

theorem pair_order {first rest : List Nat} {i j : Nat} (nodup : (first ++ rest).Nodup)
    (pre : [i, j].Sublist (first ++ rest)) (mem : j ∈ first) : i ∉ rest := by
  intro later
  obtain ⟨front, back, split, inFirst, inRest⟩ := List.sublist_append_iff.mp pre
  have ne := (List.nodup_append.mp nodup).2.2
  cases front with
  | nil =>
    have : j ∈ rest := inRest.subset (by rw [← List.nil_append back, ← split]; simp)
    exact ne j mem j this rfl
  | cons a front =>
    obtain ⟨rfl, _⟩ := List.cons.inj split
    exact ne i (inFirst.subset List.mem_cons_self) i later rfl

structure Moves (s after : Scheduler) (id : Nat) (slot : Call) (next : SlotState) : Prop where
  accounts : Accounts after
  committed : after.committed = s.committed + (!slot.state.permitHolding && next.permitHolding).toNat
  full : after.held = [] ∨ after.orphaned = after.maxOrphaned
  limits : after.maxConcurrent = s.maxConcurrent ∧ after.maxOrphaned = s.maxOrphaned
  mine : after.calls[id]? = some { slot with
    state := next
    releases := slot.releases + (slot.state.permitHolding && !next.permitHolding).toNat }
  request : Grants s.permits.requests[id]? after.permits.requests[id]?
  others : ∀ other, other ≠ id → Spares s after other
  oldest : ∀ i j, [i, j].Sublist s.held → after.stateOf j = some .promoted → after.stateOf i ≠ some .held

/-- A legal transition that there is room for succeeds, as one move of its slot. -/
theorem transition_moves (accounts : Accounts s) (full : s.held = [] ∨ s.orphaned = s.maxOrphaned)
    (hit : s.calls[id]? = some slot) (legal : next ∈ slot.state.legalNext) (unpromoted : next ≠ .promoted)
    (room : next = .orphaned → s.orphaned < s.maxOrphaned) (spent : next = .held → s.orphaned = s.maxOrphaned) :
    ∃ after, s.transition id next = .ok after ∧ Moves s after id slot next := by
  have listed : slot.state = .held → id ∈ s.held := fun at_held =>
    (accounts.heldList.listed id).mpr (by rw [stateOf, hit, ← at_held]; rfl)
  have fits : slot.state.orphanOccupying = false → next.orphanOccupying = true →
      s.orphaned < s.maxOrphaned := by
    intro _ charged
    refine room ?_
    revert charged unpromoted
    cases next <;> decide
  have still := accounts.moved hit legal fits
  have committed := (accounts.committed_moved hit : (s.moved id slot.state next).committed = _)
  rw [transition, transitionWith_eq hit legal listed]
  by_cases charged : slot.state.orphanOccupying = true
  · rw [if_pos charged]
    have retires : next = .retired ∧ slot.state ≠ .held := by
      revert charged legal
      cases slot.state <;> cases next <;> decide
    obtain ⟨after, ran, promotes⟩ := promoteHeldWithin_promotes still (Nat.le_refl _)
    have held : (s.moved id slot.state next).held = s.held := by
      simp [moved, retires.1, retires.2]
    refine ⟨after, ran, promotes.accounts, promotes.committed.trans committed, promotes.full,
      promotes.limits, ?_, ?_, ?_, ?_⟩
    · rcases (promotes.others id).call with same | ⟨call, moved_call, at_held, _⟩
      · exact same.trans (calls_moved_self hit)
      · rw [calls_moved_self hit] at moved_call
        cases moved_call
        cases retires.1.symm.trans at_held
    · exact (accounts.requests_moved id slot.state next id).trans (promotes.others id).request
    · intro other ne
      have first : Spares s (s.moved id slot.state next) other :=
        ⟨.inl (calls_moved_other ne), accounts.requests_moved id slot.state next other⟩
      exact first.trans (promotes.others other)
    · intro i j pre promoted at_held
      obtain ⟨count, dropped⟩ := promotes.oldest
      rw [held] at dropped
      have remains : i ∈ s.held.drop count := dropped ▸ (promotes.accounts.heldList.listed i).mpr at_held
      have gone : j ∉ s.held.drop count := fun mem => by
        have := (promotes.accounts.heldList.listed j).mp (dropped ▸ mem)
        rw [promoted] at this
        cases this
      have whole := List.take_append_drop count s.held
      have mem : j ∈ s.held.take count := by
        have inside : j ∈ s.held.take count ++ s.held.drop count := by
          rw [whole]
          exact pre.subset (by simp)
        exact (List.mem_append.mp inside).resolve_right gone
      exact pair_order (whole.symm ▸ accounts.heldList.nodup) (whole.symm ▸ pre) mem remains
  · rw [if_neg charged]
    refine ⟨s.moved id slot.state next, rfl, still, committed, ?_, ⟨rfl, rfl⟩,
      calls_moved_self hit, accounts.requests_moved id slot.state next id, fun other ne =>
        ⟨.inl (calls_moved_other ne), accounts.requests_moved id slot.state next other⟩, ?_⟩
    · simp only [Bool.not_eq_true] at charged
      by_cases enters : next = .held
      · refine .inr ?_
        change s.orphaned + _ - _ = _
        rw [spent enters, enters, charged]
        rfl
      by_cases detaches : next = .orphaned
      · have none_held : s.held = [] := full.resolve_right fun spent => by
          have := room detaches
          omega
        simp [moved, enters, none_held]
      · have uncharged : next.orphanOccupying = false := by
          revert detaches unpromoted
          cases next <;> decide
        have orphaned : (s.moved id slot.state next).orphaned = s.orphaned := by
          simp [moved, charged, uncharged]
        rcases full with none_held | spent
        · exact .inl (by simp [moved, enters, none_held])
        · exact .inr (orphaned.trans spent)
    · intro i j pre promoted _
      have mem : j ∈ s.held := pre.subset (by simp)
      rw [stateOf_moved hit] at promoted
      split at promoted
      · exact unpromoted (Option.some.inj promoted)
      · rw [(accounts.heldList.listed j).mp mem] at promoted
        cases promoted

end NexTerminal.Scripts.Scheduler
