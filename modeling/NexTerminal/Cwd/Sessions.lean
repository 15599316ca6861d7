import Mathlib.Data.List.Basic
import Mathlib.Tactic.Cases
import Mathlib.Tactic.SplitIfs
import NexTerminal.Cwd.CwdTracker

namespace NexTerminal.Cwd

open Library

namespace CwdTracker

def view (self : CwdTracker) (sessionId : Text) : Option SessionState :=
  (self.sessions.get? sessionId).map self.state

/-- The outstanding timers that hold on to an object with a record of the session. -/
def timersOf (self : CwdTracker) (sessionId : Text) : List Timer :=
  self.timers.filter fun timer => (self.state timer.ref).record.sessionId = sessionId

structure Sound (tracker : CwdTracker) : Prop where
  owned : ∀ {sessionId ref}, tracker.sessions.get? sessionId = some ref →
    ref < tracker.states.length ∧ (tracker.state ref).record.sessionId = sessionId
  timed : ∀ timer ∈ tracker.timers, timer.id < tracker.nextTimer ∧
    ∃ sessionId, tracker.sessions.get? sessionId = some timer.ref ∧
      (tracker.state timer.ref).pendingFlush = some timer.id
  armed : ∀ {sessionId ref id}, tracker.sessions.get? sessionId = some ref →
    (tracker.state ref).pendingFlush = some id → ⟨id, ref⟩ ∈ tracker.timers
  single : (tracker.timers.map Timer.id).Nodup
  idle : ∀ {sessionId ref}, tracker.sessions.get? sessionId = some ref → (tracker.state ref).disabled = true →
    (tracker.state ref).pendingFlush = none

variable {self : CwdTracker} {sessionId : Text} {ref : Nat} {state : SessionState}

theorem sound_new : Sound {} where
  owned found := nomatch found
  timed _ member := nomatch member
  armed found := nomatch found
  single := List.nodup_nil
  idle found := nomatch found

theorem length_put : (self.put ref state).states.length = self.states.length := List.length_set

theorem state_put (within : ref < self.states.length) (other : Nat) :
    (self.put ref state).state other = if other = ref then state else self.state other := by
  unfold CwdTracker.state put
  by_cases same : ref = other
  · subst same
    simp [within]
  · simp [same, Ne.symm same]

theorem Sound.inj (sound : self.Sound) {other : Text} (hit : self.sessions.get? sessionId = some ref)
    (found' : self.sessions.get? other = some ref) : sessionId = other :=
  (sound.owned hit).2.symm.trans (sound.owned found').2

theorem view_put (sound : self.Sound) (hit : self.sessions.get? sessionId = some ref) (other : Text) :
    (self.put ref state).view other = if other = sessionId then some state else self.view other := by
  have within := (sound.owned hit).1
  show (self.sessions.get? other).map (self.put ref state).state = _
  by_cases same : other = sessionId
  · subst same
    rw [if_pos rfl, hit, Option.map_some, state_put within, if_pos rfl]
  · rw [if_neg same, view]
    refine Option.map_congr fun held at_ => ?_
    rw [state_put within, if_neg]
    rintro rfl
    exact same (sound.inj at_ hit)

theorem Sound.put (sound : self.Sound) (hit : self.sessions.get? sessionId = some ref)
    (named : state.record.sessionId = sessionId) (timer : state.pendingFlush = (self.state ref).pendingFlush)
    (idle : state.disabled = true → state.pendingFlush = none) : (self.put ref state).Sound := by
  have within := (sound.owned hit).1
  refine ⟨?_, ?_, ?_, sound.single, ?_⟩
  · intro other held at_
    refine ⟨by rw [length_put]; exact (sound.owned at_).1, ?_⟩
    rw [state_put within]
    split_ifs with same
    · subst same
      exact named.trans (sound.inj hit at_)
    · exact (sound.owned at_).2
  · intro timer_ mem
    obtain ⟨fresh, other, at_, pending⟩ := sound.timed timer_ mem
    refine ⟨fresh, other, at_, ?_⟩
    rw [state_put within]
    split_ifs with same
    · rw [timer, ← same, pending]
    · exact pending
  · intro other held id at_ pending
    rw [state_put within] at pending
    split_ifs at pending with same
    · rw [timer, ← same] at pending
      exact sound.armed at_ pending
    · exact sound.armed at_ pending
  · intro other held at_ disabled
    rw [state_put within] at disabled ⊢
    split_ifs at disabled ⊢ with same
    · exact idle disabled
    · exact sound.idle at_ disabled

theorem Sound.disarm (sound : self.Sound) (hit : self.sessions.get? sessionId = some ref) {id : Nat}
    (pending : (self.state ref).pendingFlush = some id) :
    ((self.clearTimeout id).put ref { self.state ref with pendingFlush := none }).Sound := by
  have within := (sound.owned hit).1
  have state_ : ∀ other, ((self.clearTimeout id).put ref { self.state ref with pendingFlush := none }).state other =
      if other = ref then { self.state ref with pendingFlush := none } else self.state other :=
    fun other => @state_put (self.clearTimeout id) ref _ within other
  refine ⟨?_, ?_, ?_, sound.single.sublist (List.filter_sublist.map _), ?_⟩
  · intro other held at_
    refine ⟨by rw [length_put]; exact (sound.owned at_).1, ?_⟩
    rw [state_]
    split_ifs with same
    · subst same
      exact (sound.owned at_).2
    · exact (sound.owned at_).2
  · intro timer mem
    obtain ⟨mem, differ⟩ := List.mem_filter.mp mem
    obtain ⟨fresh, other, at_, held⟩ := sound.timed timer mem
    refine ⟨fresh, other, at_, ?_⟩
    rw [state_, if_neg]
    · exact held
    · intro same
      rw [same, pending] at held
      exact (of_decide_eq_true differ) (Option.some.inj held).symm
  · intro other held id' at_ pending'
    rw [state_] at pending'
    split_ifs at pending' with same
    refine List.mem_filter.mpr ⟨sound.armed at_ pending', decide_eq_true ?_⟩
    rintro rfl
    have one := List.inj_on_of_nodup_map sound.single (sound.armed hit pending) (sound.armed at_ pending') rfl
    exact same (congrArg Timer.ref one).symm
  · intro other held at_ disabled
    rw [state_] at disabled ⊢
    split_ifs at disabled ⊢ with same
    · rfl
    · exact sound.idle at_ disabled

theorem Sound.arm (sound : self.Sound) (hit : self.sessions.get? sessionId = some ref)
    (none_ : (self.state ref).pendingFlush = none) (enabled : (self.state ref).disabled = false) :
    ((self.setTimeout ref).put ref { self.state ref with pendingFlush := some self.nextTimer }).Sound := by
  have within := (sound.owned hit).1
  have state_ : ∀ other, ((self.setTimeout ref).put ref
      { self.state ref with pendingFlush := some self.nextTimer }).state other =
        if other = ref then { self.state ref with pendingFlush := some self.nextTimer } else self.state other :=
    fun other => @state_put (self.setTimeout ref) ref _ within other
  refine ⟨?_, ?_, ?_, ?_, ?_⟩
  · intro other held at_
    refine ⟨by rw [length_put]; exact (sound.owned at_).1, ?_⟩
    rw [state_]
    split_ifs with same
    · subst same
      exact (sound.owned at_).2
    · exact (sound.owned at_).2
  · intro timer mem
    obtain old | new := List.mem_append.mp mem
    · obtain ⟨fresh, other, at_, held⟩ := sound.timed timer old
      refine ⟨Nat.lt_succ_of_lt fresh, other, at_, ?_⟩
      rw [state_, if_neg]
      · exact held
      · intro same
        rw [same, none_] at held
        cases held
    · obtain rfl := List.mem_singleton.mp new
      refine ⟨Nat.lt_succ_self _, sessionId, hit, ?_⟩
      rw [state_, if_pos rfl]
  · intro other held id at_ pending
    rw [state_] at pending
    split_ifs at pending with same
    · subst same
      obtain rfl := Option.some.inj pending
      exact List.mem_append_right _ (List.mem_singleton_self _)
    · exact List.mem_append_left _ (sound.armed at_ pending)
  · show ((self.timers ++ [Timer.mk self.nextTimer ref]).map Timer.id).Nodup
    rw [List.map_append, List.map_singleton]
    refine List.nodup_append.mpr ⟨sound.single, List.nodup_singleton _, ?_⟩
    intro id mem id' new same
    obtain ⟨timer, held, rfl⟩ := List.mem_map.mp mem
    have fresh := (sound.timed timer held).1
    rw [same, List.mem_singleton.mp new] at fresh
    exact Nat.lt_irrefl _ fresh
  · intro other held at_ disabled
    rw [state_] at disabled ⊢
    split_ifs at disabled ⊢ with same
    · exact absurd disabled (by simp [enabled])
    · exact sound.idle at_ disabled

theorem state_assign_self : (self.assign sessionId state).state self.states.length = state := by
  simp [CwdTracker.state, assign]

theorem state_assign_of_lt {other : Nat} (within : other < self.states.length) :
    (self.assign sessionId state).state other = self.state other := by
  simp [CwdTracker.state, assign, List.getElem?_append_left within]

theorem Sound.assign (sound : self.Sound) (named : state.record.sessionId = sessionId)
    (quiet : ∀ ref, self.sessions.get? sessionId = some ref → (self.state ref).pendingFlush = none)
    (timer : state.pendingFlush = none) : (self.assign sessionId state).Sound := by
  have get_ : ∀ other, (self.assign sessionId state).sessions.get? other =
      if sessionId = other then some self.states.length else self.sessions.get? other :=
    fun other => SeqMap.get?_set _ _ _ other
  refine ⟨?_, ?_, ?_, sound.single, ?_⟩
  · intro other held at_
    rw [get_] at at_
    have more : (self.assign sessionId state).states.length = self.states.length + 1 := by simp [CwdTracker.assign]
    split_ifs at at_ with same
    · subst same
      obtain rfl := Option.some.inj at_
      exact ⟨by omega, by rw [state_assign_self]; exact named⟩
    · obtain ⟨within, own⟩ := sound.owned at_
      exact ⟨by omega, by rw [state_assign_of_lt within]; exact own⟩
  · intro timer_ mem
    obtain ⟨fresh, other, at_, pending⟩ := sound.timed timer_ mem
    refine ⟨fresh, other, ?_, ?_⟩
    · rw [get_, if_neg]
      · exact at_
      · rintro rfl
        rw [quiet _ at_] at pending
        cases pending
    · rw [state_assign_of_lt (sound.owned at_).1]
      exact pending
  · intro other held id at_ pending
    rw [get_] at at_
    split_ifs at at_ with same
    · obtain rfl := Option.some.inj at_
      rw [state_assign_self, timer] at pending
      cases pending
    · rw [state_assign_of_lt (sound.owned at_).1] at pending
      exact sound.armed at_ pending
  · intro other held at_ disabled
    rw [get_] at at_
    split_ifs at at_ with same
    · obtain rfl := Option.some.inj at_
      rw [state_assign_self]
      exact timer
    · rw [state_assign_of_lt (sound.owned at_).1] at disabled ⊢
      exact sound.idle at_ disabled

theorem view_assign (sound : self.Sound) (other : Text) :
    (self.assign sessionId state).view other = if other = sessionId then some state else self.view other := by
  show ((self.sessions.set sessionId self.states.length).get? other).map (self.assign sessionId state).state = _
  rw [SeqMap.get?_set]
  by_cases same : other = sessionId
  · subst same
    rw [if_pos rfl, if_pos rfl, Option.map_some, state_assign_self]
  · rw [if_neg (Ne.symm same), if_neg same, view]
    refine Option.map_congr fun held at_ => ?_
    exact state_assign_of_lt (sound.owned at_).1

theorem Sound.erase (sound : self.Sound)
    (quiet : ∀ ref, self.sessions.get? sessionId = some ref → (self.state ref).pendingFlush = none) :
    { self with sessions := self.sessions.erase sessionId }.Sound := by
  have kept : ∀ {other held}, (self.sessions.erase sessionId).get? other = some held →
      self.sessions.get? other = some held := by
    intro other held at_
    rw [SeqMap.get?_erase] at at_
    split_ifs at at_
    exact at_
  refine ⟨fun at_ => sound.owned (kept at_), ?_, fun at_ => sound.armed (kept at_), sound.single,
    fun at_ => sound.idle (kept at_)⟩
  intro timer mem
  obtain ⟨fresh, other, at_, pending⟩ := sound.timed timer mem
  refine ⟨fresh, other, ?_, pending⟩
  rw [SeqMap.get?_erase, if_neg]
  · exact at_
  · rintro rfl
    rw [quiet _ at_] at pending
    cases pending

/-- The session comes to the state given, and no other session changes. -/
structure Moves (before next : CwdTracker) (sessionId : Text) (after : Option SessionState) : Prop where
  sound : next.Sound
  own : next.view sessionId = after
  others : ∀ other, other ≠ sessionId → next.view other = before.view other

theorem Moves.trans {pre next last : CwdTracker} {after after' : Option SessionState}
    (first : Moves pre next sessionId after) (second : Moves next last sessionId after') :
    Moves pre last sessionId after' :=
  ⟨second.sound, second.own, fun other ne => (second.others other ne).trans (first.others other ne)⟩

theorem moves_refl (sound : self.Sound) : Moves self self sessionId (self.view sessionId) :=
  ⟨sound, rfl, fun _ _ => rfl⟩

theorem moves_put (sound : self.Sound) (hit : self.sessions.get? sessionId = some ref)
    (named : state.record.sessionId = sessionId)
    (timer : state.pendingFlush = (self.state ref).pendingFlush)
    (idle : state.disabled = true → state.pendingFlush = none) :
    Moves self (self.put ref state) sessionId (some state) where
  sound := sound.put hit named timer idle
  own := by rw [view_put sound hit, if_pos rfl]
  others other apart := by rw [view_put sound hit, if_neg apart]

theorem moves_disarm (sound : self.Sound) (hit : self.sessions.get? sessionId = some ref) {id : Nat}
    (pending : (self.state ref).pendingFlush = some id) :
    Moves self ((self.clearTimeout id).put ref { self.state ref with pendingFlush := none }) sessionId
      (some { self.state ref with pendingFlush := none }) := by
  have put_ := @view_put self sessionId ref { self.state ref with pendingFlush := none } sound hit
  exact ⟨sound.disarm hit pending, (put_ sessionId).trans (if_pos rfl),
    fun other ne => (put_ other).trans (if_neg ne)⟩

theorem moves_arm (sound : self.Sound) (hit : self.sessions.get? sessionId = some ref)
    (none_ : (self.state ref).pendingFlush = none) (enabled : (self.state ref).disabled = false) :
    Moves self ((self.setTimeout ref).put ref { self.state ref with pendingFlush := some self.nextTimer }) sessionId
      (some { self.state ref with pendingFlush := some self.nextTimer }) := by
  have put_ := @view_put self sessionId ref { self.state ref with pendingFlush := some self.nextTimer } sound hit
  exact ⟨sound.arm hit none_ enabled, (put_ sessionId).trans (if_pos rfl),
    fun other ne => (put_ other).trans (if_neg ne)⟩

theorem moves_assign (sound : self.Sound) (named : state.record.sessionId = sessionId)
    (quiet : ∀ ref, self.sessions.get? sessionId = some ref → (self.state ref).pendingFlush = none)
    (timer : state.pendingFlush = none) : Moves self (self.assign sessionId state) sessionId (some state) where
  sound := sound.assign named quiet timer
  own := (view_assign sound sessionId).trans (if_pos rfl)
  others other apart := (view_assign sound other).trans (if_neg apart)

theorem moves_erase (sound : self.Sound)
    (quiet : ∀ ref, self.sessions.get? sessionId = some ref → (self.state ref).pendingFlush = none) :
    Moves self { self with sessions := self.sessions.erase sessionId } sessionId none where
  sound := sound.erase quiet
  own := by
    show ((self.sessions.erase sessionId).get? sessionId).map self.state = none
    rw [SeqMap.get?_erase, if_pos rfl, Option.map_none]
  others other apart := by
    show ((self.sessions.erase sessionId).get? other).map self.state = _
    rw [SeqMap.get?_erase, if_neg (Ne.symm apart), view]

theorem state_of_view {pre next : CwdTracker} {after : SessionState}
    (moved : Moves pre next sessionId (some after)) (hit : next.sessions.get? sessionId = some ref) :
    next.state ref = after := by
  have own := moved.own
  rw [view, hit] at own
  exact Option.some.inj own

theorem sessions_clearPendingFlush : (self.clearPendingFlush ref).sessions = self.sessions := by
  unfold clearPendingFlush
  split <;> rfl

theorem moves_clearPendingFlush (sound : self.Sound) (hit : self.sessions.get? sessionId = some ref) :
    Moves self (self.clearPendingFlush ref) sessionId (some { self.state ref with pendingFlush := none }) := by
  unfold clearPendingFlush
  cases pending : (self.state ref).pendingFlush with
  | some id => exact moves_disarm sound hit pending
  | none =>
    have same : { self.state ref with pendingFlush := none } = self.state ref := by rw [← pending]
    have here : self.view sessionId = some (self.state ref) := by rw [view, hit, Option.map_some]
    rw [same, ← here]
    exact moves_refl sound

theorem moves_schedulePendingFlush (sound : self.Sound) (hit : self.sessions.get? sessionId = some ref)
    (enabled : (self.state ref).disabled = false) :
    ∃ id, Moves self (self.schedulePendingFlush ref) sessionId
      (some { self.state ref with pendingFlush := some id }) := by
  unfold schedulePendingFlush
  cases pending : (self.state ref).pendingFlush with
  | some id =>
    have same : { self.state ref with pendingFlush := some id } = self.state ref := by rw [← pending]
    have here : self.view sessionId = some (self.state ref) := by rw [view, hit, Option.map_some]
    refine ⟨id, ?_⟩
    rw [same, ← here]
    exact moves_refl sound
  | none => exact ⟨self.nextTimer, moves_arm sound hit pending enabled⟩

/-- What a report makes of the session's state, and what it delivers. -/
inductive Reported (record : CwdRecord) : Option SessionState → SessionState → List CwdRecord → Prop
  | first : Reported record none
      { record, authorityStale := false, disabled := false, burstTimestamps := [record.updatedAt],
        lastFiredAt := record.updatedAt } [record]
  | ignored (state : SessionState) (disabled : state.disabled = true) : Reported record (some state) state []
  | tripped (state : SessionState) (enabled : state.disabled = false)
      (over_ : BURST_TRIP_THRESHOLD < (burst state.burstTimestamps record.updatedAt).length) :
      Reported record (some state)
        { record := state.record, authorityStale := state.authorityStale, disabled := true,
          burstTimestamps := burst state.burstTimestamps record.updatedAt, lastFiredAt := record.updatedAt }
        [state.record]
  | heartbeat (state : SessionState) (enabled : state.disabled = false) (same : state.record.place = record.place) :
      Reported record (some state)
        { state with
          record := { state.record with source := record.source, updatedAt := record.updatedAt }
          burstTimestamps := burst state.burstTimestamps record.updatedAt } []
  | delivered (state : SessionState) (enabled : state.disabled = false) (stale : Bool) :
      Reported record (some state)
        { state with
          record, authorityStale := stale, burstTimestamps := burst state.burstTimestamps record.updatedAt
          pendingFlush := none, lastFiredAt := record.updatedAt } [record]
  | deferred (state : SessionState) (enabled : state.disabled = false) (stale : Bool) (id : Nat) :
      Reported record (some state)
        { state with
          record, authorityStale := stale, burstTimestamps := burst state.burstTimestamps record.updatedAt
          pendingFlush := some id } []

theorem view_of_get? (hit : self.sessions.get? sessionId = some ref) :
    self.view sessionId = some (self.state ref) := by rw [view, hit, Option.map_some]

theorem burst_nil (now : Int) : burst [] now = [now] := by
  have recent : ¬ now < now - (CWD_BURST_SUSTAIN_MS : Int) := by
    omega
  simp [burst, recent]

theorem report_moves (sound : self.Sound) (record : CwdRecord) : ∃ after,
    Moves self (self.report record).1 record.sessionId (some after) ∧
      Reported record (self.view record.sessionId) after (self.report record).2.2 := by
  unfold report
  dsimp only
  cases hit : self.sessions.get? record.sessionId with
  | none =>
    have unseen : self.view record.sessionId = none := by rw [view, hit, Option.map_none]
    have few : ¬ BURST_TRIP_THRESHOLD < [record.updatedAt].length := show ¬ BURST_TRIP_THRESHOLD < 1 by decide
    rw [burst_nil, if_neg few, unseen]
    exact ⟨_, moves_assign sound rfl (fun ref at_ => by rw [hit] at at_; cases at_) rfl, .first⟩
  | some ref =>
    obtain ⟨-, named⟩ := sound.owned hit
    rw [view_of_get? hit]
    dsimp only
    by_cases disabled : (self.state ref).disabled = true
    · rw [if_pos disabled]
      exact ⟨_, view_of_get? hit ▸ moves_refl sound, .ignored _ disabled⟩
    rw [if_neg disabled]
    have enabled : (self.state ref).disabled = false := Bool.eq_false_iff.mpr disabled
    by_cases trips : BURST_TRIP_THRESHOLD < (burst (self.state ref).burstTimestamps record.updatedAt).length
    · rw [if_pos trips]
      have cleared := moves_clearPendingFlush sound hit
      refine ⟨_, cleared.trans (moves_assign cleared.sound ?_ ?_ rfl), .tripped _ enabled trips⟩
      · exact named
      · intro held at_
        rw [state_of_view cleared at_]
    rw [if_neg trips]
    by_cases same : (self.state ref).record.cwd = record.cwd ∧ (self.state ref).record.authority = record.authority
    · rw [if_pos same]
      refine ⟨_, moves_put sound hit named rfl ?_, .heartbeat _ enabled (Prod.ext same.1 same.2)⟩
      intro disabled'
      exact absurd disabled' disabled
    rw [if_neg same]
    have changed := @moves_put self record.sessionId ref
      { self.state ref with
        record := record
        burstTimestamps := burst (self.state ref).burstTimestamps record.updatedAt
        authorityStale := (self.state ref).authorityStale || (self.state ref).record.authority != record.authority }
      sound hit rfl rfl (fun disabled' => absurd disabled' disabled)
    have still := hit
    have here := state_of_view changed still
    by_cases due : CWD_MIN_INTERVAL_MS ≤ record.updatedAt - (self.state ref).lastFiredAt
    · rw [if_pos due]
      have cleared := moves_clearPendingFlush changed.sound still
      refine ⟨_, (changed.trans cleared).trans (moves_put cleared.sound ?_ rfl ?_ (fun _ => rfl)),
        .delivered _ enabled _⟩
      · rw [sessions_clearPendingFlush]
        exact still
      · rw [state_of_view cleared (by rw [sessions_clearPendingFlush]; exact still)]
    · rw [if_neg due]
      obtain ⟨id, armed⟩ := moves_schedulePendingFlush changed.sound still (by rw [here]; exact enabled)
      rw [here] at armed
      exact ⟨_, changed.trans armed, .deferred _ enabled _ id⟩

theorem reenable_moves (sound : self.Sound) (sessionId : Text) :
    Moves self (self.reenable sessionId) sessionId ((self.view sessionId).map fun state =>
      { state with pendingFlush := none, disabled := false, burstTimestamps := [] }) := by
  unfold reenable
  cases hit : self.sessions.get? sessionId with
  | none =>
    have unseen : self.view sessionId = none := by rw [view, hit, Option.map_none]
    have stays : Moves self self sessionId (self.view sessionId) := moves_refl sound
    rw [unseen] at stays ⊢
    exact stays
  | some ref =>
    obtain ⟨-, named⟩ := sound.owned hit
    have cleared := moves_clearPendingFlush sound hit
    have still : (self.clearPendingFlush ref).sessions.get? sessionId = some ref := by
      rw [sessions_clearPendingFlush]
      exact hit
    have here := state_of_view cleared still
    rw [view_of_get? hit, Option.map_some]
    dsimp only
    rw [here]
    exact cleared.trans (moves_put cleared.sound still named (by rw [here]) (fun disabled => nomatch disabled))

theorem clear_moves (sound : self.Sound) (sessionId : Text) : Moves self (self.clear sessionId) sessionId none := by
  unfold clear
  cases hit : self.sessions.get? sessionId with
  | none =>
    have unseen : self.view sessionId = none := by rw [view, hit, Option.map_none]
    have stays : Moves self self sessionId (self.view sessionId) := moves_refl sound
    rwa [unseen] at stays
  | some ref =>
    have cleared := moves_clearPendingFlush sound hit
    refine cleared.trans (moves_erase cleared.sound fun held at_ => ?_)
    rw [state_of_view cleared at_]

/-- A timer that fires delivers the record of its session, or does nothing. -/
theorem flush_moves (sound : self.Sound) (id : Nat) :
    (self.flush id = (self, [])) ∨ ∃ sessionId state, self.view sessionId = some state ∧
      state.disabled = false ∧ state.record.sessionId = sessionId ∧ (self.flush id).2 = [state.record] ∧
      Moves self (self.flush id).1 sessionId (some { state with
        pendingFlush := none, lastFiredAt := state.lastFiredAt + CWD_MIN_INTERVAL_MS }) := by
  unfold flush
  cases fires : self.timers.find? (·.id = id) with
  | none => exact .inl rfl
  | some timer =>
    have named : timer.id = id := by simpa using List.find?_some fires
    subst named
    obtain ⟨-, sessionId, hit, pending⟩ := sound.timed timer (List.mem_of_find?_eq_some fires)
    obtain ⟨-, owner⟩ := sound.owned hit
    have enabled : (self.state timer.ref).disabled = false := by
      by_contra disabled
      rw [sound.idle hit (by simpa using disabled)] at pending
      cases pending
    have disarmed := moves_disarm sound hit pending
    have here := state_of_view disarmed hit
    refine .inr ⟨sessionId, _, view_of_get? hit, enabled, owner, ?_⟩
    dsimp only
    rw [if_neg (by rw [enabled]; decide)]
    exact ⟨rfl, disarmed.trans (moves_put disarmed.sound hit owner (by rw [here]) (fun _ => rfl))⟩

end CwdTracker

end NexTerminal.Cwd
