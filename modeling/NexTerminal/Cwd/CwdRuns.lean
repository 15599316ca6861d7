import NexTerminal.Cwd.Sessions
import NexTerminal.Library.Runs

namespace NexTerminal.Cwd

open Library

inductive CwdAct
  | report (record : CwdRecord)
  | flush (id : Nat)
  | reenable (sessionId : Text)
  | clear (sessionId : Text)

structure Watched where
  tracker : CwdTracker := {}
  reported : List CwdRecord := []
  /-- the reports that did not find or leave their session disabled, since it was last cleared -/
  taken : List CwdRecord := []
  delivered : List CwdRecord := []

namespace Watched

def step (self : Watched) : CwdAct → Watched
  | .report record =>
    let outcome := self.tracker.report record
    { tracker := outcome.1
      reported := self.reported ++ [record]
      taken := if outcome.1.isDisabled record.sessionId then self.taken else self.taken ++ [record]
      delivered := self.delivered ++ outcome.2.2 }
  | .flush id =>
    { self with tracker := (self.tracker.flush id).1, delivered := self.delivered ++ (self.tracker.flush id).2 }
  | .reenable sessionId => { self with tracker := self.tracker.reenable sessionId }
  | .clear sessionId =>
    { self with tracker := self.tracker.clear sessionId, taken := self.taken.filter (·.sessionId ≠ sessionId) }

def run (acts : List CwdAct) : Watched := acts.foldl step {}

/-- A re-enable of a session that is not shut down and has a delivery outstanding. -/
def cancels (self : Watched) : CwdAct → Bool
  | .reenable sessionId => !self.tracker.isDisabled sessionId && !(self.tracker.timersOf sessionId).isEmpty
  | _ => false

end Watched

def of (sessionId : Text) (records : List CwdRecord) : List CwdRecord := records.filter (·.sessionId = sessionId)

def times (sessionId : Text) (records : List CwdRecord) : List Int := (of sessionId records).map (·.updatedAt)

def Timely (records : List CwdRecord) : Prop := records.Pairwise fun first later => first.updatedAt ≤ later.updatedAt

/-- More reports than the rate allows in the time up to some moment. -/
def Burst (reports : List Int) : Prop :=
  ∃ now : Int, CWD_BURST_RATE_PER_SEC * CWD_BURST_SUSTAIN_MS / 1000 <
    reports.countP fun time => now - CWD_BURST_SUSTAIN_MS ≤ time ∧ time ≤ now

section
variable {sessionId : Text} {records more : List CwdRecord} {record : CwdRecord}

theorem of_append_other (ne : record.sessionId ≠ sessionId) :
    of sessionId (records ++ [record]) = of sessionId records := by
  simp [of, ne]

theorem of_append_self (own : record.sessionId = sessionId) :
    of sessionId (records ++ [record]) = of sessionId records ++ [record] := by
  simp [of, own]

theorem of_cleared (records : List CwdRecord) (sessionId other : Text) :
    of other (records.filter (·.sessionId ≠ sessionId)) = if other = sessionId then [] else of other records := by
  rw [of, List.filter_filter]
  split_ifs with same
  · subst same
    exact List.filter_eq_nil_iff.mpr (by simp)
  · refine List.filter_congr fun record _ => ?_
    by_cases own : record.sessionId = other
    · simp [own, same]
    · simp [own]

theorem times_append : times sessionId (records ++ more) = times sessionId records ++ times sessionId more := by
  simp [times, of]

theorem times_sorted (sessionId : Text) (timely : Timely records) : (times sessionId records).Pairwise (· ≤ ·) :=
  List.pairwise_map.mpr (timely.filter _)

theorem Timely.of_append (timely : Timely (records ++ more)) : Timely records := (List.pairwise_append.mp timely).1

end

theorem Burst.mono {reports : List Int} (burst : Burst reports) (more : List Int) : Burst (reports ++ more) := by
  obtain ⟨now, over_⟩ := burst
  exact ⟨now, by rw [List.countP_append]; omega⟩

theorem burst_sublist (timestamps : List Int) (now : Int) :
    (CwdTracker.burst timestamps now).Sublist (timestamps ++ [now]) := List.dropWhile_sublist _

theorem recent_of_burst {timestamps : List Int} {now : Int} (sorted : (timestamps ++ [now]).Pairwise (· ≤ ·)) :
    ∀ time ∈ CwdTracker.burst timestamps now, now - CWD_BURST_SUSTAIN_MS ≤ time ∧ time ≤ now := by
  have kept := sorted.sublist (burst_sublist timestamps now)
  intro time mem
  constructor
  · unfold CwdTracker.burst at kept mem
    cases split_ : (timestamps ++ [now]).dropWhile (· < now - CWD_BURST_SUSTAIN_MS) with
    | nil =>
      rw [split_] at mem
      cases mem
    | cons first rest =>
      have some_ : (timestamps ++ [now]).dropWhile (· < now - CWD_BURST_SUSTAIN_MS) ≠ [] := by
        rw [split_]
        exact List.cons_ne_nil _ _
      have recent := List.head_dropWhile_not _ some_
      rw [split_] at mem kept
      simp only [split_, decide_eq_false_iff_not, Int.not_lt] at recent
      obtain rfl | later := List.mem_cons.mp mem
      · exact recent
      · exact Int.le_trans recent ((List.pairwise_cons.mp kept).1 time later)
  · have held := (burst_sublist timestamps now).subset mem
    obtain pre | single := List.mem_append.mp held
    · exact (List.pairwise_append.mp sorted).2.2 time pre now (List.mem_singleton_self now)
    · exact Int.le_of_eq (List.mem_singleton.mp single)

theorem burst_of_window {timestamps reports : List Int} {now : Int}
    (sorted : (timestamps ++ [now]).Pairwise (· ≤ ·))
    (part : (timestamps ++ [now]).Sublist reports)
    (over_ : BURST_TRIP_THRESHOLD < (CwdTracker.burst timestamps now).length) : Burst reports := by
  refine ⟨now, Nat.lt_of_lt_of_le over_ ?_⟩
  have all := List.countP_eq_length.mpr fun time mem =>
    decide_eq_true (recent_of_burst sorted time mem)
  rw [← all]
  exact ((burst_sublist timestamps now).trans part).countP_le

theorem spread {first : Int} {rest : List Int} (ne : (first :: rest).Pairwise fun a b => a + 50 < b) :
    first + 51 * rest.length ≤ (first :: rest).getLast (List.cons_ne_nil _ _) := by
  induction rest generalizing first with
  | nil => simp
  | cons second rest ih =>
    obtain ⟨pre, later⟩ := List.pairwise_cons.mp ne
    have tail := ih later
    have step := pre second List.mem_cons_self
    rw [List.getLast_cons (List.cons_ne_nil _ _), List.length_cons]
    omega

theorem not_burst_of_apart {reports : List Int} (ne : reports.Pairwise fun a b => a + 50 < b) : ¬Burst reports := by
  rintro ⟨now, over_⟩
  rw [List.countP_eq_length_filter] at over_
  have kept := ne.sublist (List.filter_sublist (p := fun time => now - CWD_BURST_SUSTAIN_MS ≤ time ∧ time ≤ now))
  have recent : ∀ time ∈ reports.filter fun time => now - CWD_BURST_SUSTAIN_MS ≤ time ∧ time ≤ now,
      now - CWD_BURST_SUSTAIN_MS ≤ time ∧ time ≤ now := fun time mem => by simpa using (List.mem_filter.mp mem).2
  revert over_ kept recent
  generalize reports.filter (fun time => now - CWD_BURST_SUSTAIN_MS ≤ time ∧ time ≤ now) = window
  intro over_ kept recent
  cases window with
  | nil => exact absurd over_ (Nat.not_lt_zero _)
  | cons first rest =>
    have wide := spread kept
    have low := (recent first List.mem_cons_self).1
    have high := (recent _ (List.getLast_mem (List.cons_ne_nil first rest))).2
    have many : 60 ≤ rest.length := Nat.lt_succ_iff.mp over_
    unfold CWD_BURST_SUSTAIN_MS at low
    omega

namespace Watched

/-- What holds of a tracker and its history, whatever happened. -/
structure Tracked (watched : Watched) : Prop where
  sound : watched.tracker.Sound
  record : ∀ sessionId, (watched.tracker.view sessionId).map (·.record.place) =
    (of sessionId watched.taken).getLast?.map CwdRecord.place
  window : ∀ {sessionId state}, watched.tracker.view sessionId = some state →
    state.burstTimestamps.Sublist (times sessionId watched.reported)
  burst : ∀ {sessionId state}, watched.tracker.view sessionId = some state → state.disabled = true →
    Burst (times sessionId watched.reported)

theorem isDisabled_eq (tracker : CwdTracker) (sessionId : Text) :
    tracker.isDisabled sessionId = ((tracker.view sessionId).map (·.disabled)).getD false := by
  rw [CwdTracker.isDisabled, CwdTracker.view, Option.map_map]
  rfl

theorem tracked_new : Tracked {} where
  sound := CwdTracker.sound_new
  record _ := rfl
  window found := nomatch found
  burst found := nomatch found

variable {self : Watched}

theorem Tracked.report (tracked : self.Tracked) {record : CwdRecord} (timely : Timely (self.reported ++ [record])) :
    (self.step (.report record)).Tracked := by
  obtain ⟨after, moved, reported⟩ := CwdTracker.report_moves tracked.sound record
  have sorted := times_sorted record.sessionId timely
  have now_ : times record.sessionId (self.reported ++ [record]) =
      times record.sessionId self.reported ++ [record.updatedAt] := by
    rw [times, of_append_self rfl, List.map_append]
    rfl
  rw [now_] at sorted
  have disabled_ : (self.tracker.report record).1.isDisabled record.sessionId = after.disabled := by
    rw [isDisabled_eq, moved.own]
    rfl
  generalize held : self.tracker.view record.sessionId = pre at reported
  generalize (self.tracker.report record).2.2 = sent at reported
  refine ⟨moved.sound, ?_, ?_, ?_⟩
  · intro sessionId
    show ((self.tracker.report record).1.view sessionId).map _ =
      (of sessionId (if _ then self.taken else self.taken ++ [record])).getLast?.map _
    rw [disabled_]
    by_cases own : sessionId = record.sessionId
    · subst own
      have place := tracked.record record.sessionId
      rw [held] at place
      rw [moved.own, Option.map_some]
      cases reported with
      | first => rw [if_neg Bool.false_ne_true, of_append_self rfl, List.getLast?_concat, Option.map_some]
      | ignored _ disabled =>
        rw [if_pos disabled]
        exact place
      | tripped => exact place
      | heartbeat _ enabled same =>
        rw [if_neg (by rw [enabled]; decide), of_append_self rfl, List.getLast?_concat, Option.map_some]
        exact congrArg some same
      | delivered _ enabled | deferred _ enabled =>
        rw [if_neg (by rw [enabled]; decide), of_append_self rfl, List.getLast?_concat, Option.map_some]
    · have same : of sessionId (if after.disabled then self.taken else self.taken ++ [record]) =
        of sessionId self.taken := by
        split_ifs
        · rfl
        · exact of_append_other (Ne.symm own)
      rw [same, moved.others _ own]
      exact tracked.record sessionId
  · intro sessionId state hit
    show state.burstTimestamps.Sublist (times sessionId (self.reported ++ [record]))
    by_cases own : sessionId = record.sessionId
    · subst own
      obtain rfl := Option.mem_unique moved.own hit
      rw [now_]
      have grown : ∀ old, pre = some old → (CwdTracker.burst old.burstTimestamps record.updatedAt).Sublist
          (times record.sessionId self.reported ++ [record.updatedAt]) := fun old known =>
        (burst_sublist _ _).trans ((tracked.window (held.trans known)).append (List.Sublist.refl _))
      cases reported with
      | first => exact List.sublist_append_right _ _
      | ignored => exact (tracked.window held).trans (List.sublist_append_left _ _)
      | tripped | heartbeat | delivered | deferred => exact grown _ rfl
    · have stays : self.tracker.view sessionId = some state := (moved.others _ own).symm.trans hit
      rw [times_append]
      exact (tracked.window stays).trans (List.sublist_append_left _ _)
  · intro sessionId state hit disabled
    show Burst (times sessionId (self.reported ++ [record]))
    by_cases own : sessionId = record.sessionId
    · subst own
      obtain rfl := Option.mem_unique moved.own hit
      cases reported with
      | first => cases disabled
      | ignored =>
        rw [times_append]
        exact (tracked.burst held disabled).mono _
      | tripped old _ over_ =>
        rw [now_]
        have joined := (tracked.window held).append (List.Sublist.refl [record.updatedAt])
        exact burst_of_window (sorted.sublist joined) joined over_
      | heartbeat _ enabled | delivered _ enabled | deferred _ enabled =>
        exact absurd disabled (by rw [enabled]; decide)
    · have stays : self.tracker.view sessionId = some state := (moved.others _ own).symm.trans hit
      rw [times_append]
      exact (tracked.burst stays disabled).mono _

/-- A session goes away, or to a state in its place, with no new burst and no new shutdown. -/
theorem Tracked.moves (tracked : self.Tracked) {next : CwdTracker} {sessionId : Text} {after : Option SessionState}
    (moved : CwdTracker.Moves self.tracker next sessionId after)
    (kept : ∀ state, after = some state → ∃ pre, self.tracker.view sessionId = some pre ∧
      state.burstTimestamps.Sublist pre.burstTimestamps ∧ (state.disabled = true → pre.disabled = true))
    {taken : List CwdRecord}
    (place : after.map (·.record.place) = (of sessionId taken).getLast?.map CwdRecord.place)
    (ne : ∀ other, other ≠ sessionId → of other taken = of other self.taken) (delivered : List CwdRecord) :
    Tracked { self with tracker := next, taken, delivered } := by
  have source : ∀ {other state}, next.view other = some state → ∃ pre, self.tracker.view other = some pre ∧
      state.burstTimestamps.Sublist pre.burstTimestamps ∧ (state.disabled = true → pre.disabled = true) := by
    intro other state hit
    by_cases own : other = sessionId
    · subst own
      exact kept state (moved.own.symm.trans hit)
    · exact ⟨state, (moved.others _ own).symm.trans hit, List.Sublist.refl _, id⟩
  refine ⟨moved.sound, ?_, ?_, ?_⟩
  · intro other
    by_cases own : other = sessionId
    · subst own
      exact (congrArg _ moved.own).trans place
    · exact (congrArg _ (moved.others _ own)).trans ((tracked.record other).trans (by rw [ne _ own]))
  · intro other state hit
    obtain ⟨pre, held, window, -⟩ := source hit
    exact window.trans (tracked.window held)
  · intro other state hit disabled
    obtain ⟨pre, held, -, shut⟩ := source hit
    exact tracked.burst held (shut disabled)

theorem Tracked.step (tracked : self.Tracked) {act : CwdAct} (timely : Timely (self.step act).reported) :
    (self.step act).Tracked := by
  cases act with
  | report record => exact tracked.report timely
  | flush id =>
    obtain quiet | ⟨sessionId, state, hit, -, -, -, moved⟩ := CwdTracker.flush_moves tracked.sound id
    · have same : self.step (.flush id) = self := by simp [Watched.step, quiet]
      rw [same]
      exact tracked
    · refine tracked.moves moved ?_ ?_ (fun _ _ => rfl) _
      · rintro _ ⟨⟩
        exact ⟨state, hit, List.Sublist.refl _, fun disabled => disabled⟩
      · rw [← tracked.record, hit]
        rfl
  | reenable sessionId =>
    refine tracked.moves (CwdTracker.reenable_moves tracked.sound sessionId) ?_ ?_ (fun _ _ => rfl) _
    · intro state reached
      obtain ⟨pre, held, rfl⟩ := Option.map_eq_some_iff.mp reached
      exact ⟨pre, held, List.nil_sublist _, fun disabled => nomatch disabled⟩
    · rw [Option.map_map]
      exact tracked.record sessionId
  | clear sessionId =>
    refine tracked.moves (CwdTracker.clear_moves tracked.sound sessionId) (fun _ gone => nomatch gone) ?_ ?_ _
    · rw [of_cleared, if_pos rfl]
      rfl
    · intro other ne
      rw [of_cleared, if_neg ne]

theorem run_append (acts more : List CwdAct) : run (acts ++ more) = more.foldl step (run acts) := List.foldl_append

theorem timely_of_step {act : CwdAct} (timely : Timely (self.step act).reported) : Timely self.reported := by
  cases act with
  | report record => exact timely.of_append
  | flush id | reenable sessionId | clear sessionId => exact timely

theorem tracked_run (acts : List CwdAct) (timely : Timely (run acts).reported) : (run acts).Tracked := by
  induction acts using List.reverseRecOn with
  | nil => exact tracked_new
  | append_singleton acts act ih =>
    rw [run_append, List.foldl_cons, List.foldl_nil] at timely ⊢
    exact (ih (timely_of_step timely)).step timely

/-- What was last delivered of a session is what its record says, or a timer will deliver it. -/
def Settled (self : Watched) : Prop :=
  ∀ sessionId state, self.tracker.view sessionId = some state →
    state.pendingFlush.isSome ∨ (of sessionId self.delivered).getLast?.map CwdRecord.place = some state.record.place

theorem sent_of_reported {record : CwdRecord} {pre : Option SessionState} {after : SessionState}
    {sent : List CwdRecord} (reported : CwdTracker.Reported record pre after sent)
    (named : ∀ state, pre = some state → state.record.sessionId = record.sessionId) :
    ∀ item ∈ sent, item.sessionId = record.sessionId := by
  cases reported with
  | first | delivered => simp
  | ignored | heartbeat | deferred => simp
  | tripped state => simpa using named state rfl

theorem of_append_apart {sessionId : Text} (records : List CwdRecord) {sent : List CwdRecord}
    (ne : ∀ item ∈ sent, item.sessionId ≠ sessionId) : of sessionId (records ++ sent) = of sessionId records := by
  have none_ : of sessionId sent = [] := List.filter_eq_nil_iff.mpr fun item mem => by simpa using ne item mem
  rw [of, List.filter_append]
  exact (congrArg (of sessionId records ++ ·) none_).trans (List.append_nil _)

theorem Settled.report (settled : self.Settled) (sound : self.tracker.Sound) (record : CwdRecord) :
    (self.step (.report record)).Settled := by
  obtain ⟨after, moved, reported⟩ := CwdTracker.report_moves sound record
  have named : ∀ state, self.tracker.view record.sessionId = some state →
    state.record.sessionId = record.sessionId := by
    intro state hit
    obtain ⟨ref, at_, rfl⟩ := Option.map_eq_some_iff.mp hit
    exact (sound.owned at_).2
  have own_ := sent_of_reported reported named
  generalize held : self.tracker.view record.sessionId = pre at reported
  intro sessionId state hit
  show _ ∨ (of sessionId (self.delivered ++ (self.tracker.report record).2.2)).getLast?.map _ = _
  generalize (self.tracker.report record).2.2 = sent at reported own_
  by_cases own : sessionId = record.sessionId
  · subst own
    obtain rfl := Option.mem_unique moved.own hit
    cases reported with
    | first | delivered =>
      right
      rw [of_append_self rfl, List.getLast?_concat, Option.map_some]
    | ignored =>
      rw [List.append_nil]
      exact settled _ _ held
    | tripped old =>
      right
      rw [of_append_self (named old held), List.getLast?_concat, Option.map_some]
    | heartbeat old _ same =>
      have pre := settled _ _ held
      rw [List.append_nil]
      exact pre
    | deferred => exact .inl rfl
  · have stays : self.tracker.view sessionId = some state := (moved.others _ own).symm.trans hit
    rw [of_append_apart _ fun item mem => by rw [own_ item mem]; exact Ne.symm own]
    exact settled _ _ stays

variable {tracker : CwdTracker}

theorem pendingFlush_of_timersOf (sound : tracker.Sound) {sessionId : Text} {state : SessionState}
    (hit : tracker.view sessionId = some state) (none_ : tracker.timersOf sessionId = []) :
    state.pendingFlush = none := by
  obtain ⟨ref, at_, rfl⟩ := Option.map_eq_some_iff.mp hit
  cases pending : (tracker.state ref).pendingFlush with
  | none => rfl
  | some id =>
    have mem : Timer.mk id ref ∈ tracker.timersOf sessionId :=
      List.mem_filter.mpr ⟨sound.armed at_ pending, decide_eq_true (sound.owned at_).2⟩
    rw [none_] at mem
    cases mem

theorem Settled.step (settled : self.Settled) (sound : self.tracker.Sound) {act : CwdAct}
    (keeps : self.cancels act = false) : (self.step act).Settled := by
  cases act with
  | report record => exact settled.report sound record
  | flush id =>
    obtain quiet | ⟨sessionId, state, -, -, named, sent, moved⟩ := CwdTracker.flush_moves sound id
    · have same : self.step (.flush id) = self := by simp [Watched.step, quiet]
      rw [same]
      exact settled
    · intro other after reached
      show _ ∨ (of other (self.delivered ++ (self.tracker.flush id).2)).getLast?.map _ = _
      rw [sent]
      by_cases own : other = sessionId
      · subst own
        obtain rfl := Option.mem_unique moved.own reached
        right
        rw [of_append_self named, List.getLast?_concat, Option.map_some]
      · rw [of_append_other (by rw [named]; exact Ne.symm own)]
        exact settled _ _ ((moved.others _ own).symm.trans reached)
  | reenable sessionId =>
    have moved := CwdTracker.reenable_moves sound sessionId
    intro other after reached
    by_cases own : other = sessionId
    · subst own
      obtain ⟨pre, held, rfl⟩ := Option.map_eq_some_iff.mp (moved.own.symm.trans reached)
      have quiet : pre.pendingFlush = none := by
        rcases Bool.and_eq_false_iff.mp keeps with shut | idle
        · rw [isDisabled_eq, held, Option.map_some, Option.getD_some, Bool.not_eq_false'] at shut
          obtain ⟨ref, at_, rfl⟩ := Option.map_eq_some_iff.mp held
          exact sound.idle at_ shut
        · exact pendingFlush_of_timersOf sound held (by simpa using idle)
      obtain pending | delivered := settled _ _ held
      · rw [quiet] at pending
        cases pending
      · exact .inr delivered
    · exact settled _ _ ((moved.others _ own).symm.trans reached)
  | clear sessionId =>
    have moved := CwdTracker.clear_moves sound sessionId
    intro other after reached
    by_cases own : other = sessionId
    · subst own
      cases moved.own.symm.trans reached
    · exact settled _ _ ((moved.others _ own).symm.trans reached)

theorem timer_of_timersOf (sound : tracker.Sound) {sessionId : Text} {timer : Timer}
    (mem : timer ∈ tracker.timersOf sessionId) : tracker.sessions.get? sessionId = some timer.ref ∧
      (tracker.state timer.ref).pendingFlush = some timer.id := by
  obtain ⟨held, own⟩ := List.mem_filter.mp mem
  obtain ⟨-, other, at_, pending⟩ := sound.timed timer held
  have same : other = sessionId := (sound.owned at_).2.symm.trans (of_decide_eq_true own)
  exact ⟨same ▸ at_, pending⟩

theorem timersOf_le_one (sound : tracker.Sound) (sessionId : Text) : (tracker.timersOf sessionId).length ≤ 1 := by
  have alike : ∀ first ∈ tracker.timersOf sessionId, ∀ second ∈ tracker.timersOf sessionId,
    first.id = second.id := by
    intro first one second two
    obtain ⟨at_, pending⟩ := timer_of_timersOf sound one
    obtain ⟨at', pending'⟩ := timer_of_timersOf sound two
    have same : first.ref = second.ref := Option.mem_unique at_ at'
    rw [same] at pending
    exact Option.mem_unique pending pending'
  have nodup : ((tracker.timersOf sessionId).map Timer.id).Nodup :=
    sound.single.sublist (List.filter_sublist.map _)
  revert alike nodup
  generalize tracker.timersOf sessionId = held
  intro alike nodup
  match held with
  | [] | [_] => simp
  | first :: second :: rest =>
    have same := alike first (by simp) second (by simp)
    simp [same] at nodup

theorem timersOf_clear (sound : tracker.Sound) (sessionId : Text) :
    (tracker.clear sessionId).timersOf sessionId = [] := by
  have moved := CwdTracker.clear_moves sound sessionId
  refine List.eq_nil_iff_forall_not_mem.mpr fun timer mem => ?_
  have at_ := (timer_of_timersOf moved.sound mem).1
  have gone := moved.own
  rw [CwdTracker.view, at_] at gone
  cases gone

theorem settled_run (acts : List CwdAct) (timely : Timely (run acts).reported)
    (keeps : Avoids step cancels {} acts) : (run acts).Settled := by
  induction acts using List.reverseRecOn with
  | nil => exact fun _ _ hit => nomatch hit
  | append_singleton acts act ih =>
    have pre : Timely (run acts).reported := by
      rw [run_append, List.foldl_cons, List.foldl_nil] at timely
      exact timely_of_step timely
    rw [run_append, List.foldl_cons, List.foldl_nil]
    exact (ih pre keeps.left).step (tracked_run acts pre).sound (keeps acts act [] rfl)

structure Converges (acts : List CwdAct) (sessionId : Text) : Prop where
  /-- there is a record once the session has taken a report, and it is what the last one said -/
  record : ((run acts).tracker.getRecord sessionId).map CwdRecord.place =
    (of sessionId (run acts).taken).getLast?.map CwdRecord.place
  /-- it has been delivered or is about to be, if no re-enable cancelled that -/
  delivered : Avoids step cancels {} acts → ∀ record, (run acts).tracker.getRecord sessionId = some record →
    (of sessionId (run acts).delivered).getLast?.map CwdRecord.place = some record.place ∨
      (run acts).tracker.timersOf sessionId ≠ [] ∨ (run acts).tracker.isDisabled sessionId = true
  timer : ((run acts).tracker.timersOf sessionId).length ≤ 1
  cleared : (run (acts ++ [.clear sessionId])).tracker.timersOf sessionId = []
  burst : (run acts).tracker.isDisabled sessionId = true → Burst (times sessionId (run acts).reported)
  spared : (times sessionId (run acts).reported).Pairwise (fun earlier later => earlier + 50 < later) →
    (run acts).tracker.isDisabled sessionId = false

/-- The record is what was last reported, reaches the listeners, and only bursts shut a session down. -/
theorem tracker_converges (acts : List CwdAct) (timely : Timely (run acts).reported) (sessionId : Text) :
    Converges acts sessionId := by
  have tracked := tracked_run acts timely
  have viewed : ∀ record, (run acts).tracker.getRecord sessionId = some record →
      ∃ state, (run acts).tracker.view sessionId = some state ∧ state.record = record := by
    intro record found
    obtain ⟨ref, at_, same⟩ := Option.map_eq_some_iff.mp found
    exact ⟨_, CwdTracker.view_of_get? at_, same⟩
  have burst : (run acts).tracker.isDisabled sessionId = true → Burst (times sessionId (run acts).reported) := by
    intro shut
    rw [isDisabled_eq] at shut
    cases found : (run acts).tracker.view sessionId with
    | none =>
      rw [found] at shut
      cases shut
    | some state =>
      rw [found] at shut
      exact tracked.burst found shut
  refine ⟨?_, ?_, timersOf_le_one tracked.sound sessionId, ?_, burst, ?_⟩
  · rw [← tracked.record, CwdTracker.getRecord, CwdTracker.view, Option.map_map, Option.map_map]
    rfl
  · intro keeps record found
    obtain ⟨state, held, rfl⟩ := viewed record found
    obtain pending | delivered := settled_run acts timely keeps sessionId state held
    · right
      left
      intro none_
      rw [pendingFlush_of_timersOf tracked.sound held none_] at pending
      cases pending
    · exact .inl delivered
  · rw [run_append]
    exact timersOf_clear tracked.sound sessionId
  · intro apart
    exact Bool.eq_false_iff.mpr fun shut => not_burst_of_apart apart (burst shut)

def shellReport (cwd : Text) (updatedAt : Int) : CwdAct :=
  .report { sessionId := ['s'], serverId := ['h'], cwd, source := .osc7, authority := [], updatedAt }

theorem tracker_converges_deferred :
    let acts := [shellReport ['/'] 0, shellReport ['/', 'b'] 10, .flush 0, .reenable ['s']]
    Converges acts ['s'] ∧ ((run acts).tracker.getRecord ['s']).map CwdRecord.place = some (['/', 'b'], []) :=
  ⟨tracker_converges _ (show List.Pairwise _ _ by decide) ['s'], by decide⟩

/-- A shell that reports every 50 ms is shut down at the sixty-first report. -/
theorem steady_shut_down : ¬∀ acts, Timely (run acts).reported → ∀ sessionId,
    (times sessionId (run acts).reported).Pairwise (fun earlier later => earlier + 50 ≤ later) →
      (run acts).tracker.isDisabled sessionId = false := by
  intro always
  have spared := always ((List.range 61).map fun k => shellReport ['/'] (50 * k))
    (show List.Pairwise _ _ by decide) ['s'] (by decide)
  exact absurd spared (by decide +kernel)

end Watched

end NexTerminal.Cwd
