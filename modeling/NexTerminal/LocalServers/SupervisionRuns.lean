import NexTerminal.LocalServers.SupervisionSteps

namespace NexTerminal.LocalServers.LocalServerManager

open Library

variable {s next : LocalServerManager} {configId : String} {ws : Workspace} {sessionId : Nat}
  {entry : InternalRunningEntry}

def closed (s : LocalServerManager) (sessionId : Nat) (sessions : SeqMap Nat ActiveLocalServerSession)
    (diagnostics : List String) : LocalServerManager :=
  { s with
    entries := s.entries.erase sessionId
    terminals := s.terminals.erase sessionId
    sessions := sessions
    diagnostics := diagnostics }

theorem writeExitStatus_same (s : LocalServerManager) (sessionId : Nat) (cfg : LocalServerConfig)
    (stopping givingUp : Bool) :
    ∃ sessions diagnostics, s.writeExitStatus sessionId cfg stopping givingUp =
      { s with sessions := sessions, diagnostics := diagnostics } := by
  unfold writeExitStatus
  split
  · rw [giveUp, updateLocalServerSessionStatus, updateSession_same]
    exact ⟨_, _, rfl⟩
  · split
    · rw [updateLocalServerSessionStatus, updateSession_same]
      exact ⟨_, _, rfl⟩
    · exact ⟨_, _, rfl⟩

theorem handleExit_found (hit : s.entries.get? sessionId = some entry) (ws : Workspace) (code : Option Int) :
    ∃ sessions diagnostics, s.handleExit ws sessionId code =
      let tuning := readTuning ws.cfg
      let closed := s.closed sessionId sessions diagnostics
      if entry.staysDown tuning || decide (maxRestarts entry.config tuning ≤ s.attempts entry.config.id) then
        closed.deleteAttempts entry.config.id
      else closed.scheduleRestart entry.config tuning := by
  obtain ⟨rows, coded⟩ : ∃ rows, s.setLocalServerLastExitCode sessionId code = { s with sessions := rows } :=
    ⟨_, updateSession_same _ _⟩
  obtain ⟨sessions, diagnostics, shown⟩ := writeExitStatus_same { s with sessions := rows } sessionId entry.config
    (entry.staysDown (readTuning ws.cfg)) (!entry.staysDown (readTuning ws.cfg) &&
      decide (maxRestarts entry.config (readTuning ws.cfg) ≤ s.attempts entry.config.id))
  have counted : attempts { s with sessions := rows } entry.config.id = s.attempts entry.config.id := rfl
  refine ⟨sessions.erase sessionId, diagnostics, ?_⟩
  unfold handleExit
  simp only [hit, coded]
  rw [counted, shown]
  generalize decide (maxRestarts entry.config (readTuning ws.cfg) ≤ s.attempts entry.config.id) = enough
  cases entry.staysDown (readTuning ws.cfg) <;> cases enough <;> rfl

theorem live_closed {sessions : SeqMap Nat ActiveLocalServerSession} {diagnostics : List String}
    {other : Nat} (live : (s.closed sessionId sessions diagnostics).Live configId other) :
    other ≠ sessionId ∧ s.Live configId other := by
  obtain ⟨kept, hit, running, own⟩ := live
  simp only [closed, SeqMap.get?_erase] at hit
  split at hit
  · cases hit
  · rename_i differ
    exact ⟨Ne.symm differ, kept, hit, running, own⟩

theorem Sound.closed (inv : s.Sound) (sessionId : Nat) (sessions : SeqMap Nat ActiveLocalServerSession)
    (diagnostics : List String) : (s.closed sessionId sessions diagnostics).Sound := by
  refine ⟨⟨fun other kept hit => ?_, inv.wired.timers, fun ended => ?_, inv.wired.marked⟩, fun other => ?_,
    inv.heeded⟩
  · simp only [LocalServerManager.closed, SeqMap.get?_erase] at hit ⊢
    split at hit
    · cases hit
    · rename_i differ
      rw [if_neg differ]
      exact inv.wired.sessions other kept hit
  · obtain ⟨none, still⟩ := inv.wired.ended ended
    refine ⟨fun other => ?_, still⟩
    simp [LocalServerManager.closed, SeqMap.get?_erase, none]
  · exact (inv.account other).follow
      ⟨⟨fun _ live => (live_closed live).2, fun _ _ awaits => awaits, rfl, rfl⟩, rfl, fun known => known⟩

theorem Sound.due_closed (inv : s.Sound) (live : s.Live configId sessionId)
    (sessions : SeqMap Nat ActiveLocalServerSession) (diagnostics : List String) :
    (s.closed sessionId sessions diagnostics).Due configId where
  idle.live other atOther := by
    obtain ⟨differ, pre⟩ := live_closed atOther
    exact differ ((inv.account configId).sole other sessionId pre live)
  idle.awaits timer backoff awaits := (inv.account configId).apart sessionId timer backoff live awaits
  counted := (inv.account configId).running sessionId live
  wanted rests known := ((inv.account configId).resting rests known).live sessionId live
  undisposed := by
    rw [← Bool.not_eq_true]
    intro ended
    obtain ⟨entry, hit, -⟩ := live
    rw [(inv.wired.ended ended).1] at hit
    cases hit

theorem Sound.scheduleRestart (inv : s.Sound) {cfg : LocalServerConfig} {tuning : LocalServerTuning}
    (due : s.Due cfg.id) (room : (s.attempts cfg.id + 1 : ℚ) ≤ maxRestarts cfg tuning) :
    (s.scheduleRestart cfg tuning).Sound := by
  have awaits : ∀ (other : String) (timer : Nat) (backoff : Backoff),
      (s.scheduleRestart cfg tuning).Awaits other timer backoff →
      (timer = s.nextTimer ∧ cfg.id = other ∧ backoff.limit = maxRestarts cfg tuning) ∨
        s.Awaits other timer backoff := by
    rintro other timer backoff ⟨hit, own⟩
    simp only [LocalServerManager.scheduleRestart, SeqMap.get?_set] at hit
    split at hit
    · rename_i same
      cases hit
      exact .inl ⟨same.symm, own, rfl⟩
    · exact .inr ⟨hit, own⟩
  have attempts : ∀ other, (s.scheduleRestart cfg tuning).attempts other =
      if cfg.id = other then s.attempts cfg.id + 1 else s.attempts other := by
    intro other
    simp only [LocalServerManager.attempts, LocalServerManager.scheduleRestart, SeqMap.get?_set]
    split <;> rfl
  refine ⟨⟨inv.wired.sessions, fun timer backoff hit => ?_, fun ended => ?_, inv.wired.marked⟩,
    fun other => ?_, inv.heeded⟩
  · have own := awaits backoff.config.id timer backoff ⟨hit, rfl⟩
    simp only [LocalServerManager.scheduleRestart, SeqMap.get?_set]
    obtain ⟨rfl, same, limit⟩ | before := own
    · refine ⟨Nat.lt_succ_self _, by rw [if_pos same], ?_⟩
      rw [limit]
      exact min_le_left _ _
    · obtain ⟨older, held, few⟩ := inv.wired.timers timer backoff before.1
      refine ⟨Nat.lt_succ_of_lt older, ?_, few⟩
      rw [if_neg fun same => due.idle.awaits timer backoff ⟨before.1, same.symm⟩]
      exact held
  · exact absurd (due.undisposed.symm.trans ended) Bool.false_ne_true
  · by_cases own : cfg.id = other
    · subst own
      have only : ∀ (timer : Nat) (backoff : Backoff),
          (s.scheduleRestart cfg tuning).Awaits cfg.id timer backoff →
          backoff.limit = maxRestarts cfg tuning := by
        intro timer backoff waits
        exact (awaits _ timer backoff waits).elim (fun here => here.2.2)
          fun before => absurd before (due.idle.awaits timer backoff)
      refine ⟨fun one _ atOne => absurd atOne (due.idle.live one),
        fun one _ _ atOne => absurd atOne (due.idle.live one),
        fun one atOne => absurd atOne (due.idle.live one), fun timer backoff waits => ?_,
        fun rests known => absurd known (due.wanted rests)⟩
      rw [attempts, if_pos rfl, only timer backoff waits]
      exact ⟨Nat.succ_le_succ due.counted, by push_cast; exact room⟩
    · refine (inv.account other).follow ⟨⟨fun _ live => live, fun timer backoff waits => ?_, ?_, rfl⟩, rfl,
        fun known => known⟩
      · exact (awaits other timer backoff waits).resolve_left fun here => own here.2.1
      · rw [attempts, if_neg own]

/-- A stopped session's exit while its config's crashes are counted, or a restart in the last fraction of the limit.
-/
def exitSlips (s : LocalServerManager) (ws : Workspace) (entry : InternalRunningEntry) : Bool :=
  if entry.stopping then s.counting entry.config.id
  else
    !entry.staysDown (readTuning ws.cfg) &&
      decide ((s.attempts entry.config.id : ℚ) < maxRestarts entry.config (readTuning ws.cfg)) &&
      decide (maxRestarts entry.config (readTuning ws.cfg) < s.attempts entry.config.id + 1)

theorem Sound.handleExit (inv : s.Sound) (hit : s.entries.get? sessionId = some entry)
    (kept : s.exitSlips ws entry = false) (code : Option Int) : (s.handleExit ws sessionId code).Sound := by
  obtain ⟨sessions, diagnostics, exited⟩ := handleExit_found hit ws code
  have gone := inv.closed sessionId sessions diagnostics
  rw [exited]
  dsimp only
  unfold exitSlips at kept
  cases stopping : entry.stopping with
  | true =>
    have stays : entry.staysDown (readTuning ws.cfg) = true := by
      have user := (inv.wired.sessions sessionId entry hit).2.2.trans stopping
      simp [InternalRunningEntry.staysDown, user]
    rw [stays, Bool.true_or, if_pos rfl]
    rw [stopping, if_pos rfl, counting, Bool.and_eq_false_iff, Bool.or_eq_false_iff, hasLive_eq_false] at kept
    refine gone.deleteAttempts ?_
    rw [counting, Bool.and_eq_false_iff, Bool.or_eq_false_iff, hasLive_eq_false]
    exact kept.imp_right fun ends => ⟨fun other atOther => ends.1 other (live_closed atOther).2, ends.2⟩
  | false =>
    have live : s.Live entry.config.id sessionId := ⟨entry, hit, stopping, rfl⟩
    have due := inv.due_closed live sessions diagnostics
    split
    · refine gone.deleteAttempts ?_
      rw [counting, hasLive_eq_false.mpr due.idle.live, hasBackoff_eq_false.mpr due.idle.awaits]
      exact Bool.and_false _
    · rename_i comes
      rw [Bool.or_eq_true, decide_eq_true_eq, not_or, Bool.not_eq_true, not_le] at comes
      obtain ⟨stays, few⟩ := comes
      simp only [stopping, Bool.false_eq_true, if_false, stays, Bool.not_false, Bool.true_and, few, decide_true,
        decide_eq_false_iff_not, not_lt] at kept
      exact gone.scheduleRestart due kept

def popBackoff (s : LocalServerManager) (timer : Nat) (configId : String) : LocalServerManager :=
  { s with backoffs := s.backoffs.erase timer, restartTimers := s.restartTimers.erase configId }

variable {backoff : Backoff}

theorem awaits_popBackoff {timer one : Nat} (awaits : (s.popBackoff timer configId).Awaits configId one backoff) :
    one ≠ timer ∧ s.Awaits configId one backoff := by
  obtain ⟨hit, own⟩ := awaits
  simp only [popBackoff, SeqMap.get?_erase] at hit
  split at hit
  · cases hit
  · rename_i differ
    exact ⟨Ne.symm differ, hit, own⟩

section

variable (inv : s.Sound)
include inv

theorem Sound.popBackoff {timer : Nat} (hit : s.backoffs.get? timer = some backoff) :
    (s.popBackoff timer backoff.config.id).Sound := by
  refine ⟨⟨inv.wired.sessions, fun one other atOne => ?_, fun ended => ?_, inv.wired.marked⟩, fun other => ?_,
    inv.heeded⟩
  · simp only [LocalServerManager.popBackoff, SeqMap.get?_erase] at atOne ⊢
    split at atOne
    · cases atOne
    · rename_i differ
      obtain ⟨older, held, few⟩ := inv.wired.timers one other atOne
      refine ⟨older, ?_, few⟩
      rw [if_neg]
      · exact held
      · intro same
        exact differ (inv.wired.awaits_sole ⟨hit, rfl⟩ ⟨atOne, same.symm⟩)
  · obtain ⟨none, still⟩ := inv.wired.ended ended
    refine ⟨none, fun one => ?_⟩
    simp [LocalServerManager.popBackoff, SeqMap.get?_erase, still]
  · refine (inv.account other).follow ⟨⟨fun _ live => live, ?_, rfl, rfl⟩, rfl, fun known => known⟩
    rintro one kept ⟨atOne, own⟩
    simp only [LocalServerManager.popBackoff, SeqMap.get?_erase] at atOne
    split at atOne
    · cases atOne
    · exact ⟨atOne, own⟩

theorem Sound.due_popBackoff {timer : Nat} (awaits : s.Awaits configId timer backoff) :
    (s.popBackoff timer configId).Due configId where
  idle.live sessionId live := (inv.account configId).apart sessionId timer backoff live awaits
  idle.awaits one other atOne := by
    obtain ⟨differ, pre⟩ := awaits_popBackoff atOne
    exact differ (inv.wired.awaits_sole pre awaits)
  counted := Nat.le_of_succ_le ((inv.account configId).waiting timer backoff awaits).1
  wanted rests known := ((inv.account configId).resting rests known).awaits timer backoff awaits
  undisposed := by
    rw [← Bool.not_eq_true]
    intro ended
    have hit := awaits.1
    rw [(inv.wired.ended ended).2] at hit
    cases hit

theorem Sound.restarted {limit : ℚ} (awake : ∀ timer backoff, ¬ s.Awaits configId timer backoff)
    (counted : streak configId s.seen + 1 ≤ s.attempts configId) (few : (s.attempts configId : ℚ) ≤ limit)
    (ceiling : limit ≤ localServerRestartCeiling) (wanted : halted configId s.seen = false) :
    Sound { s with seen := .restarted configId limit :: s.seen } := by
  refine ⟨⟨inv.wired.sessions, inv.wired.timers, inv.wired.ended, fun marked => ?_⟩, fun other => ?_, ?_⟩
  · exact inv.wired.marked ((List.mem_cons.mp marked).resolve_left (by simp))
  · by_cases own : configId = other
    · subst own
      refine ⟨(inv.account configId).sole, (inv.account configId).apart, fun _ _ => ?_,
        fun timer backoff awaits => absurd awaits (awake timer backoff), fun rests _ => ?_⟩
      · simp only [streak]
        exact counted
      · exact absurd (wanted.symm.trans rests) Bool.false_ne_true
    · have ne : Event.about (.restarted configId limit) ≠ some other := by simpa [Event.about] using own
      exact (inv.account other).follow ⟨⟨fun _ live => live, fun _ _ awaits => awaits, rfl,
        streak_other ne s.seen⟩, halted_other ne s.seen, fun known => known⟩
  · refine inv.heeded.cons ?_ (by simp)
    rintro _ _ ⟨⟩
    refine ⟨⟨le_trans ?_ few, ceiling⟩, wanted⟩
    exact_mod_cast counted

theorem Sound.backoffFired (ws : Workspace) (timer : Nat) : (s.backoffFired ws timer).Sound := by
  unfold LocalServerManager.backoffFired
  split
  · exact inv
  · rename_i backoff hit
    have waits : s.Awaits backoff.config.id timer backoff := ⟨hit, rfl⟩
    have popped := inv.popBackoff hit
    have due := inv.due_popBackoff waits
    obtain ⟨counted, few⟩ := (inv.account _).waiting timer backoff waits
    have ceiling := (inv.wired.timers timer backoff hit).2.2
    change ((s.popBackoff timer backoff.config.id).retryStart ws backoff).Sound
    unfold retryStart
    rw [due.undisposed, if_neg Bool.false_ne_true]
    split
    · refine popped.deleteAttempts ?_
      rw [counting, hasLive_eq_false.mpr due.idle.live, hasBackoff_eq_false.mpr due.idle.awaits]
      exact Bool.and_false _
    · rename_i known
      split
      · rename_i next sessionId started
        unfold LocalServerManager.start at started
        split at started
        · cases started
        · dsimp only at started
          split at started
          · cases started
          · split at started
            · cases started
            · cases started
              refine (popped.launch due).restarted due.idle.awaits counted few ceiling ?_
              rw [← Bool.not_eq_true]
              exact fun rests => known fun mem => due.wanted rests mem
      · rename_i next error started
        have unchanged : next = s.popBackoff timer backoff.config.id := by
          unfold LocalServerManager.start at started
          split at started
          · cases started
            rfl
          · dsimp only at started
            split at started
            · cases started
              rfl
            · split at started
              · cases started
                rfl
              · cases started
        subst unchanged
        exact popped.same rfl

theorem Sound.updateSession (sessionId : Nat) (change : ActiveLocalServerSession → ActiveLocalServerSession) :
    (s.updateSession sessionId change).Sound := by
  unfold LocalServerManager.updateSession
  split
  · exact inv
  · exact inv.same rfl

theorem Sound.setEntry {changed : InternalRunningEntry} (hit : s.entries.get? sessionId = some entry)
    (cfg : changed.config = entry.config) (stopping : changed.stopping = entry.stopping)
    (user : changed.userInitiatedStop = entry.userInitiatedStop) :
    Sound { s with entries := s.entries.set sessionId changed } := by
  refine ⟨⟨fun other kept atOther => ?_, inv.wired.timers, fun ended => ?_, inv.wired.marked⟩, fun other => ?_,
    inv.heeded⟩
  · simp only [SeqMap.get?_set] at atOther
    split at atOther
    · rename_i same
      cases atOther
      subst same
      rw [cfg, stopping, user]
      exact inv.wired.sessions sessionId entry hit
    · exact inv.wired.sessions other kept atOther
  · rw [(inv.wired.ended ended).1] at hit
    cases hit
  · refine (inv.account other).follow ⟨⟨?_, fun _ _ awaits => awaits, rfl, rfl⟩, rfl, fun known => known⟩
    rintro one ⟨kept, atOne, running, own⟩
    simp only [SeqMap.get?_set] at atOne
    split at atOne
    · rename_i same
      cases atOne
      subst same
      exact ⟨entry, hit, stopping ▸ running, cfg ▸ own⟩
    · exact ⟨kept, atOne, running, own⟩

theorem Sound.startupComplete (sessionId : Nat) : (s.startupComplete sessionId).Sound := by
  unfold LocalServerManager.startupComplete
  split
  · exact inv
  · rename_i entry hit
    split
    · exact inv
    · split
      · exact inv.setEntry hit rfl rfl rfl
      · refine Sound.updateSession ?_ sessionId _
        exact inv.setEntry hit rfl rfl rfl

theorem Sound.stable (awake : ∀ timer backoff, ¬ s.Awaits configId timer backoff) :
    Sound { s.deleteAttempts configId with seen := .stable configId :: s.seen } := by
  refine ⟨⟨inv.wired.sessions, inv.wired.timers, inv.wired.ended, fun marked => ?_⟩, fun other => ?_,
    inv.heeded.cons nofun nofun⟩
  · exact inv.wired.marked ((List.mem_cons.mp marked).resolve_left nofun)
  · by_cases own : configId = other
    · subst own
      refine ⟨(inv.account configId).sole, (inv.account configId).apart, fun _ _ => ?_,
        fun timer backoff awaits => absurd awaits (awake timer backoff), fun rests known => ?_⟩
      · simp only [streak]
        exact Nat.zero_le _
      · have idle := (inv.account configId).resting rests known
        exact ⟨idle.live, idle.awaits⟩
    · have ne : Event.about (.stable configId) ≠ some other := by simpa [Event.about] using own
      refine (inv.account other).follow ⟨⟨fun _ live => live, fun _ _ awaits => awaits, ?_,
        streak_other ne s.seen⟩, halted_other ne s.seen, fun known => known⟩
      exact (s.attempts_deleteAttempts configId other).trans (if_neg own)

theorem Sound.stableFired
    (kept : ∀ entry, s.entries.get? sessionId = some entry → entry.stableTimer = true → entry.stopping = true →
      s.hasBackoff entry.config.id = false) : (s.stableFired sessionId).Sound := by
  unfold LocalServerManager.stableFired
  split
  · exact inv
  · rename_i entry hit
    split
    · rename_i armed
      have awake : ∀ timer backoff, ¬ s.Awaits entry.config.id timer backoff := by
        intro timer backoff awaits
        cases stopping : entry.stopping with
        | true => exact hasBackoff_eq_false.mp (kept entry hit armed stopping) timer backoff awaits
        | false => exact (inv.account _).apart sessionId timer backoff ⟨entry, hit, stopping, rfl⟩ awaits
      have quiet : Sound { s with entries := s.entries.set sessionId { entry with stableTimer := false } } :=
        inv.setEntry hit rfl rfl rfl
      have counted := quiet.stable awake
      refine counted.same ?_
      rw [resetLocalServerRestartAttempts, updateSession_same]
      rfl
    · exact inv

theorem Sound.remove (configId : String) : (s.removeLocalServerConfig configId).Sound := by
  refine ⟨⟨inv.wired.sessions, inv.wired.timers, inv.wired.ended, fun marked => ?_⟩, fun other => ?_,
    inv.heeded.cons nofun nofun⟩
  · exact inv.wired.marked ((List.mem_cons.mp marked).resolve_left nofun)
  · refine (inv.account other).carry ⟨fun _ live => live, fun _ _ awaits => awaits, rfl, rfl⟩ fun rests known => ?_
    obtain ⟨pre, differ⟩ := List.mem_filter.mp known
    have ne : Event.about (.removed configId) ≠ some other := fun same =>
      of_decide_eq_true differ (Option.some.inj same).symm
    have idle := (inv.account other).resting ((halted_other ne s.seen).symm.trans rests) pre
    exact ⟨idle.live, idle.awaits⟩

end

theorem get?_foldl_erase_timers (timers : List Nat) (running : SeqMap Nat Backoff) (timer : Nat) :
    (timers.foldl (fun running timer => running.erase timer) running).get? timer =
      if timer ∈ timers then none else running.get? timer := by
  have erased := SeqMap.get?_foldl_erase (fun timer => timer) running timers timer
  rwa [List.map_id''] at erased
  exact fun _ => rfl

theorem Sound.dispose (inv : s.Sound) : s.dispose.Sound := by
  unfold LocalServerManager.dispose
  split
  · exact inv
  · obtain ⟨entries, sessions, seen, shape⟩ :=
      stopEach_same { s with disposed := true } false s.entries.keys
    have quiet : seen = s.seen := by
      have told := stopEach_unasked (s := { s with disposed := true }) s.entries.keys
      rw [shape] at told
      exact told
    subst quiet
    rw [shape]
    have still : ∀ timer, (s.restartTimers.values.foldl (fun running timer => running.erase timer)
        s.backoffs).get? timer = none := by
      intro timer
      rw [get?_foldl_erase_timers]
      cases hit : s.backoffs.get? timer with
      | none => exact ite_self _
      | some backoff =>
        have held := (inv.wired.timers timer backoff hit).2.1
        rw [if_pos (SeqMap.mem_values.mpr ⟨_, held⟩)]
    refine ⟨⟨nofun, fun timer backoff hit => ?_, fun _ => ⟨fun _ => rfl, still⟩, fun _ => rfl⟩,
      fun other => ?_, inv.heeded.cons nofun nofun⟩
    · cases (still timer).symm.trans hit
    · refine Idle.account ⟨nofun, ?_⟩
      rintro timer backoff ⟨hit, -⟩
      cases (still timer).symm.trans hit

theorem Sound.restart (inv : s.Sound) {cfg : LocalServerConfig}
    (allowed : s.disposed = true → ws.isTrusted = true → ws.launchError cfg ≠ none) :
    (s.restart ws cfg).Sound := by
  unfold LocalServerManager.restart
  split
  · rename_i existing active
    have shown : (s.updateLocalServerSessionStatus existing .restarting).Sound := inv.updateSession existing _
    exact (shown.stop existing).same rfl
  · exact inv.start ws cfg allowed

end NexTerminal.LocalServers.LocalServerManager

namespace NexTerminal.LocalServers

open Library

namespace LocalServerManager

variable {s : LocalServerManager}

/-- The promises of the manager in one state, its log included. -/
structure Supervised (s : LocalServerManager) : Prop where
  /-- At most one session of a config that is not stopping. -/
  sole : ∀ configId one other, s.Live configId one → s.Live configId other → one = other
  /-- No more automatic restarts in a row than the limit; and none once the user has
  stopped or removed the config, and nothing started after disposal. -/
  heeded : Heeded s.seen
  timer : ∀ configId one other a b, s.Awaits configId one a → s.Awaits configId other b → one = other
  still : s.disposed = true → ∀ timer, s.backoffs.get? timer = none

theorem Sound.supervised (inv : s.Sound) : s.Supervised where
  sole configId := (inv.account configId).sole
  heeded := inv.heeded
  timer _ _ _ _ _ := inv.wired.awaits_sole
  still ended := (inv.wired.ended ended).2

def slips (s : LocalServerManager) : Act → Bool
  /- A start after disposal. -/
  | .start ws config | .restart ws config =>
    s.disposed && ws.isTrusted && (ws.launchError config).isNone
  | .resume ws =>
    match s.continuations with
    | [] => false
    | .start config :: _ => s.disposed && ws.isTrusted && (ws.launchError config).isNone
    | .retryFailed config _ :: _ => s.counting config.id
  /- A stop that finds a backoff timer, of which it knows nothing. -/
  | .stopConfig configId => s.hasBackoff configId && decide (configId ∈ s.servers)
  | .exit ws sessionId _ =>
    match s.entries.get? sessionId with
    | none => false
    | some entry => s.exitSlips ws entry
  | .grace ws sessionId =>
    match s.entries.get? sessionId with
    | none => false
    | some entry => entry.stopGraceTimer && s.exitSlips ws entry
  /- A stopping session's stable run, which clears the count of a server that crashed. -/
  | .stable sessionId =>
    match s.entries.get? sessionId with
    | none => false
    | some entry => entry.stableTimer && entry.stopping && s.hasBackoff entry.config.id
  | .stop _ | .startupComplete _ | .backoff _ _ | .remove _ | .dispose => false

theorem allowed_of_kept {ws : Workspace} {cfg : LocalServerConfig}
    (kept : (s.disposed && ws.isTrusted && (ws.launchError cfg).isNone) = false) (ended : s.disposed = true)
    (trusted : ws.isTrusted = true) : ws.launchError cfg ≠ none := by
  rw [ended, trusted, Bool.true_and, Bool.true_and, Option.isNone_eq_false_iff] at kept
  exact Option.isSome_iff_ne_none.mp kept

theorem Sound.step (inv : s.Sound) {act : Act} (kept : s.slips act = false) : (s.step act).Sound := by
  cases act with
  | start ws cfg => exact inv.start ws cfg (allowed_of_kept kept)
  | stop sessionId => exact inv.stop sessionId
  | stopConfig configId =>
    refine inv.stopConfig fun pending known => ?_
    simp [slips, pending, known] at kept
  | restart ws cfg => exact inv.restart (allowed_of_kept kept)
  | resume ws =>
    simp only [LocalServerManager.step, resume]
    simp only [slips] at kept
    split
    · exact inv
    · rename_i cfg rest waiting
      rw [waiting] at kept
      have popped : Sound { s with continuations := rest } := inv.same rfl
      exact popped.start ws cfg (allowed_of_kept kept)
    · rename_i cfg msg rest waiting
      rw [waiting] at kept
      have popped : Sound (diagnose { s with continuations := rest }
          ("[Local Server retry " ++ cfg.name ++ "] " ++ msg)) := inv.same rfl
      exact popped.deleteAttempts kept
  | exit ws sessionId code =>
    simp only [slips] at kept
    simp only [LocalServerManager.step]
    cases hit : s.entries.get? sessionId with
    | none =>
      unfold LocalServerManager.handleExit
      rw [hit]
      exact inv
    | some entry =>
      rw [hit] at kept
      exact inv.handleExit hit kept code
  | startupComplete sessionId => exact inv.startupComplete sessionId
  | stable sessionId =>
    refine inv.stableFired fun entry hit armed stopping => ?_
    simpa [slips, hit, armed, stopping] using kept
  | grace ws sessionId =>
    simp only [slips] at kept
    simp only [LocalServerManager.step, graceFired]
    cases hit : s.entries.get? sessionId with
    | none => exact inv
    | some entry =>
      rw [hit] at kept
      dsimp only at kept ⊢
      split
      · rename_i armed
        rw [armed, Bool.true_and] at kept
        exact inv.handleExit hit kept none
      · exact inv
  | backoff ws timer => exact inv.backoffFired ws timer
  | remove configId => exact inv.remove configId
  | dispose => exact inv.dispose

theorem Sound.init (servers : List String) : Sound { servers := servers } where
  wired := ⟨nofun, nofun, nofun, nofun⟩
  account _ := Idle.account ⟨nofun, nofun⟩
  heeded := ⟨fun _ _ _ within => absurd (List.suffix_nil.mp within) nofun,
    fun _ _ _ within => absurd (List.suffix_nil.mp within) nofun,
    fun _ _ within => absurd (List.suffix_nil.mp within) nofun⟩

def Keeps (servers : List String) (acts : List Act) : Prop :=
  ∀ before act after, acts = before ++ act :: after → (run servers before).slips act = false

theorem run_append (servers : List String) (acts : List Act) (act : Act) :
    run servers (acts ++ [act]) = (run servers acts).step act := by
  rw [run, run, List.foldl_append, List.foldl_cons, List.foldl_nil]

variable {servers : List String}

theorem Sound.run {acts : List Act} (kept : Keeps servers acts) : (run servers acts).Sound := by
  induction acts using List.reverseRecOn with
  | nil => exact Sound.init servers
  | append_singleton acts act ih =>
    rw [run_append]
    refine (ih fun pre other after split => ?_).step (kept acts act [] rfl)
    exact kept pre other (after ++ [act]) (by rw [split, List.append_assoc, List.cons_append])

theorem Keeps.take {before after : List Act} (kept : Keeps servers (before ++ after)) : Keeps servers before :=
  fun first act last split => kept first act (last ++ after) (by rw [split, List.append_assoc, List.cons_append])

theorem keeps_of_each {acts : List Act}
    (each : ∀ k : Fin acts.length, (run servers (acts.take k)).slips (acts.get k) = false) : Keeps servers acts := by
  intro pre act after split
  subst split
  have here := each ⟨pre.length, by simp⟩
  simpa using here

end LocalServerManager

open LocalServerManager

def web : LocalServerConfig where
  id := "web"
  name := "Web"
  autoRestart := true
  maxAutoRestarts := none

def ordinaryRun : List Act := [.start {} web, .exit {} 0 (some 1), .backoff {} 0, .stop 1, .grace {} 1]

/-- The server crashes, the user stops it, and the backoff timer that waits starts it again. -/
def stoppedInBackoff : List Act := [.start {} web, .exit {} 0 (some 1), .stopConfig "web", .backoff {} 0]

/-- A stopped session goes by its grace timer after the new one's crash: with one restart
allowed there are two in a row. -/
def staleExit : List Act :=
  let once := { web with maxAutoRestarts := some 1 }
  [.start {} once, .stop 0, .start {} once, .exit {} 1 (some 1), .backoff {} 0, .grace {} 0, .exit {} 2 (some 1),
    .backoff {} 1]

def halfLimit : List Act :=
  let half : Workspace := { cfg := { defaultMaxAutoRestarts := 1 / 2 } }
  [.start half web, .exit half 0 (some 1), .backoff half 0]

def restartAcrossDispose : List Act := [.start {} web, .restart {} web, .dispose, .resume {}]

end NexTerminal.LocalServers
