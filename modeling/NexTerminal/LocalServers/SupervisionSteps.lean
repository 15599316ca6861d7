import Mathlib.Data.List.Infix
import Mathlib.Tactic.Push
import NexTerminal.LocalServers.LocalServerManager

namespace NexTerminal.LocalServers.LocalServerManager

open Library

variable {s next : LocalServerManager} {configId : String}

def hasLive (s : LocalServerManager) (configId : String) : Bool :=
  s.entries.values.any fun entry => !entry.stopping && entry.config.id == configId

def hasBackoff (s : LocalServerManager) (configId : String) : Bool :=
  s.backoffs.values.any fun backoff => backoff.config.id == configId

/-- Crashes are counted that something still running goes by. -/
def counting (s : LocalServerManager) (configId : String) : Bool :=
  (s.restartAttempts.get? configId).isSome && (s.hasLive configId || s.hasBackoff configId)

theorem hasLive_eq_false : s.hasLive configId = false ↔ ∀ sessionId, ¬ s.Live configId sessionId := by
  rw [hasLive, List.any_eq_false]
  constructor
  · rintro none sessionId ⟨entry, hit, running, own⟩
    have := none entry (SeqMap.mem_values.mpr ⟨sessionId, hit⟩)
    rw [running, own] at this
    simp at this
  · intro none entry held
    obtain ⟨sessionId, hit⟩ := SeqMap.mem_values.mp held
    intro live
    rw [Bool.and_eq_true, Bool.not_eq_true', beq_iff_eq] at live
    exact none sessionId ⟨entry, hit, live⟩

theorem hasBackoff_eq_false : s.hasBackoff configId = false ↔
    ∀ timer backoff, ¬ s.Awaits configId timer backoff := by
  rw [hasBackoff, List.any_eq_false]
  constructor
  · rintro none timer backoff ⟨hit, own⟩
    exact none backoff (SeqMap.mem_values.mpr ⟨timer, hit⟩) (beq_iff_eq.mpr own)
  · intro none backoff held own
    obtain ⟨timer, hit⟩ := SeqMap.mem_values.mp held
    exact none timer backoff ⟨hit, beq_iff_eq.mp own⟩

@[simp] theorem attempts_deleteAttempts (own other : String) :
    (s.deleteAttempts own).attempts other = if own = other then 0 else s.attempts other := by
  rw [attempts, deleteAttempts, SeqMap.get?_erase, attempts]
  split <;> rfl

theorem deleteAttempts_absent (absent : s.restartAttempts.get? configId = none) : s.deleteAttempts configId = s := by
  rw [deleteAttempts, SeqMap.erase_absent absent]

theorem Sound.deleteAttempts (inv : s.Sound) (quiet : s.counting configId = false) :
    (s.deleteAttempts configId).Sound := by
  rw [counting, Bool.and_eq_false_iff, Option.isSome_eq_false_iff, Option.isNone_iff_eq_none,
    Bool.or_eq_false_iff, hasLive_eq_false, hasBackoff_eq_false] at quiet
  obtain absent | ⟨live, awaits⟩ := quiet
  · rwa [deleteAttempts_absent absent]
  · refine ⟨{ inv.wired with }, fun other => ?_,
      inv.heeded⟩
    by_cases own : configId = other
    · subst own
      exact Idle.account ⟨live, awaits⟩
    · exact (inv.account other).follow ⟨⟨fun _ live => live, fun _ _ awaits => awaits,
        by rw [attempts_deleteAttempts, if_neg own], rfl⟩, rfl, fun known => known⟩

variable {sessionId : Nat}

theorem getActive_live (wired : s.Wired) (active : s.getActiveSessionIdForConfig configId = none) :
    ¬ s.Live configId sessionId := by
  rintro ⟨entry, hit, running, own⟩
  rw [getActiveSessionIdForConfig, Option.map_eq_none_iff, List.find?_eq_none] at active
  have terminal := (wired.sessions sessionId entry hit).2.1
  refine active (sessionId, configId) (SeqMap.mem_entries.mpr (own ▸ terminal)) ?_
  simp [isActive, hit, running]

theorem clearHistory_seen (configId : String) : (s.clearHistory configId).seen = .asked configId :: s.seen := rfl

theorem clearHistory_entries (configId : String) : (s.clearHistory configId).entries = s.entries := by
  unfold clearHistory cancelBackoff
  split <;> rfl

theorem clearHistory_attempts (configId other : String) :
    (s.clearHistory configId).attempts other = if configId = other then 0 else s.attempts other := by
  rw [← attempts_deleteAttempts]
  unfold clearHistory cancelBackoff
  split <;> rfl

theorem clearHistory_disposed (configId : String) : (s.clearHistory configId).disposed = s.disposed := by
  unfold clearHistory cancelBackoff
  split <;> rfl

theorem clearHistory_servers (configId : String) : (s.clearHistory configId).servers = s.servers := by
  unfold clearHistory cancelBackoff
  split <;> rfl

theorem clearHistory_backoffs (wired : s.Wired) {timer : Nat} {backoff : Backoff}
    (hit : (s.clearHistory configId).backoffs.get? timer = some backoff) :
    s.backoffs.get? timer = some backoff ∧ backoff.config.id ≠ configId := by
  unfold clearHistory cancelBackoff at hit
  split at hit
  · rename_i unset
    refine ⟨hit, fun own => ?_⟩
    have held := (wired.timers timer backoff hit).2.1
    rw [own] at held
    cases unset.symm.trans held
  · rename_i pending set
    rw [SeqMap.get?_erase] at hit
    split at hit
    · cases hit
    · rename_i other
      refine ⟨hit, fun own => other ?_⟩
      have held := (wired.timers timer backoff hit).2.1
      rw [own] at held
      exact Option.mem_unique set held

theorem Wired.clearHistory (wired : s.Wired) (configId : String) : (s.clearHistory configId).Wired := by
  refine ⟨?_, fun timer backoff hit => ?_, ?_, ?_⟩
  · rw [clearHistory_entries]
    have kept : (s.clearHistory configId).nextSession = s.nextSession ∧
        (s.clearHistory configId).terminals = s.terminals := by
      unfold LocalServerManager.clearHistory cancelBackoff
      split <;> exact ⟨rfl, rfl⟩
    rw [kept.1, kept.2]
    exact wired.sessions
  · obtain ⟨pre, ne⟩ := clearHistory_backoffs wired hit
    obtain ⟨older, held, few⟩ := wired.timers timer backoff pre
    unfold LocalServerManager.clearHistory cancelBackoff
    split
    · exact ⟨older, held, few⟩
    · refine ⟨older, ?_, few⟩
      rw [SeqMap.get?_erase, if_neg (Ne.symm ne)]
      exact held
  · intro ended
    rw [clearHistory_disposed] at ended
    obtain ⟨noEntry, noBackoff⟩ := wired.ended ended
    rw [clearHistory_entries]
    refine ⟨noEntry, fun timer => Option.eq_none_iff_forall_ne_some.mpr fun backoff hit => ?_⟩
    obtain ⟨pre, _⟩ := clearHistory_backoffs wired hit
    rw [noBackoff] at pre
    cases pre
  · rw [clearHistory_seen, clearHistory_disposed]
    intro marked
    exact wired.marked ((List.mem_cons.mp marked).resolve_left (by simp))

theorem Sound.clearHistory (inv : s.Sound) (configId : String) : (s.clearHistory configId).Sound := by
  refine ⟨inv.wired.clearHistory configId, fun other => ?_, ?_⟩
  · have live : ∀ sessionId, (s.clearHistory configId).Live other sessionId → s.Live other sessionId := by
      intro sessionId live
      unfold Live at live ⊢
      rwa [clearHistory_entries] at live
    by_cases own : configId = other
    · subst own
      have none : ∀ timer backoff, ¬ (s.clearHistory configId).Awaits configId timer backoff :=
        fun timer backoff awaits => (clearHistory_backoffs inv.wired awaits.1).2 awaits.2
      refine ⟨fun one other atOne atOther => (inv.account configId).sole one other (live one atOne)
        (live other atOther), fun _ timer backoff _ => none timer backoff, fun _ _ => ?_,
        fun timer backoff awaits => absurd awaits (none timer backoff), fun rests => ?_⟩
      · simp only [clearHistory_seen, streak]
        exact Nat.zero_le _
      · simp [clearHistory_seen, halted] at rests
    · have ne : Event.about (.asked configId) ≠ some other := by simpa [Event.about] using own
      refine (inv.account other).follow ⟨⟨live, fun timer backoff awaits =>
        ⟨(clearHistory_backoffs inv.wired awaits.1).1, awaits.2⟩, ?_, ?_⟩, ?_, ?_⟩
      · rw [clearHistory_attempts, if_neg own]
      · rw [clearHistory_seen, streak_other ne]
      · rw [clearHistory_seen, halted_other ne]
      · rw [clearHistory_servers]
        exact fun known => known
  · exact inv.heeded.cons (by simp) (by simp)

/-- What a start needs: nothing runs for the config, and it may. -/
structure Due (s : LocalServerManager) (configId : String) : Prop where
  idle : s.Idle configId
  counted : streak configId s.seen ≤ s.attempts configId
  wanted : halted configId s.seen = true → configId ∉ s.servers
  undisposed : s.disposed = false

theorem Wired.launch (wired : s.Wired) {cfg : LocalServerConfig} (undisposed : s.disposed = false) :
    (s.launch cfg).Wired := by
  refine ⟨fun sessionId entry hit => ?_, wired.timers, fun ended => ?_, fun marked => ?_⟩
  · simp only [LocalServerManager.launch, SeqMap.get?_set] at hit ⊢
    split at hit
    · rename_i own
      cases hit
      subst own
      exact ⟨Nat.lt_succ_self _, by rw [if_pos rfl], rfl⟩
    · rename_i ne
      obtain ⟨older, terminal, stops⟩ := wired.sessions sessionId entry hit
      exact ⟨Nat.lt_succ_of_lt older, by rw [if_neg ne]; exact terminal, stops⟩
  · exact absurd (undisposed.symm.trans ended) Bool.false_ne_true
  · exact wired.marked ((List.mem_cons.mp marked).resolve_left (by simp))

theorem Sound.launch (inv : s.Sound) {cfg : LocalServerConfig} (due : s.Due cfg.id) :
    (s.launch cfg).Sound := by
  have live : ∀ (other : String) (sessionId : Nat), (s.launch cfg).Live other sessionId →
      sessionId = s.nextSession ∧ cfg.id = other ∨ s.Live other sessionId := by
    rintro other sessionId ⟨entry, hit, running, own⟩
    simp only [LocalServerManager.launch, SeqMap.get?_set] at hit
    split at hit
    · rename_i same
      cases hit
      exact .inl ⟨same.symm, own⟩
    · exact .inr ⟨entry, hit, running, own⟩
  refine ⟨inv.wired.launch due.undisposed, fun other => ?_, ?_⟩
  · by_cases own : cfg.id = other
    · subst own
      have only : ∀ sessionId, (s.launch cfg).Live cfg.id sessionId → sessionId = s.nextSession := by
        intro sessionId atId
        exact (live cfg.id sessionId atId).elim And.left fun pre => absurd pre (due.idle.live sessionId)
      refine ⟨fun one other atOne atOther => (only one atOne).trans (only other atOther).symm,
        fun _ timer backoff _ => due.idle.awaits timer backoff, fun _ _ => due.counted,
        fun timer backoff awaits => absurd awaits (due.idle.awaits timer backoff), fun rests known => ?_⟩
      exact absurd known (due.wanted rests)
    · refine (inv.account other).follow ⟨⟨fun sessionId atId => ?_, fun _ _ awaits => awaits, rfl, rfl⟩,
        rfl, fun known => known⟩
      exact (live other sessionId atId).resolve_left fun here => own here.2
  · refine inv.heeded.cons (by simp) fun _ _ marked => ?_
    exact absurd (due.undisposed.symm.trans (inv.wired.marked marked)) Bool.false_ne_true

/-- A start as the user asks for it. -/
theorem Sound.start (inv : s.Sound) (ws : Workspace) (cfg : LocalServerConfig)
    (allowed : s.disposed = true → ws.isTrusted = true → ws.launchError cfg ≠ none) :
    (s.start ws cfg).1.Sound := by
  unfold LocalServerManager.start
  split
  · exact inv
  · rename_i trusted
    simp only [Bool.false_eq_true]
    have cleared := inv.clearHistory cfg.id
    split
    · exact cleared
    · rename_i active
      split
      · exact cleared
      · rename_i resolved
        refine cleared.launch ⟨⟨fun sessionId => getActive_live cleared.wired active,
          fun timer backoff awaits => (clearHistory_backoffs inv.wired awaits.1).2 awaits.2⟩, ?_, ?_, ?_⟩
        · simp only [clearHistory_seen, streak]
          exact Nat.zero_le _
        · intro rests
          simp [clearHistory_seen, halted] at rests
        · rw [clearHistory_disposed, ← Bool.not_eq_true]
          exact fun ended => allowed ended (by simpa using trusted) resolved

theorem beginStop_same (sessionId : Nat) (entry : InternalRunningEntry) (userInitiated : Bool) :
    s.beginStop sessionId entry userInitiated = { s with
      entries := (s.beginStop sessionId entry userInitiated).entries
      sessions := (s.beginStop sessionId entry userInitiated).sessions
      seen := if userInitiated then .stopAsked entry.config.id :: s.seen else s.seen } := by
  unfold beginStop
  rw [updateLocalServerSessionStatus, updateSession_same]

theorem beginStop_entries (sessionId : Nat) (entry : InternalRunningEntry) (userInitiated : Bool) :
    (s.beginStop sessionId entry userInitiated).entries = s.entries.set sessionId { entry.clearTimers with
      userInitiatedStop := userInitiated, stopping := true, stopGraceTimer := true } := by
  unfold beginStop
  rw [updateLocalServerSessionStatus, updateSession_same]

variable {userInitiated : Bool}

theorem live_beginStop {other : Nat} {entry : InternalRunningEntry}
    (live : (s.beginStop sessionId entry userInitiated).Live configId other) :
    other ≠ sessionId ∧ s.Live configId other := by
  obtain ⟨kept, hit, running, own⟩ := live
  rw [beginStop_entries, SeqMap.get?_set] at hit
  split at hit
  · cases hit
    cases running
  · rename_i differ
    exact ⟨Ne.symm differ, kept, hit, running, own⟩

theorem Sound.beginStop (inv : s.Sound) {entry : InternalRunningEntry} (hit : s.entries.get? sessionId = some entry)
    (running : entry.stopping = false) : (s.beginStop sessionId entry true).Sound := by
  have here : s.Live entry.config.id sessionId := ⟨entry, hit, running, rfl⟩
  have shape := s.beginStop_same sessionId entry true
  have seen : (s.beginStop sessionId entry true).seen = .stopAsked entry.config.id :: s.seen := by rw [shape]; rfl
  refine ⟨⟨fun other kept atOther => ?_, ?_, fun ended => ?_, fun marked => ?_⟩, fun other => ?_, ?_⟩
  · rw [beginStop_entries, SeqMap.get?_set] at atOther
    rw [shape]
    split at atOther
    · rename_i same
      cases atOther
      subst same
      obtain ⟨older, terminal, -⟩ := inv.wired.sessions sessionId entry hit
      exact ⟨older, terminal, rfl⟩
    · exact inv.wired.sessions other kept atOther
  · rw [shape]
    exact inv.wired.timers
  · rw [shape] at ended
    rw [(inv.wired.ended ended).1] at hit
    cases hit
  · rw [seen] at marked
    rw [shape]
    exact inv.wired.marked ((List.mem_cons.mp marked).resolve_left (by simp))
  · have attempts : (s.beginStop sessionId entry true).attempts other = s.attempts other := by
      rw [shape]
      rfl
    have awaits : ∀ timer backoff, (s.beginStop sessionId entry true).Awaits other timer backoff →
        s.Awaits other timer backoff := by
      rw [shape]
      exact fun _ _ awaits => awaits
    by_cases own : entry.config.id = other
    · subst own
      refine Idle.account ⟨fun one live => ?_, fun timer backoff waits => ?_⟩
      · obtain ⟨differ, pre⟩ := live_beginStop live
        exact differ ((inv.account _).sole one sessionId pre here)
      · exact (inv.account _).apart sessionId timer backoff here (awaits timer backoff waits)
    · have ne : Event.about (.stopAsked entry.config.id) ≠ some other := by simpa [Event.about] using own
      refine (inv.account other).follow ⟨⟨fun one live => (live_beginStop live).2, awaits,
        attempts, ?_⟩, ?_, ?_⟩
      · rw [seen, streak_other ne]
      · rw [seen, halted_other ne]
      · rw [shape]
        exact fun known => known
  · rw [seen]
    exact inv.heeded.cons (by simp) (by simp)

theorem stop_cases (s : LocalServerManager) (sessionId : Nat) (userInitiated : Bool) :
    ((s.stop sessionId userInitiated).1 = s ∧ ∀ configId, ¬ s.Live configId sessionId) ∨
      ∃ entry, s.entries.get? sessionId = some entry ∧ entry.stopping = false ∧
        (s.stop sessionId userInitiated).1 = s.beginStop sessionId entry userInitiated := by
  unfold stop
  cases hit : s.entries.get? sessionId with
  | none =>
    refine .inl ⟨rfl, ?_⟩
    rintro - ⟨entry, held, -⟩
    cases hit.symm.trans held
  | some entry =>
    cases stopping : entry.stopping with
    | true =>
      refine .inl ⟨by simp [stopping], ?_⟩
      rintro - ⟨other, held, running, -⟩
      cases Option.mem_unique hit held
      cases stopping.symm.trans running
    | false => exact .inr ⟨entry, rfl, stopping, by simp [stopping]⟩

theorem Sound.stop (inv : s.Sound) (sessionId : Nat) : (s.stop sessionId true).1.Sound := by
  obtain ⟨same, -⟩ | ⟨entry, hit, running, began⟩ := s.stop_cases sessionId true
  · rwa [same]
  · rw [began]
    exact inv.beginStop hit running

theorem live_stop {other : Nat} (live : (s.stop sessionId userInitiated).1.Live configId other) :
    other ≠ sessionId ∧ s.Live configId other := by
  obtain ⟨same, dead⟩ | ⟨entry, -, -, began⟩ := s.stop_cases sessionId userInitiated
  · rw [same] at live
    refine ⟨?_, live⟩
    rintro rfl
    exact dead configId live
  · rw [began] at live
    exact live_beginStop live

theorem stop_same (sessionId : Nat) (userInitiated : Bool) :
    (s.stop sessionId userInitiated).1 = { s with
      entries := (s.stop sessionId userInitiated).1.entries
      sessions := (s.stop sessionId userInitiated).1.sessions
      seen := (s.stop sessionId userInitiated).1.seen } := by
  obtain ⟨same, -⟩ | ⟨entry, -, -, began⟩ := s.stop_cases sessionId userInitiated
  · rw [same]
  · rw [began, beginStop_same]

theorem stop_unasked (sessionId : Nat) : (s.stop sessionId false).1.seen = s.seen := by
  obtain ⟨same, -⟩ | ⟨entry, -, -, began⟩ := s.stop_cases sessionId false
  · rw [same]
  · rw [began, beginStop_same]
    rfl

theorem Sound.stopEach (inv : s.Sound) (ids : List Nat) : (s.stopEach true ids).Sound := by
  induction ids generalizing s with
  | nil => exact inv
  | cons id rest ih => exact ih (inv.stop id)

theorem live_stopEach {ids : List Nat} {other : Nat} (live : (s.stopEach userInitiated ids).Live configId other) :
    other ∉ ids ∧ s.Live configId other := by
  induction ids generalizing s with
  | nil => exact ⟨List.not_mem_nil, live⟩
  | cons id rest ih =>
    obtain ⟨later, pre⟩ := ih live
    obtain ⟨differ, earlier⟩ := live_stop pre
    exact ⟨List.not_mem_cons_of_ne_of_not_mem differ later, earlier⟩

theorem stopEach_same (s : LocalServerManager) (userInitiated : Bool) (ids : List Nat) :
    ∃ entries sessions seen, s.stopEach userInitiated ids =
      { s with entries := entries, sessions := sessions, seen := seen } := by
  induction ids generalizing s with
  | nil => exact ⟨s.entries, s.sessions, s.seen, rfl⟩
  | cons id rest ih =>
    obtain ⟨entries, sessions, seen, tail⟩ := ih (s.stop id userInitiated).1
    refine ⟨entries, sessions, seen, tail.trans ?_⟩
    rw [stop_same]

theorem stopEach_unasked (ids : List Nat) : (s.stopEach false ids).seen = s.seen := by
  induction ids generalizing s with
  | nil => rfl
  | cons id rest ih => exact (ih (s := (s.stop id false).1)).trans (stop_unasked id)

theorem mem_sessionsToStop (wired : s.Wired) (live : s.Live configId sessionId) :
    sessionId ∈ s.sessionsToStop configId := by
  obtain ⟨entry, hit, -, own⟩ := live
  obtain ⟨-, terminal, -⟩ := wired.sessions sessionId entry hit
  refine List.mem_map.mpr ⟨(sessionId, configId), List.mem_filter.mpr
    ⟨SeqMap.mem_entries.mpr (own ▸ terminal), ?_⟩, rfl⟩
  simp [SeqMap.has, hit]

theorem Sound.stopConfig (inv : s.Sound) (quiet : s.hasBackoff configId = true → configId ∉ s.servers) :
    (s.stopConfig configId).Sound := by
  have stopped := inv.stopEach (s.sessionsToStop configId)
  obtain ⟨entries, sessions, seen, shape⟩ := s.stopEach_same true (s.sessionsToStop configId)
  unfold LocalServerManager.stopConfig
  refine ⟨⟨stopped.wired.sessions, stopped.wired.timers, stopped.wired.ended, fun marked => ?_⟩,
    fun other => ?_, stopped.heeded.cons nofun nofun⟩
  · exact stopped.wired.marked ((List.mem_cons.mp marked).resolve_left nofun)
  · refine (stopped.account other).carry ⟨fun _ live => live, fun _ _ awaits => awaits, rfl, rfl⟩
      fun rests known => ?_
    by_cases own : configId = other
    · subst own
      rw [shape] at known
      have idle : s.hasBackoff configId = false := by
        rw [← Bool.not_eq_true]
        exact fun pending => quiet pending known
      refine ⟨fun sessionId live => ?_, ?_⟩
      · obtain ⟨missed, pre⟩ := live_stopEach live
        exact missed (mem_sessionsToStop inv.wired pre)
      · rw [shape]
        exact hasBackoff_eq_false.mp idle
    · have ne : Event.about (.stopAsked configId) ≠ some other := by simpa [Event.about] using own
      rw [halted_other ne] at rests
      have idle := (stopped.account other).resting rests known
      exact ⟨idle.live, idle.awaits⟩

end NexTerminal.LocalServers.LocalServerManager
