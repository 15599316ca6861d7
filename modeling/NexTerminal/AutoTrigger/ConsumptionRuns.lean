import Mathlib.Data.List.Basic
import Mathlib.Data.List.Nodup
import Mathlib.Data.List.Pairwise
import NexTerminal.AutoTrigger.MacroAutoTrigger
import NexTerminal.Library.Runs

namespace NexTerminal.AutoTrigger

open Terminal Library

namespace Observer

/-- No position starts two matches that fire, and the buffer begins past every match. -/
structure Consumed (observer : Observer) : Prop where
  buffered : observer.buffer = observer.output.drop observer.consumed
  unique : ((observer.found.filter (·.fires)).map (·.start)).Nodup
  past : ∀ seen ∈ observer.found, seen.start < observer.consumed ∧ seen.stop ≤ observer.consumed
  apart : observer.found.Pairwise fun earlier later => earlier.stop ≤ later.start

/-- The matches took characters, which the buffer does not have any more. -/
structure Tidy (observer : Observer) : Prop where
  buffered : observer.buffer = observer.output.drop observer.consumed
  within : observer.consumed ≤ observer.output.length
  spans : ∀ seen ∈ observer.found, seen.start < seen.stop ∧ seen.stop ≤ observer.consumed
  apart : observer.found.Pairwise fun earlier later => earlier.stop ≤ later.start

variable {self : Observer}

theorem Tidy.starts (tidy : self.Tidy) : (self.found.map (·.start)).Pairwise (· < ·) := by
  rw [List.pairwise_map]
  refine tidy.apart.imp_of_mem ?_
  intro earlier later hit _ ne
  exact Nat.lt_of_lt_of_le (tidy.spans earlier hit).1 ne

theorem Tidy.consumed (tidy : self.Tidy) : self.Consumed where
  buffered := tidy.buffered
  unique := by
    have fewer : ((self.found.filter (·.fires)).map (·.start)).Sublist (self.found.map (·.start)) :=
      List.filter_sublist.map _
    exact (tidy.starts.sublist fewer).imp Nat.ne_of_lt
  past seen found := by
    obtain ⟨some_character, behind⟩ := tidy.spans seen found
    omega
  apart := tidy.apart

theorem Tidy.fresh (profileId : Option String) : ({ profileId } : Observer).Tidy :=
  ⟨rfl, Nat.le_refl _, by simp, .nil⟩

/-- What an operation that finds nothing does: the buffer loses some of its first characters. -/
structure Passed (before after : Observer) (count : Nat) : Prop where
  output : after.output = before.output
  found : after.found = before.found
  buffer : after.buffer = before.buffer.drop count
  consumed : after.consumed = before.consumed + count
  within : count ≤ before.buffer.length

theorem Passed.refl (self : Observer) : Passed self self 0 :=
  ⟨rfl, rfl, rfl, rfl, Nat.zero_le _⟩

theorem Passed.trans {first second third : Observer} {count more : Nat} (pre : Passed first second count)
    (after : Passed second third more) : Passed first third (count + more) where
  output := after.output.trans pre.output
  found := after.found.trans pre.found
  buffer := by rw [after.buffer, pre.buffer, List.drop_drop]
  consumed := by rw [after.consumed, pre.consumed]; omega
  within := by
    have first_within := pre.within
    have second_within := after.within
    rw [pre.buffer, List.length_drop] at second_within
    omega

theorem Passed.tidy {pre after : Observer} {count : Nat} (passed : Passed pre after count)
    (tidy : pre.Tidy) : after.Tidy where
  buffered := by rw [passed.buffer, passed.output, passed.consumed, tidy.buffered, List.drop_drop]
  within := by
    have bound := passed.within
    have inside := tidy.within
    rw [tidy.buffered, List.length_drop] at bound
    rw [passed.output, passed.consumed]
    omega
  spans seen found := by
    rw [passed.found] at found
    obtain ⟨some_character, behind⟩ := tidy.spans seen found
    exact ⟨some_character, by rw [passed.consumed]; omega⟩
  apart := by rw [passed.found]; exact tidy.apart

theorem Tidy.same {pre after : Observer} (tidy : pre.Tidy) (output : after.output = pre.output)
    (hit : after.found = pre.found) (buffer : after.buffer = pre.buffer)
    (consumed : after.consumed = pre.consumed) : after.Tidy :=
  have passed : Passed pre after 0 := ⟨output, hit, buffer, consumed, Nat.zero_le _⟩
  passed.tidy tidy

theorem passed_cut (self : Observer) {count : Nat} (within : count ≤ self.buffer.length) :
    Passed self (self.cut count) count :=
  ⟨rfl, rfl, rfl, rfl, within⟩

theorem passed_clearIntervalState (self : Observer) (stateKey : String) :
    Passed self (self.clearIntervalState stateKey) 0 :=
  ⟨rfl, rfl, rfl, rfl, Nat.zero_le _⟩

theorem passed_scheduleEvaluation (self : Observer) (rule : CompiledTriggerRule) :
    Passed self (self.scheduleEvaluation rule) 0 :=
  ⟨rfl, rfl, rfl, rfl, Nat.zero_le _⟩

theorem passed_clearScheduledTimer (self : Observer) (stateKey : String) :
    Passed self (self.clearScheduledTimer stateKey) 0 :=
  ⟨rfl, rfl, rfl, rfl, Nat.zero_le _⟩

theorem passed_fireRule (self : Observer) (rule : CompiledTriggerRule) (now : ℚ) :
    ∃ count, Passed self (self.fireRule rule now) count := by
  by_cases interval : rule.intervalMs.isSome
  · exact ⟨self.buffer.length, by simp [fireRule, interval, cut, clearReadyMatch, clearScheduledTimer], by
      simp [fireRule, interval, cut, clearReadyMatch, clearScheduledTimer], by
      simp [fireRule, interval, cut], by
      simp [fireRule, interval, cut, clearReadyMatch, clearScheduledTimer], Nat.le_refl _⟩
  · exact ⟨0, by simp [fireRule, interval, clearReadyMatch, clearScheduledTimer], by
      simp [fireRule, interval, clearReadyMatch, clearScheduledTimer], by
      simp [fireRule, interval, clearReadyMatch, clearScheduledTimer], by
      simp [fireRule, interval, clearReadyMatch, clearScheduledTimer], Nat.zero_le _⟩

theorem passed_clearIntervalStates (keys : List String) (self : Observer) :
    Passed self (keys.foldl clearIntervalState self) 0 := by
  induction keys generalizing self with
  | nil => exact .refl self
  | cons key rest ih => exact (self.passed_clearIntervalState key).trans (ih (self.clearIntervalState key))

theorem passed_prune (self : Observer) (activeRules : List CompiledTriggerRule) :
    Passed self (self.prune activeRules) 0 := by
  let known : Observer :=
    { self with
      lastFired := (self.lastFired.keys.filter fun key => !activeRules.any (·.stateKey == key)).foldl
        SeqMap.erase self.lastFired }
  have start : Passed self known 0 := ⟨rfl, rfl, rfl, rfl, Nat.zero_le _⟩
  have ready (keys : List String) : Passed self (keys.foldl clearIntervalState known) 0 :=
    start.trans (passed_clearIntervalStates keys known)
  have owned (keys more : List String) :
      Passed self (more.foldl clearIntervalState (keys.foldl clearIntervalState known)) 0 :=
    (ready keys).trans (passed_clearIntervalStates more _)
  have last := owned (known.readyMatches.items.filter fun key =>
    !activeRules.any fun rule => rule.stateKey == key && rule.intervalMs.isSome)
  exact ⟨(last _).output, (last _).found, (last _).buffer, (last _).consumed, Nat.zero_le _⟩

theorem passed_dispose (self : Observer) : Passed self self.dispose self.buffer.length :=
  ⟨rfl, rfl, rfl, rfl, Nat.le_refl _⟩

theorem Tidy.take (tidy : self.Tidy) (rule : CompiledTriggerRule) {start stop : Nat} (now : ℚ)
    (some_character : start < stop) (bound : stop ≤ self.buffer.length) : (self.take rule start stop now).Tidy where
  buffered := ((self.passed_cut bound).tidy tidy).buffered
  within := ((self.passed_cut bound).tidy tidy).within
  spans seen found := by
    rcases List.mem_append.1 found with old | new
    · exact ((self.passed_cut bound).tidy tidy).spans seen old
    · obtain rfl := List.mem_singleton.1 new
      exact ⟨Nat.add_lt_add_left some_character _, Nat.le_refl _⟩
  apart := by
    refine List.pairwise_append.2 ⟨tidy.apart, List.pairwise_singleton _ _, ?_⟩
    intro earlier old later new
    obtain rfl := List.mem_singleton.1 new
    exact Nat.le_trans (tidy.spans earlier old).2 (Nat.le_add_right _ _)

theorem Tidy.receive (tidy : self.Tidy) (maxBufferLength : Nat) (text : Text) :
    (self.receive maxBufferLength text).Tidy := by
  let longer : Observer :=
    { self with
      buffer := self.buffer ++ strippedOutput text
      output := self.output ++ strippedOutput text }
  have grown : longer.Tidy :=
    { buffered := by
        rw [List.drop_append_of_le_length tidy.within, ← tidy.buffered]
      within := by
        have inside := tidy.within
        show self.consumed ≤ (self.output ++ _).length
        rw [List.length_append]
        omega
      spans := tidy.spans
      apart := tidy.apart }
  exact (longer.passed_cut (Nat.sub_le _ _)).tidy grown

end Observer

/-- The rule is tried on the buffer, and takes no character of it where it matches. -/
def meetsEmpty (disabled : String → Bool) (moment : Moment) (id : Nat) (rule : CompiledTriggerRule) (turn : Turn) :
    Bool :=
  !passesOver moment id rule turn && !disabled rule.stateKey && !ownedElsewhere id rule turn
    && !(rule.intervalMs.isSome &&
      (rule.stateKey ∈ turn.observer.readyMatches.items
        || ((turn.intervalOwners.get? rule.stateKey).isNone && !moment.active id)))
    && (rule.regex.exec turn.observer.buffer 0).any fun place => place.1 == place.2

def rulesMeetEmpty (disabled : String → Bool) (moment : Moment) (id : Nat) :
    List CompiledTriggerRule → Turn → Bool
  | [], _ => false
  | rule :: rest, turn =>
    let next := tryRule disabled moment id rule turn
    meetsEmpty disabled moment id rule turn || (!next.stop && rulesMeetEmpty disabled moment id rest next)

variable {turn : Turn}

theorem fireOrWait_tidy (moment : Moment) (rule : CompiledTriggerRule) (tidy : turn.observer.Tidy) :
    (fireOrWait moment rule turn).observer.Tidy := by
  unfold fireOrWait
  split
  · split
    · exact (turn.observer.passed_scheduleEvaluation rule).tidy tidy
    · exact tidy
  · obtain ⟨count, passed⟩ := turn.observer.passed_fireRule rule moment.now
    exact passed.tidy tidy

theorem takeMatch_tidy (moment : Moment) (id : Nat) (rule : CompiledTriggerRule) {start stop : Nat}
    (tidy : turn.observer.Tidy) (bound : stop ≤ turn.observer.buffer.length)
    (some_character : (rule.intervalMs.isSome && (turn.intervalOwners.get? rule.stateKey).isNone
      && !moment.active id) = false → start < stop) : (takeMatch moment id rule turn start stop).observer.Tidy := by
  unfold takeMatch
  by_cases unowned : (rule.intervalMs.isSome && (turn.intervalOwners.get? rule.stateKey).isNone
      && !moment.active id) = true
  · simp only [unowned]
    exact tidy
  · have taken : ∀ owner : Observer, owner.buffer = turn.observer.buffer → owner.Tidy →
        (owner.take rule start stop moment.now).Tidy :=
      fun owner same owner_tidy =>
        owner_tidy.take rule moment.now (some_character (Bool.eq_false_iff.2 unowned)) (by rw [same]; exact bound)
    simp only [Bool.eq_false_iff.2 unowned]
    apply fireOrWait_tidy
    by_cases interval : rule.intervalMs.isSome && (turn.intervalOwners.get? rule.stateKey).isNone
    · have owned := taken { turn.observer with
        ownedIntervals := turn.observer.ownedIntervals.add rule.stateKey } rfl (tidy.same rfl rfl rfl rfl)
      split
      · exact owned.same rfl rfl rfl rfl
      · exact owned
    · have plain := taken turn.observer rfl tidy
      split
      · exact plain.same rfl rfl rfl rfl
      · exact plain

theorem tryRule_tidy (disabled : String → Bool) (moment : Moment) (id : Nat) (rule : CompiledTriggerRule)
    (tidy : turn.observer.Tidy) (kept : meetsEmpty disabled moment id rule turn = false) :
    (tryRule disabled moment id rule turn).observer.Tidy := by
  unfold tryRule
  by_cases passed : passesOver moment id rule turn
  · rw [if_pos passed]; exact tidy
  rw [if_neg passed]
  by_cases off : disabled rule.stateKey
  · rw [if_pos off]
    split
    · exact (turn.observer.passed_clearIntervalState rule.stateKey).tidy tidy
    · exact tidy
  rw [if_neg off]
  by_cases elsewhere : ownedElsewhere id rule turn
  · rw [if_pos elsewhere]; exact tidy
  rw [if_neg elsewhere]
  by_cases ready : rule.intervalMs.isSome && rule.stateKey ∈ turn.observer.readyMatches.items
  · rw [if_pos ready]; exact fireOrWait_tidy moment rule tidy
  rw [if_neg ready]
  rcases hit : rule.regex.exec turn.observer.buffer 0 with _ | ⟨start, stop⟩
  · exact tidy
  obtain ⟨_, ordered, bound⟩ := rule.regex.within _ _ _ _ hit
  refine takeMatch_tidy moment id rule tidy bound fun owned => ?_
  have nodup : start ≠ stop := by
    intro same
    simp_all [meetsEmpty]
  exact Nat.lt_of_le_of_ne ordered nodup

theorem tryRules_tidy (disabled : String → Bool) (moment : Moment) (id : Nat) (rules : List CompiledTriggerRule)
    (tidy : turn.observer.Tidy) (kept : rulesMeetEmpty disabled moment id rules turn = false) :
    (tryRules disabled moment id rules turn).observer.Tidy := by
  induction rules generalizing turn with
  | nil => exact tidy
  | cons rule rest ih =>
    obtain ⟨here, later⟩ := Bool.or_eq_false_iff.1 kept
    have next := tryRule_tidy disabled moment id rule tidy here
    unfold tryRules
    by_cases left : (tryRule disabled moment id rule turn).stop
    · simp only [left]; exact next
    · simp only [left]
      exact ih next (by simpa [left] using later)

namespace MacroAutoTrigger

def Tidy (trigger : MacroAutoTrigger) : Prop := ∀ observer ∈ trigger.observers, observer.Tidy

/-- An evaluation of the observer meets a rule that matches without a character. -/
def evaluationMeetsEmpty (moment : Moment) (self : MacroAutoTrigger) (id : Nat) : Bool :=
  match self.observers[id]? with
  | none => false
  | some observer =>
    !(observer.disposed || !self.enabled || self.rules.isEmpty) &&
      rulesMeetEmpty self.isDisabledByKey moment id self.rules { observer, intervalOwners := self.intervalOwners }

def evaluationsMeetEmpty (moment : Moment) : List Nat → MacroAutoTrigger → Bool
  | [], _ => false
  | id :: rest, self =>
    self.evaluationMeetsEmpty moment id || evaluationsMeetEmpty moment rest (self.evaluate moment id)

def reevaluationMeetsEmpty (moment : Moment) (self : MacroAutoTrigger) : Bool :=
  evaluationsMeetEmpty moment (List.range self.observers.length) self

/-- The step evaluates an observer on a buffer that a rule matches without a character. -/
def slips (env : Platform) (self : MacroAutoTrigger) : TriggerAct → Bool
  | .reload settings macros moment => (self.recompile env settings macros).reevaluationMeetsEmpty moment
  | .setDisabled stateKey disabled moment =>
    !self.ambiguousKeys.contains stateKey && !disabled &&
      (self.updateDisabledState stateKey disabled).reevaluationMeetsEmpty moment
  | .output id text moment =>
    (self.observers[id]?).any fun observer =>
      ({ self with observers := self.observers.set id (observer.receive self.maxBufferLength text) }
        : MacroAutoTrigger).evaluationMeetsEmpty moment id
  | .timerFires id stateKey moment =>
    (self.observers[id]?).any fun observer => stateKey ∈ observer.scheduledTimers.items &&
      ({ self with observers := self.observers.set id (observer.clearScheduledTimer stateKey) }
        : MacroAutoTrigger).evaluationMeetsEmpty moment id
  | .reevaluate moment => self.reevaluationMeetsEmpty moment
  | _ => false

variable {self : MacroAutoTrigger}

theorem Tidy.set (tidy : self.Tidy) (id : Nat) {observer : Observer} (one : observer.Tidy) :
    ({ self with observers := self.observers.set id observer } : MacroAutoTrigger).Tidy := by
  intro other hit
  rcases List.mem_or_eq_of_mem_set hit with old | rfl
  · exact tidy other old
  · exact one

theorem Tidy.at_index (tidy : self.Tidy) {id : Nat} {observer : Observer}
    (hit : self.observers[id]? = some observer) : observer.Tidy :=
  tidy observer (List.mem_of_getElem? hit)

variable {moment : Moment}

theorem Tidy.evaluate (tidy : self.Tidy) {id : Nat} (kept : self.evaluationMeetsEmpty moment id = false) :
    (self.evaluate moment id).Tidy := by
  unfold MacroAutoTrigger.evaluate
  unfold evaluationMeetsEmpty at kept
  rcases hit : self.observers[id]? with _ | observer
  · exact tidy
  rw [hit] at kept
  by_cases off : observer.disposed || !self.enabled || self.rules.isEmpty
  · simp only [off]
    exact tidy
  · simp only [Bool.eq_false_iff.2 off]
    refine tidy.set id (tryRules_tidy _ moment id self.rules (tidy.at_index hit) ?_)
    simpa [Bool.eq_false_iff.2 off] using kept

theorem Tidy.evaluations (ids : List Nat) (tidy : self.Tidy) (kept : evaluationsMeetEmpty moment ids self = false) :
    (ids.foldl (MacroAutoTrigger.evaluate moment) self).Tidy := by
  induction ids generalizing self with
  | nil => exact tidy
  | cons id rest ih =>
    obtain ⟨here, later⟩ := Bool.or_eq_false_iff.1 kept
    exact ih (tidy.evaluate here) later

theorem Tidy.reevaluateObservers (tidy : self.Tidy) (kept : self.reevaluationMeetsEmpty moment = false) :
    (self.reevaluateObservers moment).Tidy := by
  unfold MacroAutoTrigger.reevaluateObservers
  split
  · exact tidy
  · exact tidy.evaluations _ kept

theorem Tidy.mapObservers (tidy : self.Tidy) {f : Observer → Observer}
    (each : ∀ observer, Observer.Passed observer (f observer) 0) : (self.mapObservers f).Tidy := by
  intro other hit
  obtain ⟨observer, pre, rfl⟩ := List.mem_map.1 hit
  split
  · exact tidy observer pre
  · exact (each observer).tidy (tidy observer pre)

theorem Tidy.updateDisabledState (tidy : self.Tidy) (stateKey : String) (disabled : Bool) :
    (self.updateDisabledState stateKey disabled).Tidy := by
  unfold MacroAutoTrigger.updateDisabledState
  split <;> exact tidy

theorem Tidy.clearIntervalState (tidy : self.Tidy) (stateKey : String) : (self.clearIntervalState stateKey).Tidy :=
  have kept : ({ self with intervalOwners := self.intervalOwners.erase stateKey } : MacroAutoTrigger).Tidy := tidy
  kept.mapObservers fun observer => observer.passed_clearIntervalState stateKey

theorem Tidy.clearIntervalStates (keys : List String) (tidy : self.Tidy) :
    (keys.foldl MacroAutoTrigger.clearIntervalState self).Tidy :=
  List.foldlRecOn keys _ tidy fun _ pre key _ => pre.clearIntervalState key

theorem Tidy.pauseOwnedIntervals (tidy : self.Tidy) (owner : Nat) : (self.pauseOwnedIntervals owner).Tidy :=
  List.foldlRecOn _ _ tidy fun _ pre entry _ =>
    (pre.updateDisabledState entry.1 true).clearIntervalState entry.1

theorem Tidy.recompile (tidy : self.Tidy) (env : Platform) (settings : Settings) (macros : List TriggerMacro) :
    (self.recompile env settings macros).Tidy := by
  have compiled : ((self.compile env settings macros).pruneState macros).Tidy := tidy
  exact ((compiled.mapObservers fun observer => observer.passed_prune _).clearIntervalStates _).clearIntervalStates _

theorem Tidy.disposeObserver (tidy : self.Tidy) (id : Nat) : (self.disposeObserver id).Tidy := by
  have paused := tidy.pauseOwnedIntervals id
  unfold MacroAutoTrigger.disposeObserver
  rcases hit : (self.pauseOwnedIntervals id).observers[id]? with _ | observer
  · simp only [hit]
    exact paused
  · simp only [hit]
    exact paused.set id (observer.passed_dispose.tidy (paused.at_index hit))

theorem Tidy.dispose (tidy : self.Tidy) : self.dispose.Tidy := by
  unfold MacroAutoTrigger.dispose
  split
  · exact tidy
  · have marked : ({ self with disposed := true } : MacroAutoTrigger).Tidy := tidy
    have gone (ids : List Nat) :
        (ids.foldl MacroAutoTrigger.disposeObserver { self with disposed := true }).Tidy :=
      List.foldlRecOn ids _ marked fun _ pre id _ => pre.disposeObserver id
    exact gone _

theorem Tidy.step {env : Platform} (tidy : self.Tidy) {act : TriggerAct} (kept : self.slips env act = false) :
    (self.step env act).Tidy := by
  cases act with
  | reload settings macros moment => exact (tidy.recompile env settings macros).reevaluateObservers kept
  | setDisabled stateKey disabled moment =>
    show (self.setDisabled stateKey disabled moment).Tidy
    unfold MacroAutoTrigger.setDisabled
    have updated := tidy.updateDisabledState stateKey disabled
    split
    · exact tidy
    · next known =>
      split
      · next enabled => exact updated.reevaluateObservers (by simp_all [slips])
      · split
        · exact updated.clearIntervalState stateKey
        · exact updated
  | createObserver profileId =>
    intro observer hit
    rcases List.mem_append.1 hit with old | new
    · exact tidy observer old
    · obtain rfl := List.mem_singleton.1 new
      exact .fresh profileId
  | output id text moment =>
    show (self.onOutput id text moment).Tidy
    unfold MacroAutoTrigger.onOutput
    rcases hit : self.observers[id]? with _ | observer
    · exact tidy
    dsimp only
    split
    · exact tidy
    · have received := tidy.set id ((tidy.at_index hit).receive self.maxBufferLength text)
      exact received.evaluate (by simpa [slips, hit] using kept)
  | timerFires id stateKey moment =>
    show (self.timerFires id stateKey moment).Tidy
    unfold MacroAutoTrigger.timerFires
    rcases hit : self.observers[id]? with _ | observer
    · exact tidy
    dsimp only
    split
    · next due =>
      have cleared := tidy.set id ((observer.passed_clearScheduledTimer stateKey).tidy (tidy.at_index hit))
      exact cleared.evaluate (by simpa [slips, hit, due] using kept)
    · exact tidy
  | writeBack id =>
    show (self.writeBack id).Tidy
    unfold MacroAutoTrigger.writeBack
    rcases hit : self.observers[id]? with _ | observer
    · exact tidy
    dsimp only
    split
    · exact tidy
    · exact tidy.set id ((tidy.at_index hit).same rfl rfl rfl rfl)
  | reevaluate moment => exact tidy.reevaluateObservers kept
  | pauseIntervalMacros id =>
    show (self.pauseIntervalMacros id).Tidy
    unfold MacroAutoTrigger.pauseIntervalMacros
    split
    · exact tidy
    · split
      · exact tidy
      · exact tidy.pauseOwnedIntervals id
  | disposeObserver id => exact tidy.disposeObserver id
  | dispose => exact tidy.dispose

end MacroAutoTrigger

open MacroAutoTrigger

/-- Where no rule is matched without a character, no two matches that fire start at one position. -/
theorem output_consumed (env : Platform) (acts : List TriggerAct)
    (keeps : Avoids (MacroAutoTrigger.step env) (slips env) {} acts) :
    ∀ observer ∈ (MacroAutoTrigger.run env {} acts).observers, observer.Consumed := by
  have tidy : (MacroAutoTrigger.run env {} acts).Tidy :=
    keeps.invariant (fun _ found => nomatch found) fun _ _ before kept => before.step kept
  exact fun observer found => (tidy observer found).consumed

/-- The first place from an index on where a word is, or, looking ahead, what is in front of it. -/
def seek (word : Text) (ahead : Bool) (text : Text) (lastIndex : Nat) : Option (Nat × Nat) :=
  ((List.range (text.length + 1)).find? fun index => lastIndex ≤ index && word.isPrefixOf (text.drop index)).map
    fun index => (index, if ahead then index else index + word.length)

theorem seek_within {word text : Text} {ahead : Bool} {lastIndex start stop : Nat}
    (hit : seek word ahead text lastIndex = some (start, stop)) :
    lastIndex ≤ start ∧ start ≤ stop ∧ stop ≤ text.length := by
  obtain ⟨idx, place, same⟩ := Option.map_eq_some_iff.1 hit
  obtain ⟨rfl, rfl⟩ := Prod.mk.inj same
  have here := List.find?_some place
  have inside := List.mem_range.1 (List.mem_of_find?_eq_some place)
  rw [Bool.and_eq_true, decide_eq_true_eq, List.isPrefixOf_iff_prefix] at here
  have len := here.2.length_le
  rw [List.length_drop] at len
  cases ahead with
  | true => exact ⟨here.1, Nat.le_refl _, Nat.lt_succ_iff.1 inside⟩
  | false => exact ⟨here.1, Nat.le_add_right _ _, by simp only [Bool.false_eq_true, if_false]; omega⟩

/-- Patterns that are plain words, or a plain word in `(?=` and `)`. -/
def promptPlatform : Platform where
  regExp pattern _ :=
    let ahead := (ascii "(?=").isPrefixOf pattern
    let word := if ahead then (pattern.drop 3).dropLast else pattern
    some ⟨false, seek word ahead, fun _ _ _ _ => seek_within⟩
  nestedQuantifier _ := false
  quantifiedAlternation _ := false
  number _ := none
  toLowerCase := id

def promptMacro (pattern : String) : TriggerMacro where
  id := some "m1"
  name := "answer"
  text := "yes"
  triggerPattern := some (ascii pattern)
  unescapedText := "yes"

def promptRun (pattern : String) : List TriggerAct :=
  [.reload {} [promptMacro pattern] ⟨0, fun _ => true, fun _ _ => true⟩,
    .createObserver none,
    .output 0 (ascii "Continue?") ⟨0, fun _ => true, fun _ _ => true⟩,
    .writeBack 0,
    .reevaluate ⟨3000, fun _ => true, fun _ _ => true⟩,
    .writeBack 0]

theorem output_consumed_prompt :
    ∃ observer ∈ (MacroAutoTrigger.run promptPlatform {} (promptRun "Continue")).observers, observer.Consumed :=
  have created : 0 < (MacroAutoTrigger.run promptPlatform {} (promptRun "Continue")).observers.length := by
    decide
  ⟨_, List.getElem_mem created, output_consumed promptPlatform (promptRun "Continue")
    (avoids_of_each (by decide)) _ (List.getElem_mem created)⟩

theorem lookahead_fires_twice :
    ¬∀ (env : Platform) (acts : List TriggerAct),
      ∀ observer ∈ (MacroAutoTrigger.run env {} acts).observers, observer.Consumed := by
  intro always
  have unique : ∀ observer ∈ (MacroAutoTrigger.run promptPlatform {} (promptRun "(?=Continue)")).observers,
      ((observer.found.filter (·.fires)).map (·.start)).Nodup :=
    fun observer found => (always _ _ observer found).unique
  exact absurd unique (by decide +kernel)

end NexTerminal.AutoTrigger
