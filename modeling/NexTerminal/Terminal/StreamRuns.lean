import NexTerminal.Terminal.HighlighterStream
import NexTerminal.Library.Runs
import NexTerminal.Library.Sequences

namespace NexTerminal.Terminal

open Library

structure StreamCut where
  buffer : Text
  position : Nat

inductive StreamEvent
  | push (text : Text)
  | idleFires
  | ceilingFires
  | flush
  | dispose
  | waits

structure StreamAct where
  time : Nat
  event : StreamEvent

/-- A stream at a time, with what was pushed, when each pending character came, and the cuts
that were made for a line or for the cap. -/
structure StreamRun where
  stream : HighlighterStream
  clock : Nat := 0
  arrivals : List Nat := []
  pushed : Text := []
  cuts : List StreamCut := []

namespace HighlighterStream

def cutsOf (self : HighlighterStream) (text : Text) : List StreamCut :=
  let joined := self.pending ++ text
  let received := (self.received text).pending
  (if 0 < findStableBoundary joined then [⟨joined, safeCutIndex joined (findStableBoundary joined)⟩] else []) ++
    if STREAM_MAX_PENDING_LENGTH ≤ received.length then [⟨received, retentionCut received⟩] else []

end HighlighterStream

namespace StreamRun

def step (self : StreamRun) (act : StreamAct) : StreamRun :=
  match act.event with
  | .push text =>
    let stream := self.stream.push text act.time
    { stream, clock := act.time
      arrivals := (self.arrivals ++ List.replicate text.length act.time).rtake stream.pending.length
      pushed := self.pushed ++ text
      cuts := self.cuts ++ self.stream.cutsOf text }
  | .idleFires => { self with stream := self.stream.onIdleFlush, clock := act.time, arrivals := [] }
  | .ceilingFires => { self with stream := self.stream.onCeiling, clock := act.time, arrivals := [] }
  | .flush => { self with stream := self.stream.flush, clock := act.time, arrivals := [] }
  | .dispose => { self with stream := self.stream.dispose, clock := act.time, arrivals := [] }
  | .waits => { self with clock := act.time }

def run (flushDelayMs : Nat) (acts : List StreamAct) : StreamRun := acts.foldl step { stream := { flushDelayMs } }

/-- The act comes too late for a timer that is due, or a timer fires at another time than that. -/
def untimely (self : StreamRun) (act : StreamAct) : Bool :=
  act.time < self.clock || self.stream.flushTimer.any (· < act.time) || self.stream.ceilingTimer.any (· < act.time) ||
    match act.event with
    | .idleFires => self.stream.flushTimer != some act.time
    | .ceilingFires => self.stream.ceilingTimer != some act.time
    | _ => false

/-- A text over the cap in which an escape holds the cut of the cap at its own start, so far
from the end that what is kept is over the cap still. -/
def heldBack (pending : Text) : Bool :=
  STREAM_MAX_PENDING_LENGTH ≤ pending.length &&
    (heldEscape pending (pending.length - STREAM_RETAIN_MARGIN)).any fun start =>
      start ≠ 0 && start + STREAM_MAX_PENDING_LENGTH ≤ pending.length

def overflows (self : StreamRun) (act : StreamAct) : Bool :=
  match act.event with
  | .push text => heldBack (self.stream.received text).pending
  | _ => false

end StreamRun

namespace HighlighterStream

variable {self : HighlighterStream}

/-- From the joined text the first characters go out; the ceiling may go where nothing carried
over is left. -/
structure Sends (before after : HighlighterStream) (joined : Text) (carried count : Nat) : Prop where
  slices : after.slices.flatten = before.slices.flatten ++ joined.take count
  pending : after.pending = joined.drop count
  ceiling : after.ceilingTimer = before.ceilingTimer ∨ after.ceilingTimer = none ∧ carried ≤ count
  delay : after.flushDelayMs = before.flushDelayMs

theorem sends_received (self : HighlighterStream) (text : Text) :
    ∃ count, Sends self (self.received text) (self.pending ++ text) self.pending.length count := by
  unfold received emitLines
  dsimp only
  split_ifs with line cut carried
  · exact ⟨_, by simp [emit, clearCeilingTimer], rfl, .inr ⟨rfl, carried⟩, rfl⟩
  · exact ⟨_, by simp [emit], rfl, .inl rfl, rfl⟩
  · exact ⟨0, by simp, rfl, .inl rfl, rfl⟩
  · exact ⟨0, by simp, rfl, .inl rfl, rfl⟩

theorem Sends.emit {pre after : HighlighterStream} {joined : Text} {carried count : Nat}
    (sends : Sends pre after joined carried count) (pos : Nat) :
    Sends pre (after.emit pos) joined carried (count + pos) where
  slices := by
    simp only [HighlighterStream.emit, List.flatten_append, List.flatten_cons, List.flatten_nil, List.append_nil]
    rw [sends.slices, sends.pending, List.append_assoc, List.take_add]
  pending := by
    simp only [HighlighterStream.emit]
    rw [sends.pending, List.drop_drop]
  ceiling := by
    rcases sends.ceiling with same | ⟨none_, all⟩
    · exact .inl same
    · exact .inr ⟨none_, by omega⟩
  delay := sends.delay

def capped (self : HighlighterStream) (text : Text) : HighlighterStream :=
  let received := self.received text
  if STREAM_MAX_PENDING_LENGTH ≤ received.pending.length then received.emitWithRetention else received

theorem push_eq (self : HighlighterStream) (text : Text) (now : Nat) :
    self.push text now = (self.capped text).rearmTimers now := rfl

theorem sends_capped (self : HighlighterStream) (text : Text) :
    ∃ count, Sends self (self.capped text) (self.pending ++ text) self.pending.length count := by
  obtain ⟨count, sends⟩ := sends_received self text
  unfold capped emitWithRetention
  dsimp only
  split_ifs
  · exact ⟨count, sends⟩
  · exact ⟨_, sends.emit _⟩
  · exact ⟨count, sends⟩

theorem rearmTimers_slices (now : Nat) : (self.rearmTimers now).slices = self.slices := by
  unfold rearmTimers
  split_ifs <;> rfl

theorem rearmTimers_pending (now : Nat) : (self.rearmTimers now).pending = self.pending := by
  unfold rearmTimers
  split_ifs <;> rfl

theorem rearmTimers_delay (now : Nat) : (self.rearmTimers now).flushDelayMs = self.flushDelayMs := by
  unfold rearmTimers
  split_ifs <;> rfl

theorem rearmTimers_ceiling (now : Nat) : (self.rearmTimers now).ceilingTimer =
    if self.pending = [] then none
    else some (self.ceilingTimer.getD (now + self.flushDelayMs * STREAM_MAX_PENDING_PERIODS)) := by
  unfold rearmTimers
  split_ifs <;> rfl

theorem emitAllPending_flatten : self.emitAllPending.slices.flatten = self.slices.flatten ++ self.pending ∧
    self.emitAllPending.pending = [] := by
  unfold emitAllPending
  split_ifs with nothing
  · simp [nothing]
  · simp

theorem emitAllPending_ceiling : self.emitAllPending.ceilingTimer = self.ceilingTimer := by
  unfold emitAllPending
  split_ifs <;> rfl

theorem emitAllPending_delay : self.emitAllPending.flushDelayMs = self.flushDelayMs := by
  unfold emitAllPending
  split_ifs <;> rfl

end HighlighterStream

namespace StreamRun

/-- Nothing is lost, every pending character has its deadline, and no cut is left inside a
sequence that does not start its text. -/
structure Kept (period : Nat) (current : StreamRun) : Prop where
  conserved : current.stream.slices.flatten ++ current.stream.pending = current.pushed
  counted : current.arrivals.length = current.stream.pending.length
  /-- the ceiling timer is not overdue, nor further away than its period -/
  ceiling : ∀ due, current.stream.ceilingTimer = some due → current.clock ≤ due ∧ due ≤ current.clock + period
  armed : current.stream.pending ≠ [] →
    ∃ due, current.stream.ceilingTimer = some due ∧ ∀ arrival ∈ current.arrivals, due ≤ arrival + period
  quiet : current.stream.pending = [] → current.stream.ceilingTimer = none
  cuts : ∀ cut ∈ current.cuts, ∀ start, InsideFrom (lex cut.buffer) cut.position start → start = 0
  delay : current.stream.flushDelayMs * STREAM_MAX_PENDING_PERIODS = period

variable {self : StreamRun} {period : Nat}

theorem kept_new (flushDelayMs : Nat) :
    Kept (flushDelayMs * STREAM_MAX_PENDING_PERIODS) { stream := { flushDelayMs } } where
  conserved := rfl
  counted := rfl
  ceiling _ armed := nomatch armed
  armed some_ := absurd rfl some_
  quiet _ := rfl
  cuts _ member := nomatch member
  delay := rfl

variable {act : StreamAct}

theorem timely (onTime : self.untimely act = false) :
    self.clock ≤ act.time ∧ ∀ due, self.stream.ceilingTimer = some due → act.time ≤ due := by
  simp only [untimely, Bool.or_eq_false_iff, decide_eq_false_iff_not, Nat.not_lt] at onTime
  obtain ⟨⟨⟨forward, -⟩, ceiling⟩, -⟩ := onTime
  refine ⟨forward, fun due armed => ?_⟩
  rw [armed] at ceiling
  simpa using ceiling

theorem cutsOf_inside {stream : HighlighterStream} {text : Text} {cut : StreamCut} (mem : cut ∈ stream.cutsOf text)
    {start : Nat} (inside : InsideFrom (lex cut.buffer) cut.position start) : start = 0 := by
  rcases List.mem_append.mp mem with line | cap
  · split_ifs at line
    · rw [List.mem_singleton.mp line] at inside
      exact safeCutIndex_inside inside
    · exact absurd line List.not_mem_nil
  · split_ifs at cap
    · rw [List.mem_singleton.mp cap] at inside
      dsimp only [HighlighterStream.retentionCut] at inside
      exact safeCutIndex_inside inside
    · exact absurd cap List.not_mem_nil

theorem Kept.emptied (kept : Kept period self) {stream : HighlighterStream} {time : Nat}
    (slices : stream.slices.flatten = self.stream.slices.flatten ++ self.stream.pending)
    (pending : stream.pending = []) (ceiling : stream.ceilingTimer = none)
    (delay : stream.flushDelayMs = self.stream.flushDelayMs) :
    Kept period { self with stream, clock := time, arrivals := [] } where
  conserved := by
    rw [slices, pending, List.append_nil, kept.conserved]
  counted := by
    rw [pending]
    rfl
  ceiling due armed := by
    rw [show stream.ceilingTimer = some due from armed] at ceiling
    cases ceiling
  armed some_ := absurd pending some_
  quiet _ := ceiling
  cuts := kept.cuts
  delay := by
    rw [delay, kept.delay]

theorem Kept.push (kept : Kept period self) {text : Text} {time : Nat} (forward : self.clock ≤ time)
    (due_ : ∀ due, self.stream.ceilingTimer = some due → time ≤ due) :
    Kept period (self.step ⟨time, .push text⟩) := by
  obtain ⟨count, sends⟩ := HighlighterStream.sends_capped self.stream text
  have after := HighlighterStream.push_eq self.stream text time
  have pending : (self.stream.push text time).pending = (self.stream.pending ++ text).drop count := by
    rw [after, HighlighterStream.rearmTimers_pending, sends.pending]
  have arrivals : (self.arrivals ++ List.replicate text.length time).rtake (self.stream.push text time).pending.length =
      (self.arrivals ++ List.replicate text.length time).drop count := by
    have size := kept.counted
    rw [List.rtake, pending, List.length_drop, List.length_append, List.length_append, List.length_replicate, size]
    by_cases all : count ≤ self.stream.pending.length + text.length
    · congr 1
      omega
    · rw [List.drop_eq_nil_of_le, List.drop_eq_nil_of_le]
      · rw [List.length_append, List.length_replicate, size]
        omega
      · rw [List.length_append, List.length_replicate, size]
        omega
  have ceiling : (self.stream.push text time).ceilingTimer =
      if (self.stream.push text time).pending = [] then none
      else some ((self.stream.capped text).ceilingTimer.getD (time + period)) := by
    rw [after, HighlighterStream.rearmTimers_ceiling, HighlighterStream.rearmTimers_pending, sends.delay, kept.delay]
  -- the deadline that is kept is that of the characters kept with it; a new one is that of the text
  have deadline : (self.stream.push text time).pending ≠ [] →
      time ≤ (self.stream.capped text).ceilingTimer.getD (time + period) ∧
      (self.stream.capped text).ceilingTimer.getD (time + period) ≤ time + period ∧
      ∀ arrival ∈ (self.arrivals ++ List.replicate text.length time).drop count,
        (self.stream.capped text).ceilingTimer.getD (time + period) ≤ arrival + period := by
    intro some_
    have fresh : ∀ arrival ∈ List.replicate text.length time, arrival = time := fun arrival mem =>
      (List.mem_replicate.mp mem).2
    rcases sends.ceiling with same | ⟨none_, all⟩
    · rw [same]
      cases armed : self.stream.ceilingTimer with
      | none =>
        have nothing : self.stream.pending = [] := by
          by_contra held
          obtain ⟨due, on, -⟩ := kept.armed held
          rw [armed] at on
          cases on
        have empty : self.arrivals = [] := List.length_eq_zero_iff.mp (by rw [kept.counted, nothing]; rfl)
        refine ⟨Nat.le_add_right _ _, Nat.le_refl _, fun arrival mem => ?_⟩
        rw [empty, List.nil_append] at mem
        rw [fresh arrival (List.mem_of_mem_drop mem)]
        exact Nat.le_refl _
      | some due =>
        obtain ⟨-, near⟩ := kept.ceiling due armed
        refine ⟨due_ due armed, by simp only [Option.getD_some]; omega, fun arrival mem => ?_⟩
        rw [Option.getD_some]
        rcases List.mem_append.mp (List.mem_of_mem_drop mem) with old | new
        · by_cases held : self.stream.pending = []
          · have empty : self.arrivals = [] := List.length_eq_zero_iff.mp (by rw [kept.counted, held]; rfl)
            rw [empty] at old
            cases old
          · obtain ⟨due', on, early⟩ := kept.armed held
            obtain rfl := Option.mem_unique armed on
            exact early arrival old
        · rw [fresh arrival new]
          omega
    · rw [none_, Option.getD_none]
      refine ⟨Nat.le_add_right _ _, Nat.le_refl _, fun arrival mem => ?_⟩
      have behind : self.arrivals.drop count = [] := List.drop_eq_nil_of_le (by rw [kept.counted]; exact all)
      rw [List.drop_append, behind, List.nil_append] at mem
      rw [fresh arrival (List.mem_of_mem_drop mem)]
  refine ⟨?_, ?_, ?_, ?_, ?_, ?_, ?_⟩
  · show (self.stream.push text time).slices.flatten ++ (self.stream.push text time).pending = self.pushed ++ text
    rw [pending, after, HighlighterStream.rearmTimers_slices, sends.slices, List.append_assoc, List.take_append_drop,
      ← List.append_assoc, kept.conserved]
  · show ((self.arrivals ++ List.replicate text.length time).rtake _).length =
      (self.stream.push text time).pending.length
    rw [arrivals, pending, List.length_drop, List.length_drop, List.length_append, List.length_append,
      List.length_replicate, kept.counted]
  · intro due armed
    rw [show (self.stream.push text time).ceilingTimer = some due from armed] at ceiling
    split_ifs at ceiling with none_
    obtain rfl := Option.some.inj ceiling
    exact ⟨(deadline none_).1, (deadline none_).2.1⟩
  · intro some_
    refine ⟨_, ceiling.trans (if_neg some_), ?_⟩
    show ∀ arrival ∈ (self.arrivals ++ List.replicate text.length time).rtake _, _
    rw [arrivals]
    exact (deadline some_).2.2
  · intro none_
    exact ceiling.trans (if_pos none_)
  · intro cut mem start inside
    rcases List.mem_append.mp mem with old | new
    · exact kept.cuts cut old start inside
    · exact cutsOf_inside new inside
  · show (self.stream.push text time).flushDelayMs * STREAM_MAX_PENDING_PERIODS = period
    rw [after, HighlighterStream.rearmTimers_delay, sends.delay, kept.delay]

theorem Kept.step (kept : Kept period self) (onTime : self.untimely act = false) : Kept period (self.step act) := by
  obtain ⟨forward, due_⟩ := timely onTime
  obtain ⟨time, event⟩ := act
  cases event with
  | push text => exact kept.push forward due_
  | idleFires =>
    refine kept.emptied ?_ ?_ rfl ?_
    · exact HighlighterStream.emitAllPending_flatten.1
    · exact HighlighterStream.emitAllPending_flatten.2
    · exact HighlighterStream.emitAllPending_delay
  | ceilingFires | flush | dispose =>
    refine kept.emptied ?_ ?_ ?_ ?_
    · exact HighlighterStream.emitAllPending_flatten.1
    · exact HighlighterStream.emitAllPending_flatten.2
    · exact HighlighterStream.emitAllPending_ceiling
    · exact HighlighterStream.emitAllPending_delay
  | waits =>
    refine { kept with ceiling := ?_ }
    intro due armed
    exact ⟨due_ due armed, Nat.le_trans (kept.ceiling due armed).2 (Nat.add_le_add_right forward _)⟩

theorem capped_lt_iff (stream : HighlighterStream) (text : Text) :
    (stream.capped text).pending.length < STREAM_MAX_PENDING_LENGTH ↔
      heldBack (stream.received text).pending = false := by
  have margin : STREAM_RETAIN_MARGIN < STREAM_MAX_PENDING_LENGTH := by decide
  have positive : 0 < STREAM_RETAIN_MARGIN := by decide
  unfold HighlighterStream.capped HighlighterStream.emitWithRetention HighlighterStream.retentionCut heldBack
  generalize stream.received text = received
  generalize STREAM_MAX_PENDING_LENGTH = cap at margin ⊢
  generalize STREAM_RETAIN_MARGIN = retained at margin positive ⊢
  by_cases full : cap ≤ received.pending.length
  · have cut := @safeCutIndex_eq received.pending (received.pending.length - retained) (by omega) (by omega)
    have left : (received.emit (safeCutIndex received.pending (received.pending.length - retained))).pending.length =
        received.pending.length - safeCutIndex received.pending (received.pending.length - retained) :=
      List.length_drop
    rw [if_pos full, if_neg (by omega), left, cut, decide_eq_true full, Bool.true_and]
    cases heldEscape received.pending (received.pending.length - retained) with
    | none =>
      simp only [Option.any_none, iff_true]
      omega
    | some start =>
      by_cases first : start = 0
      · simp only [Option.any_some, first, if_true, ne_eq, not_true_eq_false, decide_false, Bool.false_and, iff_true]
        omega
      · simp only [Option.any_some, first, if_false, ne_eq, not_false_eq_true, decide_true, Bool.true_and,
          decide_eq_false_iff_not]
        omega
  · rw [if_neg full, decide_eq_false full, Bool.false_and]
    simp only [iff_true]
    omega

theorem bounded_step (bounded : self.stream.pending.length < STREAM_MAX_PENDING_LENGTH)
    (keeps : self.overflows act = false) : (self.step act).stream.pending.length < STREAM_MAX_PENDING_LENGTH := by
  have empty : ∀ {stream : HighlighterStream}, stream.pending = [] →
    stream.pending.length < STREAM_MAX_PENDING_LENGTH := by
    intro stream none_
    rw [none_]
    decide
  obtain ⟨time, event⟩ := act
  cases event with
  | push text =>
    show (self.stream.push text time).pending.length < _
    rw [HighlighterStream.push_eq, HighlighterStream.rearmTimers_pending]
    exact (capped_lt_iff self.stream text).mpr keeps
  | idleFires | ceilingFires | flush | dispose => exact empty HighlighterStream.emitAllPending_flatten.2
  | waits => exact bounded

structure Flows (flushDelayMs : Nat) (acts : List StreamAct) : Prop where
  /-- the slices and the pending text are what was pushed -/
  conserved : (run flushDelayMs acts).stream.slices.flatten ++ (run flushDelayMs acts).stream.pending =
    (run flushDelayMs acts).pushed
  /-- whatever is pending has a deadline in six flush periods -/
  armed : (run flushDelayMs acts).stream.pending ≠ [] →
    ∃ due, (run flushDelayMs acts).stream.ceilingTimer = some due ∧
    ∀ arrival ∈ (run flushDelayMs acts).arrivals, due ≤ arrival + flushDelayMs * STREAM_MAX_PENDING_PERIODS
  counted : (run flushDelayMs acts).arrivals.length = (run flushDelayMs acts).stream.pending.length
  rendered : ∀ arrival ∈ (run flushDelayMs acts).arrivals,
    (run flushDelayMs acts).clock ≤ arrival + flushDelayMs * STREAM_MAX_PENDING_PERIODS
  cuts : ∀ cut ∈ (run flushDelayMs acts).cuts, ∀ start,
    InsideFrom (lex cut.buffer) cut.position start → start = 0
  bounded : Avoids step overflows { stream := { flushDelayMs } } acts →
    (run flushDelayMs acts).stream.pending.length < STREAM_MAX_PENDING_LENGTH

/-- Nothing is lost or late, and the buffer stays under its cap where no escape holds a cut back. -/
theorem stream_flows (flushDelayMs : Nat) (acts : List StreamAct)
    (onTime : Avoids step untimely { stream := { flushDelayMs } } acts) : Flows flushDelayMs acts := by
  have kept : Kept (flushDelayMs * STREAM_MAX_PENDING_PERIODS) (run flushDelayMs acts) :=
    onTime.invariant (kept_new flushDelayMs) fun _ _ before timely => before.step timely
  refine ⟨kept.conserved, kept.armed, kept.counted, fun arrival member => ?_, kept.cuts, fun keeps => ?_⟩
  · have some_ : (run flushDelayMs acts).stream.pending ≠ [] := by
      intro none_
      have size := kept.counted
      rw [none_, List.length_nil, List.length_eq_zero_iff] at size
      rw [size] at member
      cases member
    obtain ⟨due, armed, early⟩ := kept.armed some_
    exact Nat.le_trans (kept.ceiling due armed).1 (early arrival member)
  · exact keeps.invariant (show ([] : Text).length < STREAM_MAX_PENDING_LENGTH by decide)
      fun _ _ bounded steady => bounded_step bounded steady

theorem stream_flows_chunks :
    let acts : List StreamAct :=
      [⟨0, .push [0x61]⟩, ⟨10, .push [0x0a, 0x62]⟩, ⟨20, .push [0x63]⟩, ⟨35, .idleFires⟩]
    Flows 15 acts ∧ (run 15 acts).stream.pending.length < STREAM_MAX_PENDING_LENGTH := by
  intro acts
  have flows := stream_flows 15 acts (avoids_of_each (by decide))
  exact ⟨flows, flows.bounded (avoids_of_each (by decide))⟩

def longTitle (count : Nat) : Text := 0x78 :: esc :: closeBracket :: List.replicate count 0x61

theorem oscEnd_replicate (count : Nat) : oscEnd (List.replicate count 0x61) = count := by
  induction count with
  | zero => rfl
  | succ count ih =>
    rw [List.replicate_succ, oscEnd, if_neg (by decide), if_neg (by decide), ih]

theorem lex_longTitle (count : Nat) :
    lex (longTitle count) = [.char 0x78, .seq (esc :: closeBracket :: List.replicate count 0x61)] := by
  have osc : ansiAt ((esc :: closeBracket :: List.replicate count 0x61) ++ []) =
      some (esc :: closeBracket :: List.replicate count 0x61).length := by
    rw [List.append_nil, ansiAt, if_neg (by decide), if_neg (by decide), if_pos rfl, oscEnd_replicate]
    simp
  have read := lex_seq osc
  rw [List.append_nil, lex_nil] at read
  rw [longTitle, lex_char (ansiAt_ne_esc (by decide)), read]

theorem received_longTitle (stream : HighlighterStream) (none_ : stream.pending = []) (count : Nat) :
    (stream.received (longTitle count)).pending = longTitle count := by
  have absent : ∀ u, u ≠ 0x78 → u ≠ esc → u ≠ closeBracket → u ≠ 0x61 →
    lastIndexOf u (longTitle count) = none := by
    intro u first second third fourth
    refine lastIndexOf_eq_none ?_
    simp [longTitle, first, second, third, fourth]
  have boundary : findStableBoundary (longTitle count) = 0 := by
    rw [findStableBoundary, absent lineFeed (by decide) (by decide) (by decide) (by decide),
      absent carriageReturn (by decide) (by decide) (by decide) (by decide)]
    rfl
  unfold HighlighterStream.received HighlighterStream.emitLines
  rw [none_, List.nil_append, boundary, if_neg (Nat.lt_irrefl 0)]

theorem length_longTitle (cap : Nat) : (longTitle cap).length = cap + 3 := by simp [longTitle]

theorem heldEscape_longTitle {cap retained : Nat} (margin : retained < cap) (positive : 0 < retained) :
    heldEscape (longTitle cap) (cap + 3 - retained) = some 1 := by
  rw [heldEscape, lex_longTitle, heldIn, if_neg (by omega), heldIn, if_neg (by omega), if_pos]
  simp only [List.length_cons, List.length_replicate]
  omega

theorem heldBack_longTitle : heldBack (longTitle STREAM_MAX_PENDING_LENGTH) = true := by
  unfold heldBack
  rw [length_longTitle, heldEscape_longTitle (by decide) (by decide), Option.any_some]
  decide

/-- A long title that does not start the buffer leaves the buffer over its cap. -/
theorem long_title_overflows : ¬∀ flushDelayMs acts, Avoids step untimely { stream := { flushDelayMs } } acts →
    (run flushDelayMs acts).stream.pending.length < STREAM_MAX_PENDING_LENGTH := by
  intro always
  have onTime : Avoids step untimely { stream := { flushDelayMs := 15 } }
      [⟨0, .push (longTitle STREAM_MAX_PENDING_LENGTH)⟩] := by
    intro before act after parts
    cases before with
    | nil =>
      obtain ⟨rfl, -⟩ := List.cons.inj parts
      rfl
    | cons first before => simp at parts
  have bounded := always 15 _ onTime
  change (HighlighterStream.push { flushDelayMs := 15 } (longTitle STREAM_MAX_PENDING_LENGTH) 0).pending.length < _
    at bounded
  rw [HighlighterStream.push_eq, HighlighterStream.rearmTimers_pending, capped_lt_iff, received_longTitle _ rfl,
    heldBack_longTitle] at bounded
  cases bounded

end StreamRun

end NexTerminal.Terminal
