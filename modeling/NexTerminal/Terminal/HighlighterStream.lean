import NexTerminal.Terminal.Cuts

namespace NexTerminal.Terminal

def STREAM_MAX_PENDING_LENGTH : Nat := 16384
def STREAM_RETAIN_MARGIN : Nat := 256
def STREAM_MAX_PENDING_PERIODS : Nat := 6

def lineFeed : UInt16 := 0x0a

def carriageReturn : UInt16 := 0x0d

def lastIndexOf (u : UInt16) : Text → Option Nat
  | [] => none
  | v :: rest =>
    match lastIndexOf u rest with
    | some index => some (index + 1)
    | none => if v = u then some 0 else none

def findStableBoundary (text : Text) : Nat :=
  max ((lastIndexOf lineFeed text).elim 0 (· + 1)) ((lastIndexOf carriageReturn text).elim 0 (· + 1))

/-- How the walk over the sequences ends: at the one the cut falls into, or before the cut. -/
inductive Walk
  | inside (start : Nat)
  | passed (lastCompleteEnd : Nat)
deriving DecidableEq

/-- The walk from an offset, where the rest of the text is. -/
def walkSequences (desired : Nat) : Nat → Text → Nat → Nat → Walk
  | 0, _, _, lastCompleteEnd => .passed lastCompleteEnd
  | fuel + 1, rest, offset, lastCompleteEnd =>
    match execAnsi rest with
    | none => .passed lastCompleteEnd
    | some (index, length) =>
      if desired ≤ offset + index then .passed lastCompleteEnd
      else if desired < offset + index + length then .inside (offset + index)
      else walkSequences desired fuel (rest.drop (index + length)) (offset + index + length) (offset + index + length)

def safeCutIndex (text : Text) (desired : Nat) : Nat :=
  if desired = 0 ∨ text.length ≤ desired then desired
  else
    match walkSequences desired (text.length + 1) text 0 0 with
    | .inside start => if start = 0 then desired else start
    | .passed lastCompleteEnd =>
      match lastIndexOf esc (text.take desired) with
      | none => desired
      | some escIdx =>
        if lastCompleteEnd ≤ escIdx then
          -- a sequence that ends before the cut has been passed; this is for one that is found all the same
          if (execAnsi (text.drop escIdx)).any fun found => found.1 = 0 && escIdx + found.2 ≤ desired then desired
          else if escIdx = 0 then desired
          else escIdx
        else desired

/-- The stream; the timers are the times at which they are due. The slices given to the
highlighter's `apply`, and so emitted, are kept in order. -/
structure HighlighterStream where
  flushDelayMs : Nat
  pending : Text := []
  flushTimer : Option Nat := none
  ceilingTimer : Option Nat := none
  slices : List Text := []
deriving DecidableEq

namespace HighlighterStream

def clearCeilingTimer (self : HighlighterStream) : HighlighterStream := { self with ceilingTimer := none }

def clearTimers (self : HighlighterStream) : HighlighterStream := { self with flushTimer := none, ceilingTimer := none }

def emit (self : HighlighterStream) (position : Nat) : HighlighterStream :=
  { self with slices := self.slices ++ [self.pending.take position], pending := self.pending.drop position }

def emitAllPending (self : HighlighterStream) : HighlighterStream :=
  if self.pending = [] then self else { self with slices := self.slices ++ [self.pending], pending := [] }

/-- Where `emitWithRetention` cuts. -/
def retentionCut (pending : Text) : Nat := safeCutIndex pending (pending.length - STREAM_RETAIN_MARGIN)

def emitWithRetention (self : HighlighterStream) : HighlighterStream :=
  if self.pending.length ≤ STREAM_RETAIN_MARGIN then self else self.emit (retentionCut self.pending)

def rearmTimers (self : HighlighterStream) (now : Nat) : HighlighterStream :=
  if self.pending = [] then self.clearTimers
  else
    { self with
      flushTimer := some (now + self.flushDelayMs)
      ceilingTimer := some (self.ceilingTimer.getD (now + self.flushDelayMs * STREAM_MAX_PENDING_PERIODS)) }

def emitLines (self : HighlighterStream) (carried : Nat) : HighlighterStream :=
  let rawBoundary := findStableBoundary self.pending
  if 0 < rawBoundary then
    let boundary := safeCutIndex self.pending rawBoundary
    if 0 < boundary then
      let emitted := self.emit boundary
      -- nothing that was carried over is left behind
      if carried ≤ boundary then emitted.clearCeilingTimer else emitted
    else self
  else self

def received (self : HighlighterStream) (text : Text) : HighlighterStream :=
  emitLines { self with pending := self.pending ++ text } self.pending.length

def push (self : HighlighterStream) (text : Text) (now : Nat) : HighlighterStream :=
  let received := self.received text
  let capped :=
    if STREAM_MAX_PENDING_LENGTH ≤ received.pending.length then received.emitWithRetention else received
  capped.rearmTimers now

def flush (self : HighlighterStream) : HighlighterStream := self.clearTimers.emitAllPending

def dispose (self : HighlighterStream) : HighlighterStream := self.flush

def onIdleFlush (self : HighlighterStream) : HighlighterStream :=
  { self with flushTimer := none }.emitAllPending.clearCeilingTimer

def onCeiling (self : HighlighterStream) : HighlighterStream := { self with ceilingTimer := none }.emitAllPending

end HighlighterStream

/-- The escape that holds a cut: the sequence it falls into, or a lone escape character before it. -/
def heldIn (cut : Nat) : Nat → Option Nat → List Token → Option Nat
  | _, stray, [] => stray
  | offset, stray, .char u :: tokens =>
    if cut ≤ offset then stray else heldIn cut (offset + 1) (if u = esc then some offset else stray) tokens
  | offset, stray, .seq units :: tokens =>
    if cut ≤ offset then stray
    else if cut < offset + units.length then some offset
    else heldIn cut (offset + units.length) none tokens

def heldEscape (text : Text) (cut : Nat) : Option Nat := heldIn cut 0 none (lex text)

variable {text : Text}

theorem lastIndexOf_lt {u : UInt16} {idx : Nat} (hit : lastIndexOf u text = some idx) :
    idx < text.length := by
  induction text generalizing idx with
  | nil => cases hit
  | cons v rest ih =>
    simp only [lastIndexOf] at hit
    cases later : lastIndexOf u rest with
    | none =>
      rw [later] at hit
      split_ifs at hit
      obtain rfl := Option.some.inj hit
      exact Nat.succ_pos _
    | some inner =>
      rw [later] at hit
      obtain rfl := Option.some.inj hit
      exact Nat.succ_lt_succ (ih later)

theorem lastIndexOf_eq_none {u : UInt16} (absent : u ∉ text) : lastIndexOf u text = none := by
  induction text with
  | nil => rfl
  | cons v rest ih =>
    rw [List.mem_cons, not_or] at absent
    rw [lastIndexOf, ih absent.2]
    exact if_neg (Ne.symm absent.1)

theorem lastIndexOf_append (u : UInt16) (text more : Text) :
    lastIndexOf u (text ++ more) = ((lastIndexOf u more).map (text.length + ·)).or (lastIndexOf u text) := by
  induction text with
  | nil => cases hit : lastIndexOf u more <;> simp [lastIndexOf, hit]
  | cons v text ih =>
    rw [List.cons_append, lastIndexOf, ih]
    cases lastIndexOf u more with
    | none => rfl
    | some idx => simp [Nat.add_right_comm]

variable {cut offset : Nat}

theorem heldIn_stop (reached : cut ≤ offset) (stray : Option Nat) (tokens : List Token) :
    heldIn cut offset stray tokens = stray := by
  cases tokens with
  | nil => rfl
  | cons token tokens => cases token <;> rw [heldIn, if_pos reached]

theorem heldIn_run {run : Text} (within : offset + run.length ≤ cut) (stray : Option Nat)
    (tokens : List Token) :
    heldIn cut offset stray (run.map .char ++ tokens) =
      heldIn cut (offset + run.length) (((lastIndexOf esc run).map (· + offset)).or stray) tokens := by
  induction run generalizing offset stray with
  | nil => simp [lastIndexOf]
  | cons u run ih =>
    rw [List.length_cons] at within
    rw [List.map_cons, List.cons_append, heldIn, if_neg (by omega), ih (by omega), List.length_cons, lastIndexOf]
    have shift : offset + 1 + run.length = offset + (run.length + 1) := by omega
    rw [shift]
    cases lastIndexOf esc run with
    | some idx => simp [Nat.add_assoc, Nat.add_comm 1]
    | none => by_cases escaped : u = esc <;> simp [escaped]

theorem heldIn_run_end {run : Text} (within : cut = offset + run.length) (rest : Text)
    (tokens : List Token) :
    heldIn cut offset none ((run ++ rest).map .char ++ tokens) = (lastIndexOf esc run).map (· + offset) := by
  rw [List.map_append, List.append_assoc, heldIn_run (by omega), heldIn_stop (by omega), Option.or_none]

theorem PlainRun.ansiAt_drop {run rest : Text} (plain : PlainRun run rest) {idx : Nat} (within : idx < run.length) :
    ansiAt ((run ++ rest).drop idx) = none := by
  induction run generalizing idx with
  | nil => cases within
  | cons u run ih =>
    cases idx with
    | zero => exact plain.1
    | succ idx => exact ih plain.2 (Nat.lt_of_succ_lt_succ within)

theorem walk_spec (desired : Nat) {fuel : Nat} {rest : Text} {offset : Nat} (enough : rest.length < fuel)
    (pre : offset ≤ desired) (within : desired ≤ offset + rest.length) :
    match walkSequences desired fuel rest offset offset with
    | .inside start => heldIn desired offset none (lex rest) = some start
    | .passed lastCompleteEnd => ∃ done run after, rest = done ++ (run ++ after) ∧
        lastCompleteEnd = offset + done.length ∧ lastCompleteEnd + run.length = desired ∧ PlainRun run after ∧
        heldIn desired offset none (lex rest) = (lastIndexOf esc run).map (· + lastCompleteEnd) := by
  induction fuel generalizing rest offset with
  | zero => cases enough
  | succ fuel ih =>
    rw [walkSequences]
    cases found : execAnsi rest with
    | none =>
      have plain := execAnsi_none found
      have parts := List.take_append_drop (desired - offset) rest
      have size : (rest.take (desired - offset)).length = desired - offset := by
        rw [List.length_take]
        omega
      have runs : PlainRun (rest.take (desired - offset)) (rest.drop (desired - offset)) := by
        rw [← parts, plainRun_append, List.append_nil] at plain
        exact plain.1
      refine ⟨[], rest.take (desired - offset), rest.drop (desired - offset), parts.symm, rfl, by omega, runs, ?_⟩
      have read := plain.lex
      rw [List.append_nil, lex_nil, List.append_nil] at read
      rw [read]
      have ended :=
        @heldIn_run_end desired offset (rest.take (desired - offset)) (by omega) (rest.drop (desired - offset)) []
      rw [parts, List.append_nil] at ended
      exact ended
    | some hit =>
      obtain ⟨index, length⟩ := hit
      obtain ⟨plain, here⟩ := execAnsi_some found
      have positive := ansiAt_pos here
      have fits := ansiAt_le here
      rw [List.length_drop] at fits
      have runSize : (rest.take index).length = index := by
        rw [List.length_take]
        omega
      have seqSize : ((rest.drop index).take length).length = length := by
        rw [List.length_take, List.length_drop]
        omega
      have read : lex rest = (rest.take index).map .char ++ .seq ((rest.drop index).take length) ::
          lex (rest.drop (index + length)) := by
        have whole := List.take_append_drop length (rest.drop index)
        rw [List.drop_drop] at whole
        have lexed := plain.lex
        rw [List.take_append_drop] at lexed
        rw [lexed]
        have seq :=
          @lex_seq ((rest.drop index).take length) (rest.drop (index + length)) (by rw [whole, seqSize]; exact here)
        rw [whole] at seq
        rw [seq]
      dsimp only
      by_cases beyond : desired ≤ offset + index
      · rw [if_pos beyond]
        have parts : (rest.take index).take (desired - offset) ++ (rest.take index).drop (desired - offset) =
          rest.take index :=
          List.take_append_drop _ _
        have size : ((rest.take index).take (desired - offset)).length = desired - offset := by
          rw [List.length_take]
          omega
        refine ⟨[], (rest.take index).take (desired - offset),
          (rest.take index).drop (desired - offset) ++ rest.drop index, ?_, rfl, by omega, ?_, ?_⟩
        · rw [List.nil_append, ← List.append_assoc, parts, List.take_append_drop]
        · rw [← parts, plainRun_append] at plain
          exact plain.1
        · have ended := @heldIn_run_end desired offset ((rest.take index).take (desired - offset)) (by omega)
            ((rest.take index).drop (desired - offset))
            (.seq ((rest.drop index).take length) :: lex (rest.drop (index + length)))
          rw [parts] at ended
          rw [read]
          exact ended
      rw [if_neg beyond]
      have over_ := @heldIn_run desired offset (rest.take index) (by omega) none
      by_cases splits : desired < offset + index + length
      · rw [if_pos splits]
        rw [read, over_, runSize, heldIn, if_neg (by omega), if_pos (by omega)]
      · rw [if_neg splits]
        have skip : heldIn desired offset none (lex rest) =
            heldIn desired (offset + index + length) none (lex (rest.drop (index + length))) := by
          rw [read, over_, runSize, heldIn, if_neg (by omega), if_neg (by omega), seqSize]
        have later := @ih (rest.drop (index + length)) (offset + index + length) (by rw [List.length_drop]; omega)
          (by omega) (by rw [List.length_drop]; omega)
        rw [skip]
        revert later
        cases walkSequences desired fuel (rest.drop (index + length)) (offset + index + length)
          (offset + index + length) with
        | inside start => exact id
        | passed lastCompleteEnd =>
          rintro ⟨done, run, after, shape, ends, reach, runs, held⟩
          refine ⟨rest.take (index + length) ++ done, run, after, ?_, ?_, reach, runs, held⟩
          · rw [List.append_assoc, ← shape, List.take_append_drop]
          · rw [ends, List.length_append, List.length_take]
            omega

theorem execAnsi_ne_zero (plain : ansiAt text = none) {found : Nat × Nat} (hit : execAnsi text = some found) :
    found.1 ≠ 0 := by
  cases text with
  | nil => cases hit
  | cons u rest =>
    rw [execAnsi, plain] at hit
    obtain ⟨-, -, rfl⟩ := Option.map_eq_some_iff.mp hit
    exact Nat.succ_ne_zero _

theorem safeCutIndex_eq {text : Text} {desired : Nat} (positive : 0 < desired) (within : desired < text.length) :
    safeCutIndex text desired =
      match heldEscape text desired with
      | none => desired
      | some start => if start = 0 then desired else start := by
  have walked := @walk_spec desired (text.length + 1) text 0 (Nat.lt_succ_self _) (Nat.zero_le _) (by omega)
  rw [safeCutIndex, if_neg (by omega), heldEscape]
  revert walked
  cases walkSequences desired (text.length + 1) text 0 0 with
  | inside start =>
    intro held
    rw [held]
  | passed lastCompleteEnd =>
    rintro ⟨done, run, after, shape, ends, reach, plain, held⟩
    rw [Nat.zero_add] at ends
    have front : text.take desired = done ++ run := by
      rw [shape, ← List.append_assoc, ← reach, ends, ← List.length_append, List.take_left]
    rw [held, front, lastIndexOf_append]
    cases stray : lastIndexOf esc run with
    | none =>
      cases earlier : lastIndexOf esc done with
      | none => rfl
      | some idx =>
        have behind := lastIndexOf_lt earlier
        simp only [Option.map_none, Option.none_or]
        rw [if_neg (by omega)]
    | some idx =>
      have inRun := lastIndexOf_lt stray
      have lone : ansiAt (text.drop (done.length + idx)) = none := by
        rw [shape, List.drop_length_add_append]
        exact plain.ansiAt_drop inRun
      simp only [Option.map_some, Option.some_or]
      rw [if_pos (by omega), if_neg]
      · by_cases start : done.length + idx = 0
        · rw [if_pos start, if_pos (by omega)]
        · rw [if_neg start, if_neg (by omega), ends, Nat.add_comm]
      · rw [Option.any_eq_true]
        rintro ⟨found, hit, same⟩
        have first : found.1 = 0 := by
          rw [Bool.and_eq_true] at same
          exact of_decide_eq_true same.1
        exact execAnsi_ne_zero lone hit first

def unitCount (tokens : List Token) : Nat := (tokens.flatMap Token.units).length

theorem unitCount_cons (token : Token) (tokens : List Token) :
    unitCount (token :: tokens) = token.units.length + unitCount tokens := by
  rw [unitCount, List.flatMap_cons, List.length_append, unitCount]

/-- The position falls strictly inside the sequence that starts there. -/
def InsideFrom (tokens : List Token) (position start : Nat) : Prop :=
  ∃ before units after, tokens = before ++ .seq units :: after ∧ unitCount before = start ∧
    start < position ∧ position < start + units.length

variable {position start : Nat}

theorem InsideFrom.cons {tokens : List Token} (inside : InsideFrom tokens position start)
    (token : Token) : InsideFrom (token :: tokens) (token.units.length + position) (token.units.length + start) := by
  obtain ⟨pre, units, after, rfl, rfl, low, high⟩ := inside
  exact ⟨token :: pre, units, after, rfl, unitCount_cons token pre, by omega, by omega⟩

variable {tokens : List Token}

theorem InsideFrom.boundary (inside : InsideFrom tokens position start) :
    Boundary tokens start := by
  obtain ⟨pre, -, -, rfl, rfl, -, -⟩ := inside
  exact ⟨pre, _, rfl, rfl⟩

theorem Boundary.not_inside (boundary : Boundary tokens position) :
    ¬InsideFrom tokens position start := by
  rintro ⟨pre, units, after, shape, rfl, low, high⟩
  obtain ⟨kept, rest, rfl, size⟩ := boundary
  rcases List.append_eq_append_iff.mp shape with ⟨more, parts, -⟩ | ⟨more, parts, parts'⟩
  · rw [parts] at low
    simp only [unitCount, List.flatMap_append, List.length_append] at low
    omega
  · cases more with
    | nil =>
      rw [parts, List.append_nil] at size
      rw [unitCount] at low
      omega
    | cons token more =>
      obtain ⟨rfl, -⟩ := List.cons.inj parts'
      rw [parts, List.flatMap_append, List.length_append, List.flatMap_cons, List.length_append] at size
      simp only [Token.units, unitCount] at size high
      omega

theorem InsideFrom.unique {position start other : Nat} (inside : InsideFrom tokens position start)
    (also : InsideFrom tokens position other) : start = other := by
  rcases Nat.lt_trichotomy start other with less | same | more
  · obtain ⟨pre, units, after, shape, size, -, high⟩ := inside
    have starts := also.boundary
    obtain ⟨-, -, -, -, -, low', -⟩ := also
    have within : InsideFrom tokens other start := ⟨pre, units, after, shape, size, less, by omega⟩
    exact absurd within starts.not_inside
  · exact same
  · obtain ⟨pre, units, after, shape, size, -, high⟩ := also
    have starts := inside.boundary
    obtain ⟨-, -, -, -, -, low', -⟩ := inside
    have within : InsideFrom tokens start other := ⟨pre, units, after, shape, size, more, by omega⟩
    exact absurd within starts.not_inside

/-- The cut falls between tokens, or the escape that holds it is the sequence it falls into. -/
theorem heldIn_spec (cut : Nat) {offset : Nat} (stray : Option Nat) (pre : offset ≤ cut)
    (within : cut ≤ offset + unitCount tokens) :
    (Boundary tokens (cut - offset) ∧
      (heldIn cut offset stray tokens = none ∨ heldIn cut offset stray tokens = stray ∨
      ∃ start, heldIn cut offset stray tokens = some (offset + start) ∧ Boundary tokens start)) ∨
    ∃ start, heldIn cut offset stray tokens = some (offset + start) ∧ InsideFrom tokens (cut - offset) start := by
  induction tokens generalizing offset stray with
  | nil =>
    have reached : cut - offset = 0 := by
      rw [unitCount] at within
      simp at within
      omega
    rw [reached]
    exact .inl ⟨boundary_zero _, .inr (.inl rfl)⟩
  | cons token tokens ih =>
    by_cases reached : cut ≤ offset
    · have none_ : cut - offset = 0 := by omega
      rw [none_, heldIn_stop reached]
      exact .inl ⟨boundary_zero _, .inr (.inl rfl)⟩
    rw [unitCount_cons] at within
    cases token with
    | char u =>
      rw [heldIn, if_neg reached]
      have step : cut - offset = (Token.char u).units.length + (cut - (offset + 1)) := by
        rw [Token.units, List.length_singleton]
        omega
      rw [step]
      rcases @ih (offset + 1) (if u = esc then some offset else stray) (by omega) (by omega) with ⟨boundary,
        held⟩ | ⟨start, held, inside⟩
      · refine .inl ⟨boundary_cons.mpr (.inr ⟨_, boundary, rfl⟩), ?_⟩
        rcases held with none_ | same | ⟨start, held, starts⟩
        · exact .inl none_
        · rw [same]
          by_cases escaped : u = esc
          · rw [if_pos escaped]
            exact .inr (.inr ⟨0, rfl, boundary_zero _⟩)
          · rw [if_neg escaped]
            exact .inr (.inl rfl)
        · refine .inr (.inr ⟨1 + start, ?_, boundary_cons.mpr (.inr ⟨_, starts, rfl⟩)⟩)
          rw [held, Nat.add_assoc]
      · refine .inr ⟨1 + start, ?_, inside.cons (.char u)⟩
        rw [held, Nat.add_assoc]
    | seq units =>
      rw [heldIn, if_neg reached]
      by_cases splits : cut < offset + units.length
      · rw [if_pos splits]
        exact .inr ⟨0, rfl, [], units, tokens, rfl, rfl, by omega, by omega⟩
      · rw [if_neg splits]
        have step : cut - offset = (Token.seq units).units.length + (cut - (offset + units.length)) := by
          rw [Token.units]
          omega
        rw [step]
        rcases @ih (offset + units.length) none (by omega) (by omega) with ⟨boundary, held⟩ |
          ⟨start, held, inside⟩
        · refine .inl ⟨boundary_cons.mpr (.inr ⟨_, boundary, rfl⟩), ?_⟩
          rcases held with none_ | none_ | ⟨start, held, starts⟩
          · exact .inl none_
          · exact .inl none_
          · refine .inr (.inr ⟨units.length + start, ?_, boundary_cons.mpr (.inr ⟨_, starts, rfl⟩)⟩)
            rw [held, Nat.add_assoc]
        · refine .inr ⟨units.length + start, ?_, inside.cons (.seq units)⟩
          rw [held, Nat.add_assoc]

theorem safeCutIndex_inside {desired start : Nat} (inside : InsideFrom (lex text) (safeCutIndex text desired) start) :
    start = 0 := by
  have size : unitCount (lex text) = text.length := congrArg List.length (units_lex text)
  have bounds : 0 < safeCutIndex text desired ∧ safeCutIndex text desired < text.length := by
    obtain ⟨pre, units, after, shape, rfl, low, high⟩ := inside
    rw [shape, unitCount, List.flatMap_append, List.length_append, List.flatMap_cons, List.length_append] at size
    simp only [Token.units, unitCount] at size low high
    omega
  by_cases trivial_ : desired = 0 ∨ text.length ≤ desired
  · have same : safeCutIndex text desired = desired := by rw [safeCutIndex, if_pos trivial_]
    omega
  have positive : 0 < desired := by omega
  have within : desired < text.length := by omega
  have spec := heldIn_spec desired none (Nat.zero_le desired) (by omega : desired ≤ 0 + unitCount (lex text))
  simp only [Nat.zero_add] at spec
  rw [safeCutIndex_eq positive within] at inside
  change (Boundary (lex text) desired ∧ (heldEscape text desired = none ∨ heldEscape text desired = none ∨
    ∃ start, heldEscape text desired = some start ∧ Boundary (lex text) start)) ∨
    ∃ start, heldEscape text desired = some start ∧ InsideFrom (lex text) desired start at spec
  cases held : heldEscape text desired with
  | none =>
    rw [held] at inside spec
    rcases spec with ⟨boundary, -⟩ | ⟨start, none_, -⟩
    · exact absurd inside boundary.not_inside
    · cases none_
  | some first =>
    rw [held] at inside spec
    dsimp only at inside
    split_ifs at inside with zero
    · subst zero
      rcases spec with ⟨boundary, -⟩ | ⟨other, same, also⟩
      · exact absurd inside boundary.not_inside
      · obtain rfl := Option.some.inj same
        exact inside.unique also
    · rcases spec with ⟨-, none_ | none_ | ⟨other, same, starts⟩⟩ | ⟨other, same, also⟩
      · cases none_
      · cases none_
      · obtain rfl := Option.some.inj same
        exact absurd inside starts.not_inside
      · obtain rfl := Option.some.inj same
        exact absurd inside also.boundary.not_inside

end NexTerminal.Terminal
