import NexTerminal.Terminal.Cuts
import NexTerminal.Terminal.OutputBuffers
import NexTerminal.Library.Sequences

namespace NexTerminal.Terminal

open Library
open AutoTrigger (withoutAnsi)

namespace ScriptOutputBuffer

theorem append_text (self : ScriptOutputBuffer) (raw : Text) (short : self.text.length ≤ self.capacity) :
    (self.append raw).text = (self.text ++ withoutAnsi raw).rtake self.capacity := by
  unfold append
  by_cases nothing : (withoutAnsi raw).length = 0
  · rw [if_pos nothing, List.length_eq_zero_iff.mp nothing, List.append_nil, rtake_of_le short]
  · rw [if_neg nothing]
    dsimp only
    split_ifs with long
    · rfl
    · exact (rtake_of_le (by omega)).symm

theorem append_writeHead (self : ScriptOutputBuffer) (raw : Text) :
    (self.append raw).writeHead = self.writeHead + (withoutAnsi raw).length := by
  unfold append
  by_cases nothing : (withoutAnsi raw).length = 0
  · rw [if_pos nothing, nothing, Nat.add_zero]
  · rw [if_neg nothing]

theorem append_capacity (self : ScriptOutputBuffer) (raw : Text) : (self.append raw).capacity = self.capacity := by
  unfold append
  dsimp only
  split_ifs <;> rfl

structure Holds (buffer : ScriptOutputBuffer) (stream : Text) : Prop where
  text : buffer.text = stream.rtake buffer.capacity
  writeHead : buffer.writeHead = stream.length

variable {self : ScriptOutputBuffer} {stream : Text}

theorem Holds.short (holds : self.Holds stream) : self.text.length ≤ self.capacity := by
  rw [holds.text, List.rtake, List.length_drop]
  omega

theorem Holds.append (holds : self.Holds stream) (raw : Text) :
    (self.append raw).Holds (stream ++ withoutAnsi raw) where
  text := by rw [append_text self raw holds.short, append_capacity, holds.text, rtake_rtake_append]
  writeHead := by rw [append_writeHead, holds.writeHead, List.length_append]

def oldest (self : ScriptOutputBuffer) : Nat := self.writeHead - self.text.length

theorem Holds.text_eq_drop (holds : self.Holds stream) : self.text = stream.drop self.oldest := by
  have whole := holds.text
  rw [List.rtake] at whole
  have size := congrArg List.length whole
  rw [List.length_drop] at size
  rw [oldest, holds.writeHead, size, whole]
  congr 1
  omega

theorem holds_appends (chunks : List Text) (holds : self.Holds stream) :
    (chunks.foldl append self).Holds (stream ++ chunks.flatMap withoutAnsi) := by
  induction chunks generalizing self stream with
  | nil => simpa using holds
  | cons chunk chunks ih =>
    rw [List.foldl_cons, List.flatMap_cons, ← List.append_assoc]
    exact ih (holds.append chunk)

theorem capacity_appends (chunks : List Text) : (chunks.foldl append self).capacity = self.capacity := by
  induction chunks generalizing self with
  | nil => rfl
  | cons chunk chunks ih => rw [List.foldl_cons, ih, append_capacity]

theorem holds_new (capacity : Nat) : Holds { capacity } [] := ⟨by simp, rfl⟩

end ScriptOutputBuffer

variable {chunks : List Text}

theorem captureText_chunks (same : chunks.flatMap withoutAnsi = withoutAnsi chunks.flatten) :
    chunks.flatMap captureText = captureText chunks.flatten := by
  unfold captureText
  rw [← same, List.filter_flatMap]

def textLines (text : Text) : List Text := text.splitOn newline

def openLine (text : Text) : Text := (textLines text).getLast?.getD []

def WithinPending (text : Text) : Prop := ∀ line ∈ textLines text, line.length ≤ MAX_PENDING_CHARS

theorem textLines_append (text more : Text) :
    textLines (text ++ more) = (textLines text).dropLast ++ (textLines more).modifyHead (openLine text ++ ·) :=
  splitOn_append newline text more

theorem textLines_eq (text : Text) : textLines text = (textLines text).dropLast ++ [openLine text] := by
  have some_ : textLines text ≠ [] := List.splitOn_ne_nil _ _
  rw [openLine, List.getLast?_eq_getLast_of_ne_nil some_, Option.getD_some, List.dropLast_append_getLast some_]

theorem newline_notMem_openLine (text : Text) : newline ∉ openLine text := by
  have mem : openLine text ∈ textLines text := by
    rw [textLines_eq text]
    exact List.mem_append_right _ (List.mem_singleton_self _)
  exact notMem_splitOn mem

theorem WithinPending.left {text more : Text} (within : WithinPending (text ++ more)) : WithinPending text := by
  unfold WithinPending at within ⊢
  rw [textLines_append] at within
  rw [textLines_eq text]
  intro line mem
  rcases List.mem_append.mp mem with closed | last
  · exact within line (List.mem_append_left _ closed)
  · obtain rfl := List.mem_singleton.mp last
    obtain ⟨first, rest, shape⟩ := List.exists_cons_of_ne_nil (List.splitOn_ne_nil newline more)
    have long := within (openLine text ++ first) (List.mem_append_right _ (by
      rw [textLines, shape]
      exact List.mem_cons_self))
    rw [List.length_append] at long
    omega

namespace TerminalCaptureBuffer

structure Captured (buffer : TerminalCaptureBuffer) (text : Text) : Prop where
  pending : buffer.pending = openLine text
  lines : buffer.lines = (textLines text).dropLast.rtake buffer.maxLines

variable {self : TerminalCaptureBuffer} {text : Text}

theorem trim_lines (self : TerminalCaptureBuffer) : self.trim.lines = self.lines.rtake self.maxLines := by
  unfold trim
  split_ifs with long
  · rfl
  · exact (rtake_of_le (by omega)).symm

theorem trim_pending (self : TerminalCaptureBuffer) : self.trim.pending = self.pending := by
  unfold trim
  split_ifs <;> rfl

theorem trim_maxLines (self : TerminalCaptureBuffer) : self.trim.maxLines = self.maxLines := by
  unfold trim
  split_ifs <;> rfl

theorem append_maxLines (self : TerminalCaptureBuffer) (data : Text) : (self.append data).maxLines = self.maxLines := by
  unfold append
  dsimp only
  split_ifs
  · rfl
  · exact trim_maxLines _

theorem Captured.append (captured : self.Captured text) (data : Text)
    (within : WithinPending (text ++ captureText data)) :
    (self.append data).Captured (text ++ captureText data) := by
  unfold TerminalCaptureBuffer.append
  by_cases nothing : (captureText data).length = 0
  · rw [if_pos nothing, List.length_eq_zero_iff.mp nothing, List.append_nil]
    exact captured
  rw [if_neg nothing]
  have segs : (self.pending ++ captureText data).splitOn newline =
      (textLines (captureText data)).modifyHead (openLine text ++ ·) := by
    rw [captured.pending]
    exact splitOn_append_of_notMem (newline_notMem_openLine text) _
  have some_ : (textLines (captureText data)).modifyHead (openLine text ++ ·) ≠ [] := by
    obtain ⟨first, rest, shape⟩ := List.exists_cons_of_ne_nil (List.splitOn_ne_nil newline (captureText data))
    rw [textLines, shape]
    exact List.cons_ne_nil _ _
  have last : ((textLines (captureText data)).modifyHead (openLine text ++ ·)).getLast?.getD [] =
      openLine (text ++ captureText data) := by
    show _ = (textLines (text ++ captureText data)).getLast?.getD []
    rw [textLines_append, List.getLast?_append_of_ne_nil _ some_]
  have short : (openLine (text ++ captureText data)).length ≤ MAX_PENDING_CHARS := by
    refine within _ ?_
    rw [textLines_eq (text ++ captureText data)]
    exact List.mem_append_right _ (List.mem_singleton_self _)
  constructor
  · rw [trim_pending]
    rw [segs, last, capPending, if_pos short]
  · rw [trim_lines, trim_maxLines]
    rw [segs, captured.lines, rtake_rtake_append, textLines_append, List.dropLast_append_of_ne_nil some_]

theorem captured_appends (chunks : List Text) (captured : self.Captured text)
    (within : WithinPending (text ++ chunks.flatMap captureText)) :
    (chunks.foldl append self).Captured (text ++ chunks.flatMap captureText) := by
  induction chunks generalizing self text with
  | nil => simpa using captured
  | cons chunk chunks ih =>
    rw [List.flatMap_cons, ← List.append_assoc] at within ⊢
    exact ih (captured.append chunk within.left) within

theorem maxLines_appends (chunks : List Text) : (chunks.foldl append self).maxLines = self.maxLines := by
  induction chunks generalizing self with
  | nil => rfl
  | cons chunk chunks ih => rw [List.foldl_cons, ih, append_maxLines]

theorem captured_new (maxLines : Nat) : Captured { maxLines } [] := ⟨rfl, by simp [textLines]⟩

theorem Captured.getText_eq {other : TerminalCaptureBuffer} (captured : self.Captured text) (also : other.Captured text)
    (same : self.maxLines = other.maxLines) : self.getText = other.getText := by
  rw [getText, getText, captured.pending, also.pending, captured.lines, also.lines, same]

end TerminalCaptureBuffer

inductive BufferAct
  | append (raw : Text)
  | scan (pattern : Pattern) (lookback : Option Int)
  | advanceCursor (position : Int)

def stripped (acts : List BufferAct) : Text :=
  acts.flatMap fun act => match act with
    | .append raw => withoutAnsi raw
    | _ => []

namespace ScriptOutputBuffer

def step (engine : RegExpEngine) (self : ScriptOutputBuffer) : BufferAct → ScriptOutputBuffer
  | .append raw => self.append raw
  | .scan pattern lookback => (self.scan engine pattern lookback).1
  | .advanceCursor position => self.advanceCursor position

def run (engine : RegExpEngine) (capacity : Nat) (acts : List BufferAct) : ScriptOutputBuffer :=
  acts.foldl (step engine) { capacity }

variable {engine : RegExpEngine} {self : ScriptOutputBuffer} {stream : Text}

theorem Holds.of_same {other : ScriptOutputBuffer} (holds : self.Holds stream) (text : other.text = self.text)
    (head : other.writeHead = self.writeHead) (capacity : other.capacity = self.capacity) : other.Holds stream :=
  ⟨by rw [text, capacity, holds.text], by rw [head, holds.writeHead]⟩

theorem advanceCursor_text (self : ScriptOutputBuffer) (pos : Int) :
    (self.advanceCursor pos).text = self.text ∧ (self.advanceCursor pos).writeHead = self.writeHead ∧
    (self.advanceCursor pos).capacity = self.capacity ∧
    (self.advanceCursor pos).firstScan = self.firstScan := by
  unfold advanceCursor
  split_ifs <;> exact ⟨rfl, rfl, rfl, rfl⟩

theorem Holds.step (holds : self.Holds stream) (act : BufferAct) :
    (self.step engine act).Holds (stream ++ stripped [act]) := by
  cases act with
  | append raw =>
    have only : stripped [.append raw] = withoutAnsi raw := List.append_nil _
    rw [only]
    exact holds.append raw
  | scan pattern lookback =>
    show (self.scan engine pattern lookback).1.Holds (stream ++ [])
    rw [List.append_nil]
    exact holds.of_same rfl rfl rfl
  | advanceCursor pos =>
    show (self.advanceCursor pos).Holds (stream ++ [])
    rw [List.append_nil]
    obtain ⟨text, head, capacity, -⟩ := advanceCursor_text self pos
    exact holds.of_same text head capacity

theorem holds_steps (acts : List BufferAct) (holds : self.Holds stream) :
    (acts.foldl (step engine) self).Holds (stream ++ stripped acts) := by
  induction acts generalizing self stream with
  | nil => simpa [stripped] using holds
  | cons act acts ih =>
    have parts : stripped (act :: acts) = stripped [act] ++ stripped acts := by simp [stripped]
    rw [List.foldl_cons, parts, ← List.append_assoc]
    exact ih (holds.step act)

theorem holds_run (capacity : Nat) (acts : List BufferAct) : (run engine capacity acts).Holds (stripped acts) :=
  holds_steps acts (holds_new capacity)

def lookback (self : ScriptOutputBuffer) (given : Option Int) : Int :=
  given.getD (if self.firstScan then DEFAULT_FIRST_LOOKBACK else 0)

def scanStart (self : ScriptOutputBuffer) (given : Option Int) : Nat :=
  max self.oldest (self.cursor - self.lookback given).toNat

theorem scan_eq (holds : self.Holds stream) (pattern : Pattern) (given : Option Int) :
    (self.scan engine pattern given).2 =
      if stream.drop (self.scanStart given) = [] then none
      else (engine.exec pattern.source pattern.flags (stream.drop (self.scanStart given))).map fun m =>
        { text := m.units
          groups := m.groups.map fun g => g.getD []
          before := (stream.drop (self.scanStart given)).take m.index
          endPosition := self.scanStart given + m.index + m.units.length } := by
  have start : max (self.writeHead - self.text.length) (max 0 (self.cursor - self.lookback given)).toNat =
      self.scanStart given := by
    rw [scanStart, oldest]
    omega
  have window : self.text.drop (self.scanStart given - (self.writeHead - self.text.length)) =
      stream.drop (self.scanStart given) := by
    have behind : self.oldest ≤ self.scanStart given := Nat.le_max_left _ _
    rw [holds.text_eq_drop, List.drop_drop]
    congr 1
    rw [← holds.text_eq_drop]
    unfold oldest at behind ⊢
    omega
  unfold scan
  dsimp only
  rw [show given.getD (if self.firstScan then DEFAULT_FIRST_LOOKBACK else 0) = self.lookback given from rfl, start,
    window]
  simp only [List.length_eq_zero_iff]

theorem cursor_step (act : BufferAct) : self.cursor ≤ (self.step engine act).cursor := by
  cases act with
  | append raw =>
    show self.cursor ≤ (self.append raw).cursor
    unfold append
    dsimp only
    split_ifs <;> exact Nat.le_refl _
  | scan => exact Nat.le_refl _
  | advanceCursor pos =>
    show self.cursor ≤ (self.advanceCursor pos).cursor
    unfold advanceCursor
    split_ifs with forward
    · dsimp only
      omega
    · exact Nat.le_refl _

theorem firstScan_step (act : BufferAct) (scanned : self.firstScan = false) :
    (self.step engine act).firstScan = false := by
  cases act with
  | append raw =>
    show (self.append raw).firstScan = false
    unfold append
    dsimp only
    split_ifs <;> exact scanned
  | scan => rfl
  | advanceCursor pos => exact (advanceCursor_text self pos).2.2.2.trans scanned

theorem capacity_steps (acts : List BufferAct) : (acts.foldl (step engine) self).capacity = self.capacity := by
  induction acts generalizing self with
  | nil => rfl
  | cons act acts ih =>
    rw [List.foldl_cons, ih]
    cases act with
    | append raw => exact append_capacity self raw
    | scan => rfl
    | advanceCursor pos => exact (advanceCursor_text self pos).2.2.1

theorem later_steps (engine : RegExpEngine) (acts : List BufferAct) (scanned : self.firstScan = false) :
    self.cursor ≤ (acts.foldl (step engine) self).cursor ∧ (acts.foldl (step engine) self).firstScan = false := by
  induction acts generalizing self with
  | nil => exact ⟨Nat.le_refl _, scanned⟩
  | cons act acts ih =>
    obtain ⟨forward, still⟩ := ih (firstScan_step act scanned)
    exact ⟨Nat.le_trans (cursor_step act) forward, still⟩

theorem cursor_le_of_scan (holds : self.Holds stream) (scanned : self.firstScan = false) {pattern : Pattern}
    {given : Option Int} (none_ : given = none ∨ given = some 0) {found : ScriptOutputBuffer.Match}
    (hit : (self.scan engine pattern given).2 = some found) :
    self.cursor ≤ found.endPosition - found.text.length := by
  have back : self.lookback given = 0 := by
    rcases none_ with rfl | rfl
    · rw [lookback, Option.getD_none, scanned]
      rfl
    · rfl
  have start : self.cursor ≤ self.scanStart given := by
    rw [scanStart, back]
    omega
  rw [scan_eq holds] at hit
  split_ifs at hit
  obtain ⟨m, -, rfl⟩ := Option.map_eq_some_iff.mp hit
  dsimp only
  omega

end ScriptOutputBuffer

/-- Each scan gives the first match in the stream from its start on, and nothing is matched twice. -/
structure ScansExactly (engine : RegExpEngine) (capacity : Nat) (acts : List BufferAct) : Prop where
  scan : ∀ pattern given, pattern.sticky = false →
    ((ScriptOutputBuffer.run engine capacity acts).scan engine pattern given).2 =
      let rest := (stripped acts).drop ((ScriptOutputBuffer.run engine capacity acts).scanStart given)
      if rest = [] then none
      else (engine.exec pattern.source pattern.flags rest).map fun m =>
        { text := m.units
          groups := m.groups.map fun g => g.getD []
          before := rest.take m.index
          endPosition := (ScriptOutputBuffer.run engine capacity acts).scanStart given + m.index + m.units.length }
  oldest : (ScriptOutputBuffer.run engine capacity acts).oldest =
    (stripped acts).length - min capacity (stripped acts).length
  placed : ∀ pattern given found, pattern.sticky = false →
    ((ScriptOutputBuffer.run engine capacity acts).scan engine pattern given).2 = some found →
      let start := (ScriptOutputBuffer.run engine capacity acts).scanStart given
      start + found.before.length + found.text.length = found.endPosition ∧
        ((stripped acts).drop start).take (found.endPosition - start) = found.before ++ found.text
  consumed : ∀ pattern given found, pattern.sticky = false →
    ((ScriptOutputBuffer.run engine capacity acts).scan engine pattern given).2 = some found →
      ∀ later pattern' given' found', pattern'.sticky = false → given' = none ∨ given' = some 0 →
        ((ScriptOutputBuffer.run engine capacity
          (acts ++ .scan pattern given :: .advanceCursor found.endPosition :: later)).scan engine pattern' given').2 =
            some found' → found.endPosition ≤ found'.endPosition - found'.text.length

theorem scansExactly (engine : RegExpEngine) (capacity : Nat) (acts : List BufferAct) :
    ScansExactly engine capacity acts := by
  have holds := @ScriptOutputBuffer.holds_run engine capacity acts
  have capacity_ : (ScriptOutputBuffer.run engine capacity acts).capacity = capacity :=
    ScriptOutputBuffer.capacity_steps acts
  refine ⟨fun pattern given _ => ScriptOutputBuffer.scan_eq holds pattern given, ?_, ?_, ?_⟩
  · have size := congrArg List.length holds.text
    rw [List.rtake, List.length_drop, capacity_] at size
    rw [ScriptOutputBuffer.oldest, holds.writeHead, size]
    omega
  · intro pattern given found _ hit
    dsimp only
    rw [ScriptOutputBuffer.scan_eq holds] at hit
    split_ifs at hit
    obtain ⟨m, exec_, rfl⟩ := Option.map_eq_some_iff.mp hit
    obtain ⟨index, units⟩ := engine.found exec_
    generalize (stripped acts).drop ((ScriptOutputBuffer.run engine capacity acts).scanStart given) = rest at *
    have pre : (rest.take m.index).length = m.index := by
      rw [List.length_take]
      omega
    refine ⟨by rw [pre], ?_⟩
    rw [Nat.add_assoc, Nat.add_sub_cancel_left, List.take_add, ← units]
  · intro pattern given found _ hit later pattern' given' found' _ none_ hit'
    have held := @ScriptOutputBuffer.holds_run engine capacity
      (acts ++ .scan pattern given :: .advanceCursor found.endPosition :: later)
    have run_ : ScriptOutputBuffer.run engine capacity
        (acts ++ .scan pattern given :: .advanceCursor found.endPosition :: later) =
        later.foldl (ScriptOutputBuffer.step engine)
          (((ScriptOutputBuffer.run engine capacity acts).scan engine pattern given).1.advanceCursor
            found.endPosition) := by
      rw [ScriptOutputBuffer.run, List.foldl_append]
      rfl
    have advanced : found.endPosition ≤
        (((ScriptOutputBuffer.run engine capacity acts).scan engine pattern given).1.advanceCursor
          found.endPosition).cursor := by
      unfold ScriptOutputBuffer.advanceCursor
      split_ifs with forward
      · simp
      · omega
    have scanned : (((ScriptOutputBuffer.run engine capacity acts).scan engine pattern given).1.advanceCursor
        found.endPosition).firstScan = false :=
      (ScriptOutputBuffer.advanceCursor_text _ _).2.2.2
    obtain ⟨kept, still⟩ := ScriptOutputBuffer.later_steps engine later scanned
    rw [run_] at held hit'
    exact Nat.le_trans advanced (Nat.le_trans kept (ScriptOutputBuffer.cursor_le_of_scan held still none_ hit'))

/-- A stream in chunks leaves the buffers as the whole stream does, and the scans of a run are
exact. -/
structure OutputFaithful (engine : RegExpEngine) (capacity maxLines : Nat) (chunks : List Text)
    (acts : List BufferAct) : Prop where
  text : (chunks.foldl ScriptOutputBuffer.append { capacity }).text =
    (ScriptOutputBuffer.append { capacity } chunks.flatten).text
  writeHead : (chunks.foldl ScriptOutputBuffer.append { capacity }).writeHead =
    (ScriptOutputBuffer.append { capacity } chunks.flatten).writeHead
  capture : WithinPending (captureText chunks.flatten) →
    (chunks.foldl TerminalCaptureBuffer.append { maxLines }).getText =
      (TerminalCaptureBuffer.append { maxLines } chunks.flatten).getText
  scans : ScansExactly engine capacity acts

theorem chunks_faithful (engine : RegExpEngine) (capacity maxLines : Nat) (acts : List BufferAct)
    (whole : NoCutInside chunks) : OutputFaithful engine capacity maxLines chunks acts := by
  have same : chunks.flatMap withoutAnsi = withoutAnsi chunks.flatten := by
    rcases withoutAnsi_chunks chunks with ⟨-, same⟩ | ⟨cut, -⟩
    · exact same
    · exact absurd whole cut
  have cut := ScriptOutputBuffer.holds_appends chunks (ScriptOutputBuffer.holds_new capacity)
  have once := (ScriptOutputBuffer.holds_new capacity).append chunks.flatten
  rw [same] at cut
  refine ⟨?_, cut.writeHead.trans once.writeHead.symm, ?_, scansExactly engine capacity acts⟩
  · rw [cut.text, once.text, ScriptOutputBuffer.capacity_appends, ScriptOutputBuffer.append_capacity]
  · intro within
    have both := captureText_chunks same
    have captured := TerminalCaptureBuffer.captured_new maxLines
    have inChunks := TerminalCaptureBuffer.captured_appends chunks captured (by rw [both]; exact within)
    have atOnce := captured.append chunks.flatten within
    rw [both] at inChunks
    refine inChunks.getText_eq atOnce ?_
    rw [TerminalCaptureBuffer.maxLines_appends, TerminalCaptureBuffer.append_maxLines]

theorem cut_not_faithful {engine : RegExpEngine} {capacity maxLines : Nat} {acts : List BufferAct}
    (inside : ¬NoCutInside chunks) : ¬OutputFaithful engine capacity maxLines chunks acts := by
  intro faithful
  rcases withoutAnsi_chunks chunks with ⟨whole, -⟩ | ⟨-, more⟩
  · exact inside whole
  · have cut := ScriptOutputBuffer.holds_appends chunks (ScriptOutputBuffer.holds_new capacity)
    have once := (ScriptOutputBuffer.holds_new capacity).append chunks.flatten
    have heads := faithful.writeHead
    rw [cut.writeHead, once.writeHead] at heads
    simp only [List.nil_append] at heads
    omega

/-- Chunks make no difference to the output, and scans are exact, exactly where no cut falls
inside an escape sequence. -/
theorem output_faithful_iff (engine : RegExpEngine) (capacity maxLines : Nat) (chunks : List Text)
    (acts : List BufferAct) : OutputFaithful engine capacity maxLines chunks acts ↔ NoCutInside chunks :=
  ⟨fun faithful => Classical.byContradiction fun inside => cut_not_faithful inside faithful,
    chunks_faithful engine capacity maxLines acts⟩

/-- A colour code that comes in two pieces stays in the output. -/
theorem split_code_kept :
    ¬∀ engine capacity maxLines chunks acts, OutputFaithful engine capacity maxLines chunks acts := by
  intro always
  have same := (always ⟨fun _ _ _ => none, fun found => nomatch found⟩ DEFAULT_CAPACITY 1000
    [[esc, openBracket, 0x33], [0x31, 0x6d]] []).writeHead
  exact absurd same (by decide)

end NexTerminal.Terminal
