import NexTerminal.Tftp.PacketRoundTrip

/-! Byte-bounded line framing on a stream whose callbacks may deliver more of it
(`boundedLineReader.ts`). A buffer stands for the bytes of it that are in use. -/

namespace NexTerminal.Host.Bounded

open Dhcp (Text Bytes fromUtf8Lossy)
open Tftp (utf8Bytes_eq notMem_utf8Bytes)
open Library

def maxRpcLineBytes : Nat := 1048576

def newline : UInt8 := 0x0a
def carriageReturn : UInt8 := 0x0d

/-- A value of a `data` event. -/
inductive Chunk
  | buffer (bytes : Bytes)
  | string (value : Text)
deriving DecidableEq

def Chunk.bytes : Chunk → Bytes
  | .buffer bytes => bytes
  | .string value => Tftp.utf8Bytes value

/-- What befalls an attached reader, also from inside a callback. A callback that throws ends
with a dispose. -/
inductive Action
  | data (chunk : Chunk)
  | finish
  | dispose
deriving DecidableEq

inductive Event
  | line (text : Text)
  | error (message : String)
deriving DecidableEq

structure Options where
  maxBytes : Nat := maxRpcLineBytes
  /-- What `onLine` and `onError` do, by the calls up to and with the present one. -/
  respond : List Event → List Action

structure Attached where
  active : Bool := true
  lineBuffer : Bytes := []
  pendingBuffer : Bytes := []
  endQueued : Bool := false
  /-- Calls of `onLine` and `onError`. -/
  calls : List Event := []
  emitted : Bytes := []
  ended : Bool := false
  disposed : Bool := false
  /-- What was waiting when a chunk from inside a callback was refused, with that chunk. -/
  refused : Option Bytes := none
deriving DecidableEq

def attachBoundedLineReader (maxBytes : Int) : Except String Attached :=
  if maxBytes.natAbs > 2 ^ 53 - 1 ∨ maxBytes < 0 then
    .error "maxBytes must be a non-negative safe integer."
  else .ok {}

def oversize (maxBytes : Nat) : Event := .error s!"RPC line exceeds {maxBytes} bytes."

/-- The text of a line, as `takeLine` decodes it. -/
def lineText (stripTrailingCarriageReturn : Bool) (line : Bytes) : Text :=
  fromUtf8Lossy none
    (if stripTrailingCarriageReturn ∧ line.getLast? = some carriageReturn then line.dropLast else line)

namespace Attached

def record (reader : Attached) : Action → Attached
  | .data chunk => if reader.ended then reader else { reader with emitted := reader.emitted ++ chunk.bytes }
  | .finish => { reader with ended := true }
  | .dispose => { reader with disposed := reader.disposed || reader.active }

def detach (reader : Attached) : Attached :=
  if reader.active then
    { reader with active := false, lineBuffer := [], pendingBuffer := [], endQueued := false }
  else reader

section

variable (options : Options)

/-- The reader is detached before the call, so that it takes up nothing the callback delivers. -/
def rejectOversize (reader : Attached) : Attached :=
  if reader.active then
    let reader := reader.detach
    let calls := reader.calls ++ [oversize options.maxBytes]
    (options.respond calls).foldl record { reader with calls := calls }
  else reader

/-- `onData`, `onEnd` and the disposer while a chunk is being processed. -/
def queue (reader : Attached) : Action → Attached
  | .data chunk =>
    if !reader.active || reader.endQueued then reader
    else if chunk.bytes.length = 0 then reader
    else if reader.pendingBuffer.length + chunk.bytes.length > options.maxBytes then
      { reader with refused := some (reader.pendingBuffer ++ chunk.bytes) }.rejectOversize options
    else { reader with pendingBuffer := reader.pendingBuffer ++ chunk.bytes }
  | .finish => if !reader.active || reader.endQueued then reader else { reader with endQueued := true }
  | .dispose => reader.detach

def reenter (reader : Attached) (action : Action) : Attached := (reader.record action).queue options action

def deliverLine (line : Text) (reader : Attached) : Attached :=
  let calls := reader.calls ++ [.line line]
  (options.respond calls).foldl (reenter options) { reader with calls := calls }

def appendLine (part : Bytes) (reader : Attached) : Attached × Bool :=
  if reader.lineBuffer.length + part.length > options.maxBytes then (reader.rejectOversize options, false)
  else ({ reader with lineBuffer := reader.lineBuffer ++ part }, true)

def processParts : List Bytes → Attached → Attached
  | [], reader => reader
  | [last], reader => (reader.appendLine options last).1
  | part :: rest, reader =>
    match reader.appendLine options part with
    | (reader, false) => reader
    | (reader, true) =>
      let reader := { reader with lineBuffer := [] }.deliverLine options (lineText true reader.lineBuffer)
      if reader.active then processParts rest reader else reader

def processBufferData (chunk : Bytes) (reader : Attached) : Attached :=
  if reader.active then processParts options (chunk.splitOn newline) reader else reader

def processStringData (value : Text) (reader : Attached) : Attached :=
  if reader.active then processParts options ((value.splitOn '\n').map Tftp.utf8Bytes) reader else reader

def processEnd (reader : Attached) : Attached :=
  if reader.active then
    let detached := reader.detach
    if reader.lineBuffer.length = 0 then detached
    else detached.deliverLine options (lineText false reader.lineBuffer)
  else reader

/-- One round of `drain`. -/
def drainStep (reader : Attached) : Attached :=
  if reader.pendingBuffer.length > 0 then
    { reader with pendingBuffer := [] }.processBufferData options reader.pendingBuffer
  else reader.processEnd options

/-- `onData`, `onEnd` and the disposer while nothing is being processed. The rounds of `drain`
that follow are steps of their own: callbacks may keep it going for ever. -/
def act (reader : Attached) (action : Action) : Attached :=
  let reader := reader.record action
  match action with
  | .data chunk =>
    if !reader.active || reader.endQueued then reader
    else if chunk.bytes.length = 0 then reader
    else
      match chunk with
      | .buffer bytes => reader.processBufferData options bytes
      | .string value => reader.processStringData options value
  | .finish => if !reader.active || reader.endQueued then reader else { reader with endQueued := true }
  | .dispose => reader.detach

end

/-- `drain` has nothing left to do. -/
def idle (reader : Attached) : Bool := !reader.active || (reader.pendingBuffer.isEmpty && !reader.endQueued)

inductive Runs (options : Options) : Attached → Prop
  | attach {reader} : attachBoundedLineReader options.maxBytes = .ok reader → Runs options reader
  | act {reader} (action : Action) : Runs options reader → reader.idle → Runs options (reader.act options action)
  | drain {reader} : Runs options reader → ¬ reader.idle → Runs options (reader.drainStep options)

end Attached

def splitParts (maxBytes : Nat) (ended : Bool) : List Bytes → List Event
  | [] => []
  | [last] =>
    if maxBytes < last.length then [oversize maxBytes]
    else if ended && !last.isEmpty then [.line (lineText false last)]
    else []
  | part :: rest =>
    if maxBytes < part.length then [oversize maxBytes]
    else .line (lineText true part) :: splitParts maxBytes ended rest

/-- The lines of a stream up to the first that is too long, and the error for that one. -/
def referenceSplit (maxBytes : Nat) (ended : Bool) (stream : Bytes) : List Event :=
  splitParts maxBytes ended (stream.splitOn newline)

section

variable {maxBytes : Nat} {ended : Bool} {part last : Bytes} {parts : List Bytes}

theorem splitParts_last :
    splitParts maxBytes ended [last] =
      if maxBytes < last.length then [oversize maxBytes]
      else if ended && !last.isEmpty then [.line (lineText false last)]
      else [] := rfl

theorem splitParts_cons (more : parts ≠ []) :
    splitParts maxBytes ended (part :: parts) =
      if maxBytes < part.length then [oversize maxBytes]
      else .line (lineText true part) :: splitParts maxBytes ended parts := by
  cases parts with
  | nil => exact absurd rfl more
  | cons => rfl

theorem splitParts_long (long : maxBytes < part.length) (parts : List Bytes) :
    splitParts maxBytes ended (part :: parts) = [oversize maxBytes] := by
  cases parts with
  | nil => rw [splitParts_last, if_pos long]
  | cons => rw [splitParts_cons (List.cons_ne_nil _ _), if_pos long]

end

def terminated (line : Bytes) : Bytes := line ++ [newline]

def Short (maxBytes : Nat) (line : Bytes) : Prop := newline ∉ line ∧ line.length ≤ maxBytes

def delivered (lines : List Bytes) : List Event := lines.map fun line => .line (lineText true line)

theorem delivered_append (lines : List Bytes) (line : Bytes) :
    delivered (lines ++ [line]) = delivered lines ++ [.line (lineText true line)] := by
  rw [delivered, List.map_append]
  rfl

section

variable {maxBytes : Nat} {lines : List Bytes} {line rest : Bytes}

theorem referenceSplit_line (ended : Bool) (short : Short maxBytes line) (rest : Bytes) :
    referenceSplit maxBytes ended (terminated line ++ rest) =
      .line (lineText true line) :: referenceSplit maxBytes ended rest := by
  have parts : (terminated line ++ rest).splitOn newline = line :: rest.splitOn newline := by
    rw [terminated, List.append_assoc]
    exact List.splitOn_append_cons_self_of_not_mem short.1 rest
  rw [referenceSplit, parts, splitParts_cons (List.splitOn_ne_nil _ _), if_neg (Nat.not_lt.mpr short.2)]
  rfl

theorem referenceSplit_lines (ended : Bool) (short : ∀ line ∈ lines, Short maxBytes line) (rest : Bytes) :
    referenceSplit maxBytes ended (lines.flatMap terminated ++ rest) =
      delivered lines ++ referenceSplit maxBytes ended rest := by
  induction lines with
  | nil => rfl
  | cons line lines ih =>
    have later := ih fun other mem => short other (List.mem_cons_of_mem _ mem)
    rw [List.flatMap_cons, List.append_assoc, referenceSplit_line ended (short line List.mem_cons_self), later]
    rfl

theorem referenceSplit_open (ended : Bool) (short : Short maxBytes rest) :
    referenceSplit maxBytes ended rest = if ended && !rest.isEmpty then [.line (lineText false rest)] else [] := by
  rw [referenceSplit, List.splitOn_eq_singleton short.1, splitParts_last, if_neg (Nat.not_lt.mpr short.2)]

theorem referenceSplit_long (ended : Bool) (plain : newline ∉ line) (long : maxBytes < line.length) (rest : Bytes) :
    referenceSplit maxBytes ended (line ++ rest) = [oversize maxBytes] := by
  obtain ⟨first, later, shape⟩ := List.exists_cons_of_ne_nil (List.splitOn_ne_nil newline rest)
  have longer : maxBytes < (line ++ first).length := by
    rw [List.length_append]
    omega
  rw [referenceSplit, splitOn_append_of_notMem plain, shape, List.modifyHead_cons, splitParts_long longer]

end

namespace Attached

/-- A reader that has delivered these lines and was given these bytes of the chunk it is at. -/
structure Reading (options : Options) (lines : List Bytes) (ahead : Bytes) (reader : Attached) : Prop where
  active : reader.active = true
  calls : reader.calls = delivered lines
  emitted : reader.emitted = lines.flatMap terminated ++ (reader.lineBuffer ++ (ahead ++ reader.pendingBuffer))
  short : ∀ line ∈ lines, Short options.maxBytes line
  line : Short options.maxBytes reader.lineBuffer
  endQueued : reader.endQueued = reader.ended
  undisposed : reader.disposed = false
  unrefused : reader.refused = none

inductive Ending (options : Options) (rest : Bytes) (reader : Attached) : List Event → Prop
  | disposed : reader.disposed = true → reader.refused = none → Ending options rest reader []
  | long {line more : Bytes} : rest = line ++ more → newline ∉ line → options.maxBytes < line.length →
      reader.disposed = false → reader.refused = none → Ending options rest reader [oversize options.maxBytes]
  | refused {backlog history chunk} : reader.refused = some backlog → options.maxBytes < backlog.length →
      backlog <:+: reader.emitted → .data chunk ∈ options.respond history → chunk.bytes ≠ [] →
      chunk.bytes <:+ backlog → Ending options rest reader [oversize options.maxBytes]
  | closed : reader.ended = true → Short options.maxBytes rest → reader.disposed = false →
    reader.refused = none → Ending options rest reader (if rest.isEmpty then [] else [.line (lineText false rest)])

structure Stopped (options : Options) (lines : List Bytes) (rest : Bytes) (reader : Attached) : Prop where
  inactive : reader.active = false
  emitted : reader.emitted = lines.flatMap terminated ++ rest
  short : ∀ line ∈ lines, Short options.maxBytes line
  calls : ∃ last, reader.calls = delivered lines ++ last ∧ Ending options rest reader last

inductive Follows (options : Options) (ahead : Bytes) (reader : Attached) : Prop
  | reading (lines : List Bytes) : Reading options lines ahead reader → Follows options ahead reader
  | stopped (lines : List Bytes) (rest : Bytes) : Stopped options lines rest reader → Follows options ahead reader

section

variable {options : Options} {lines : List Bytes} {rest ahead : Bytes} {reader : Attached}

theorem Stopped.record (stopped : Stopped options lines rest reader) (action : Action) :
    ∃ rest, Stopped options lines rest (reader.record action) := by
  obtain ⟨inactive, emitted, short, last, calls, ending⟩ := stopped
  cases action with
  | data chunk =>
    by_cases ceased : reader.ended = true
    · rw [Attached.record, if_pos ceased]
      exact ⟨rest, inactive, emitted, short, last, calls, ending⟩
    · rw [Attached.record, if_neg ceased]
      have longer : reader.emitted ++ chunk.bytes = lines.flatMap terminated ++ (rest ++ chunk.bytes) := by
        rw [emitted, List.append_assoc]
      refine ⟨rest ++ chunk.bytes, inactive, longer, short, last, calls, ?_⟩
      cases ending with
      | disposed disposed unrefused => exact .disposed disposed unrefused
      | long split plain long undisposed unrefused =>
        exact .long (by rw [split, List.append_assoc]) plain long undisposed unrefused
      | refused refused long inside responds ne suffix =>
        exact .refused refused long (inside.trans (List.prefix_append _ _).isInfix) responds ne suffix
      | closed ended => exact absurd ended ceased
  | finish =>
    refine ⟨rest, inactive, emitted, short, last, calls, ?_⟩
    cases ending with
    | disposed disposed unrefused => exact .disposed disposed unrefused
    | long split plain long undisposed unrefused => exact .long split plain long undisposed unrefused
    | refused refused long inside responds ne suffix =>
      exact .refused refused long inside responds ne suffix
    | closed ended short undisposed unrefused => exact .closed rfl short undisposed unrefused
  | dispose =>
    have same : (reader.disposed || reader.active) = reader.disposed := by
      rw [inactive, Bool.or_false]
    rw [Attached.record, same]
    exact ⟨rest, inactive, emitted, short, last, calls, ending⟩

theorem Stopped.records (stopped : Stopped options lines rest reader) (actions : List Action) :
    ∃ rest, Stopped options lines rest (actions.foldl Attached.record reader) := by
  induction actions generalizing reader rest with
  | nil => exact ⟨rest, stopped⟩
  | cons action actions ih =>
    obtain ⟨rest, stopped⟩ := stopped.record action
    exact ih stopped

theorem reenter_inactive (inactive : reader.active = false) (action : Action) :
    reader.reenter options action = reader.record action := by
  cases action with
  | data chunk => cases ceased : reader.ended <;> simp [reenter, Attached.record, queue, inactive, ceased]
  | finish => simp [reenter, Attached.record, queue, inactive]
  | dispose => simp [reenter, Attached.record, queue, detach, inactive]

theorem Stopped.reenters (stopped : Stopped options lines rest reader) (actions : List Action) :
    ∃ rest, Stopped options lines rest (actions.foldl (reenter options) reader) := by
  induction actions generalizing reader rest with
  | nil => exact ⟨rest, stopped⟩
  | cons action actions ih =>
    rw [List.foldl_cons, reenter_inactive stopped.inactive]
    obtain ⟨rest, stopped⟩ := stopped.record action
    exact ih stopped

theorem act_inactive (inactive : reader.active = false) (action : Action) :
    reader.act options action = reader.record action := by
  cases action with
  | data chunk => cases ceased : reader.ended <;> simp [act, Attached.record, inactive, ceased]
  | finish => simp [act, Attached.record, inactive]
  | dispose => simp [act, Attached.record, detach, inactive]

theorem record_calls (action : Action) : (reader.record action).calls = reader.calls := by
  cases action with
  | data chunk =>
    rw [Attached.record]
    split <;> rfl
  | finish | dispose => rfl

theorem record_active (action : Action) : (reader.record action).active = reader.active := by
  cases action with
  | data chunk =>
    rw [Attached.record]
    split <;> rfl
  | finish | dispose => rfl

theorem detach_active (active : reader.active = true) :
    reader.detach = { reader with active := false, lineBuffer := [], pendingBuffer := [], endQueued := false } :=
  if_pos active

def rejected (maxBytes : Nat) (reader : Attached) : Attached :=
  { reader with
    active := false, lineBuffer := [], pendingBuffer := [], endQueued := false
    calls := reader.calls ++ [oversize maxBytes] }

theorem stopped_reject (reader : Attached) (active : reader.active = true) (calls : reader.calls = delivered lines)
    (emitted : reader.emitted = lines.flatMap terminated ++ rest)
    (short : ∀ line ∈ lines, Short options.maxBytes line)
    (ending : Ending options rest (reader.rejected options.maxBytes) [oversize options.maxBytes]) :
    ∃ rest, Stopped options lines rest (reader.rejectOversize options) := by
  have stopped : Stopped options lines rest (reader.rejected options.maxBytes) :=
    ⟨rfl, emitted, short, _, congrArg (· ++ _) calls, ending⟩
  rw [rejectOversize, if_pos active, detach_active active]
  exact stopped.records _

theorem Reading.reject_long {part more : Bytes} (reading : Reading options lines (part ++ more) reader)
    (plain : newline ∉ part) (long : options.maxBytes < reader.lineBuffer.length + part.length) :
    ∃ rest, Stopped options lines rest (reader.rejectOversize options) := by
  refine stopped_reject reader reading.active reading.calls reading.emitted reading.short ?_
  have split : reader.lineBuffer ++ (part ++ more ++ reader.pendingBuffer) =
      (reader.lineBuffer ++ part) ++ (more ++ reader.pendingBuffer) := by
    rw [List.append_assoc, List.append_assoc]
  refine .long split ?_ ?_ reading.undisposed reading.unrefused
  · rw [List.mem_append, not_or]
    exact ⟨reading.line.1, plain⟩
  · rwa [List.length_append]

variable {history : List Event}

/-- A chunk from inside a callback goes behind what is waiting, or is refused with it. -/
theorem Reading.reenter_data {chunk : Chunk} (reading : Reading options lines ahead reader)
    (responds : .data chunk ∈ options.respond history) :
    Follows options ahead (reader.reenter options (.data chunk)) := by
  rw [reenter, Attached.record]
  by_cases ceased : reader.ended = true
  · have queued : (!reader.active || reader.endQueued) = true := by
      rw [reading.endQueued, ceased, Bool.or_true]
    rw [if_pos ceased, queue, if_pos queued]
    exact .reading lines reading
  have taken : ¬ (!reader.active || reader.endQueued) = true := by
    rw [reading.active, reading.endQueued, Bool.eq_false_of_not_eq_true ceased]
    exact Bool.false_ne_true
  rw [if_neg ceased, queue, if_neg taken]
  have emitted : reader.emitted ++ chunk.bytes = lines.flatMap terminated ++
      (reader.lineBuffer ++ (ahead ++ (reader.pendingBuffer ++ chunk.bytes))) := by
    rw [reading.emitted]
    simp
  by_cases empty : chunk.bytes.length = 0
  · rw [List.length_eq_zero_iff.mp empty, List.append_nil]
    exact .reading lines reading
  rw [if_neg empty]
  by_cases much : reader.pendingBuffer.length + chunk.bytes.length > options.maxBytes
  · rw [if_pos much]
    have beyond : options.maxBytes < (reader.pendingBuffer ++ chunk.bytes).length := by
      rwa [List.length_append]
    have inside : reader.pendingBuffer ++ chunk.bytes <:+: reader.emitted ++ chunk.bytes := by
      rw [emitted, ← List.append_assoc, ← List.append_assoc]
      exact (List.suffix_append _ _).isInfix
    let crowded : Attached := { reader with
      emitted := reader.emitted ++ chunk.bytes, refused := some (reader.pendingBuffer ++ chunk.bytes) }
    obtain ⟨rest, stopped⟩ := stopped_reject crowded reading.active reading.calls emitted reading.short
      (.refused rfl beyond inside responds (List.length_eq_zero_iff.not.mp empty) (List.suffix_append _ _))
    exact .stopped lines rest stopped
  · rw [if_neg much]
    exact .reading lines { reading with emitted := emitted }

theorem Reading.dispose (reading : Reading options lines ahead reader) :
    ∃ rest, Stopped options lines rest (reader.record .dispose).detach := by
  have active : (reader.record .dispose).active = true := reading.active
  have disposed : (reader.disposed || reader.active) = true := by
    rw [reading.active, Bool.or_true]
  rw [detach_active active]
  have calls : reader.calls = delivered lines ++ [] := by
    rw [List.append_nil, reading.calls]
  exact ⟨_, rfl, reading.emitted, reading.short, [], calls, .disposed disposed reading.unrefused⟩

theorem Follows.reenter {action : Action} (follows : Follows options ahead reader)
    (responds : action ∈ options.respond history) : Follows options ahead (reader.reenter options action) := by
  cases follows with
  | stopped lines rest stopped =>
    obtain ⟨rest, later⟩ := stopped.record action
    rw [reenter_inactive stopped.inactive]
    exact .stopped lines rest later
  | reading lines reading =>
    cases action with
    | data chunk => exact reading.reenter_data responds
    | finish =>
      rw [Attached.reenter, queue]
      split
      · next queued =>
        have ceased : reader.ended = true := by
          simpa [Attached.record, reading.active, reading.endQueued] using queued
        exact .reading lines { reading with endQueued := reading.endQueued.trans ceased }
      · exact .reading lines { reading with endQueued := rfl }
    | dispose =>
      obtain ⟨rest, stopped⟩ := reading.dispose
      exact .stopped lines rest stopped

theorem Follows.reenters (follows : Follows options ahead reader) :
    Follows options ahead ((options.respond history).foldl (Attached.reenter options) reader) :=
  List.foldlRecOn _ _ follows fun _ follows _ responds => follows.reenter responds

theorem Reading.append {part more : Bytes} (reading : Reading options lines (part ++ more) reader)
    (plain : newline ∉ part) :
    (∃ rest stopped, reader.appendLine options part = (stopped, false) ∧ Stopped options lines rest stopped) ∨
      reader.appendLine options part = ({ reader with lineBuffer := reader.lineBuffer ++ part }, true) ∧
        Reading options lines more { reader with lineBuffer := reader.lineBuffer ++ part } := by
  rw [appendLine]
  by_cases long : reader.lineBuffer.length + part.length > options.maxBytes
  · rw [if_pos long]
    obtain ⟨rest, stopped⟩ := reading.reject_long plain long
    exact .inl ⟨rest, _, rfl, stopped⟩
  · rw [if_neg long]
    refine .inr ⟨rfl, { reading with emitted := ?_, line := ⟨?_, ?_⟩ }⟩
    · rw [reading.emitted, List.append_assoc, List.append_assoc]
    · rw [List.mem_append, not_or]
      exact ⟨reading.line.1, plain⟩
    · rw [List.length_append]
      exact Nat.le_of_not_lt long

theorem Reading.deliver {more : Bytes} (reading : Reading options lines (newline :: more) reader) :
    Follows options more
      ({ reader with lineBuffer := [] }.deliverLine options (lineText true reader.lineBuffer)) := by
  refine Follows.reenters (.reading (lines ++ [reader.lineBuffer])
    { reading with calls := ?_, emitted := ?_, short := ?_, line := ?_ })
  · rw [delivered_append, ← reading.calls]
  · rw [reading.emitted, List.flatMap_append, List.flatMap_singleton, terminated]
    simp
  · intro line mem
    rcases List.mem_append.mp mem with earlier | last
    · exact reading.short line earlier
    · rw [List.mem_singleton.mp last]
      exact reading.line
  · exact ⟨List.not_mem_nil, Nat.zero_le _⟩

theorem Reading.parts {parts : List Bytes} (plain : ∀ part ∈ parts, newline ∉ part)
    (reading : Reading options lines ([newline].intercalate parts) reader) :
    Follows options [] (reader.processParts options parts) := by
  induction parts generalizing lines reader with
  | nil => exact .reading lines reading
  | cons part parts ih =>
    have head := plain part List.mem_cons_self
    have later := fun other mem => plain other (List.mem_cons_of_mem _ mem)
    cases parts with
    | nil =>
      rw [processParts]
      rcases reading.append head with ⟨rest, stopped, same, holds⟩ | ⟨same, appended⟩
      · rw [same]
        exact .stopped lines rest holds
      · rw [same]
        exact .reading lines appended
    | cons next parts =>
      unfold processParts
      rcases reading.append head with ⟨rest, stopped, same, holds⟩ | ⟨same, appended⟩
      · rw [same]
        exact .stopped lines rest holds
      · rw [same]
        dsimp only
        cases appended.deliver with
        | reading lines reading =>
          rw [if_pos reading.active]
          exact ih later reading
        | stopped lines rest stopped =>
          rw [if_neg (ne_true_of_eq_false stopped.inactive)]
          exact .stopped lines rest stopped

theorem utf8Bytes_intercalate (lines : List Text) :
    Tftp.utf8Bytes (['\n'].intercalate lines) = [newline].intercalate (lines.map Tftp.utf8Bytes) := by
  have encoded : String.utf8EncodeChar '\n' = [newline] := by decide
  induction lines with
  | nil =>
    rw [utf8Bytes_eq]
    rfl
  | cons line lines ih =>
    cases lines with
    | nil => rw [List.intercalate_singleton, List.map_singleton, List.intercalate_singleton]
    | cons next lines =>
      rw [List.map_cons, List.map_cons, List.intercalate_cons_cons, List.intercalate_cons_cons,
        ← List.map_cons, ← ih, utf8Bytes_eq, utf8Bytes_eq, utf8Bytes_eq, List.flatMap_append,
        List.flatMap_append, List.flatMap_singleton, encoded]

theorem Reading.processBufferData {chunk : Bytes} (reading : Reading options lines chunk reader) :
    Follows options [] (reader.processBufferData options chunk) := by
  rw [Attached.processBufferData, if_pos reading.active]
  have joined : [newline].intercalate (chunk.splitOn newline) = chunk := List.intercalate_splitOn newline
  rw [← joined] at reading
  exact reading.parts fun part mem => notMem_splitOn mem

theorem Reading.processStringData {value : Text} (reading : Reading options lines (Tftp.utf8Bytes value) reader) :
    Follows options [] (reader.processStringData options value) := by
  rw [Attached.processStringData, if_pos reading.active]
  have joined : ['\n'].intercalate (value.splitOn '\n') = value := List.intercalate_splitOn '\n'
  rw [← joined, utf8Bytes_intercalate] at reading
  refine reading.parts fun part mem => ?_
  obtain ⟨text, inside, rfl⟩ := List.mem_map.mp mem
  exact notMem_utf8Bytes (by decide) (notMem_splitOn inside)

theorem Reading.processEnd (reading : Reading options lines [] reader) (taken : reader.pendingBuffer = [])
    (queued : reader.endQueued = true) : Follows options [] (reader.processEnd options) := by
  have ceased : reader.ended = true := by
    rw [← reading.endQueued, queued]
  have emitted : reader.emitted = lines.flatMap terminated ++ reader.lineBuffer := by
    rw [reading.emitted, taken, List.nil_append, List.append_nil]
  have closed {calls : List Event} (split : calls = delivered lines ++
      if reader.lineBuffer.isEmpty then [] else [.line (lineText false reader.lineBuffer)]) :
      Stopped options lines reader.lineBuffer { reader with
        active := false, lineBuffer := [], pendingBuffer := [], endQueued := false, calls := calls } := by
    refine ⟨rfl, emitted, reading.short, _, split, ?_⟩
    exact .closed ceased reading.line reading.undisposed reading.unrefused
  rw [Attached.processEnd, if_pos reading.active, detach_active reading.active]
  by_cases empty : reader.lineBuffer = []
  · rw [if_pos (List.length_eq_zero_iff.mpr empty)]
    refine .stopped lines _ (closed ?_)
    rw [if_pos (List.isEmpty_iff.mpr empty), List.append_nil, reading.calls]
  · rw [if_neg (List.length_eq_zero_iff.not.mpr empty)]
    have split : reader.calls ++ [Event.line (lineText false reader.lineBuffer)] = delivered lines ++
        if reader.lineBuffer.isEmpty then [] else [.line (lineText false reader.lineBuffer)] := by
      rw [if_neg (List.isEmpty_iff.not.mpr empty), reading.calls]
    obtain ⟨rest, stopped⟩ := (closed split).reenters
      (options.respond (reader.calls ++ [.line (lineText false reader.lineBuffer)]))
    exact .stopped lines rest stopped

theorem Follows.act (follows : Follows options [] reader) (idle : reader.idle) (action : Action) :
    Follows options [] (reader.act options action) := by
  cases follows with
  | stopped lines rest stopped =>
    obtain ⟨rest, later⟩ := stopped.record action
    rw [act_inactive stopped.inactive]
    exact .stopped lines rest later
  | reading lines reading =>
    have ready : reader.pendingBuffer = [] ∧ reader.endQueued = false := by
      simpa [Attached.idle, reading.active] using idle
    have ended : reader.ended = false := by
      rw [← reading.endQueued, ready.2]
    cases action with
    | data chunk =>
      have taken : ¬ (!reader.active || reader.endQueued) = true := by
        rw [reading.active, ready.2]
        exact Bool.false_ne_true
      have given : Reading options lines chunk.bytes { reader with emitted := reader.emitted ++ chunk.bytes } := by
        refine { reading with emitted := ?_ }
        rw [reading.emitted, ready.1]
        simp
      unfold Attached.act
      rw [Attached.record, if_neg (ne_true_of_eq_false ended)]
      dsimp only
      rw [if_neg taken]
      split
      · next empty =>
        rw [List.length_eq_zero_iff.mp empty] at given ⊢
        exact .reading lines given
      · cases chunk with
        | buffer bytes => exact given.processBufferData
        | string value => exact given.processStringData
    | finish =>
      have taken : ¬ (!reader.active || reader.endQueued) = true := by
        rw [reading.active, ready.2]
        exact Bool.false_ne_true
      rw [Attached.act, Attached.record]
      rw [if_neg taken]
      exact .reading lines { reading with endQueued := rfl }
    | dispose =>
      obtain ⟨rest, stopped⟩ := reading.dispose
      exact .stopped lines rest stopped

theorem Follows.drainStep (follows : Follows options [] reader) (busy : ¬ reader.idle) :
    Follows options [] (reader.drainStep options) := by
  cases follows with
  | stopped lines rest stopped =>
    have done : reader.idle := by
      rw [Attached.idle, stopped.inactive]
      rfl
    exact absurd done busy
  | reading lines reading =>
    rw [Attached.drainStep]
    split
    · have next : Reading options lines reader.pendingBuffer { reader with pendingBuffer := [] } := by
        refine { reading with emitted := ?_ }
        rw [reading.emitted, List.nil_append, List.append_nil]
      exact next.processBufferData
    · next taken =>
      have drained : reader.pendingBuffer = [] := List.length_eq_zero_iff.mp (Nat.eq_zero_of_not_pos taken)
      refine reading.processEnd drained ?_
      simpa [Attached.idle, reading.active, drained] using busy

theorem attachBoundedLineReader_ok {maxBytes : Int} (ok : attachBoundedLineReader maxBytes = .ok reader) :
    reader = {} := by
  rw [attachBoundedLineReader] at ok
  split at ok
  · exact nomatch ok
  · exact (Except.ok.inj ok).symm

theorem Runs.follows (run : Runs options reader) : Follows options [] reader := by
  induction run with
  | attach ok =>
    rw [attachBoundedLineReader_ok ok]
    exact .reading [] ⟨rfl, rfl, rfl, nofun, ⟨List.not_mem_nil, Nat.zero_le _⟩, rfl, rfl, rfl⟩
  | act action _ idle ih => exact ih.act idle action
  | drain _ busy ih => exact ih.drainStep busy

theorem Stopped.reference (stopped : Stopped options lines rest reader) :
    referenceSplit options.maxBytes reader.ended reader.emitted =
      delivered lines ++ referenceSplit options.maxBytes reader.ended rest := by
  rw [stopped.emitted, referenceSplit_lines _ stopped.short]

theorem Reading.reference (reading : Reading options lines ahead reader) :
    delivered lines <+: referenceSplit options.maxBytes reader.ended reader.emitted := by
  rw [reading.emitted, referenceSplit_lines _ reading.short]
  exact List.prefix_append _ _

theorem Ending.reference {last : List Event} (ending : Ending options rest reader last)
    (undisposed : reader.disposed = false) (unrefused : reader.refused = none) :
    last = referenceSplit options.maxBytes reader.ended rest := by
  cases ending with
  | disposed disposed => exact absurd disposed (ne_true_of_eq_false undisposed)
  | long split plain long => rw [split, referenceSplit_long _ plain long]
  | refused refused => exact nomatch unrefused.symm.trans refused
  | closed ended short =>
    rw [referenceSplit_open _ short, ended]
    cases rest <;> rfl

theorem Follows.calls_prefix (follows : Follows options [] reader) (unrefused : reader.refused = none) :
    reader.calls <+: referenceSplit options.maxBytes reader.ended reader.emitted := by
  cases follows with
  | reading lines reading =>
    rw [reading.calls]
    exact reading.reference
  | stopped lines rest stopped =>
    obtain ⟨last, calls, ending⟩ := stopped.calls
    rw [calls, stopped.reference]
    cases disposed : reader.disposed with
    | false => rw [ending.reference disposed unrefused]
    | true =>
      cases ending with
      | disposed => exact (List.prefix_append_right_inj _).mpr List.nil_prefix
      | long _ _ _ undisposed => exact nomatch disposed.symm.trans undisposed
      | refused refused => exact nomatch unrefused.symm.trans refused
      | closed _ _ undisposed => exact nomatch disposed.symm.trans undisposed

theorem Follows.calls_eq (follows : Follows options [] reader) (unrefused : reader.refused = none)
    (undisposed : reader.disposed = false) (idle : reader.idle) :
    reader.calls = referenceSplit options.maxBytes reader.ended reader.emitted := by
  cases follows with
  | reading lines reading =>
    have ready : reader.pendingBuffer = [] ∧ reader.endQueued = false := by
      simpa [Attached.idle, reading.active] using idle
    have ended : reader.ended = false := by
      rw [← reading.endQueued, ready.2]
    rw [reading.calls, reading.emitted, referenceSplit_lines _ reading.short, ready.1, List.nil_append,
      List.append_nil, referenceSplit_open _ reading.line, ended, Bool.false_and, if_neg Bool.false_ne_true,
      List.append_nil]
  | stopped lines rest stopped =>
    obtain ⟨last, calls, ending⟩ := stopped.calls
    rw [calls, stopped.reference, ending.reference undisposed unrefused]

theorem Follows.calls_refused {backlog : Bytes} (follows : Follows options [] reader)
    (refused : reader.refused = some backlog) :
    options.maxBytes < backlog.length ∧ backlog <:+: reader.emitted ∧
      (∃ history chunk, .data chunk ∈ options.respond history ∧ chunk.bytes ≠ [] ∧
        chunk.bytes <:+ backlog) ∧ ∃ lines, reader.calls = lines ++ [oversize options.maxBytes] ∧
        lines <+: referenceSplit options.maxBytes reader.ended reader.emitted := by
  cases follows with
  | reading lines reading => exact nomatch reading.unrefused.symm.trans refused
  | stopped lines rest stopped =>
    obtain ⟨last, calls, ending⟩ := stopped.calls
    cases ending with
    | disposed _ unrefused | long _ _ _ _ unrefused | closed _ _ _ unrefused =>
      exact nomatch unrefused.symm.trans refused
    | @refused other history chunk hit long inside responds ne suffix =>
      obtain rfl : other = backlog := Option.mem_unique hit refused
      refine ⟨long, inside, ⟨history, chunk, responds, ne, suffix⟩, delivered lines, calls, ?_⟩
      rw [stopped.reference]
      exact List.prefix_append _ _

theorem Follows.halted (follows : Follows options [] reader)
    (ceased : reader.disposed = true ∨ ∃ msg, .error msg ∈ reader.calls) : reader.active = false := by
  cases follows with
  | stopped lines rest stopped => exact stopped.inactive
  | reading lines reading =>
    rcases ceased with disposed | ⟨msg, mem⟩
    · exact absurd disposed (ne_true_of_eq_false reading.undisposed)
    · rw [reading.calls, delivered] at mem
      obtain ⟨line, _, same⟩ := List.mem_map.mp mem
      exact nomatch same

/-- A reader calls for the lines of its stream in order, each once, and for an error when one is too long or it is to
keep too much. -/
theorem attached_splits (run : Runs options reader) :
    (reader.refused = none → reader.calls <+: referenceSplit options.maxBytes reader.ended reader.emitted) ∧
      (reader.refused = none → reader.disposed = false → reader.idle →
        reader.calls = referenceSplit options.maxBytes reader.ended reader.emitted) ∧
      (∀ backlog, reader.refused = some backlog →
        options.maxBytes < backlog.length ∧ backlog <:+: reader.emitted ∧
          (∃ history chunk, .data chunk ∈ options.respond history ∧ chunk.bytes ≠ [] ∧
            chunk.bytes <:+ backlog) ∧ ∃ lines, reader.calls = lines ++ [oversize options.maxBytes] ∧
            lines <+: referenceSplit options.maxBytes reader.ended reader.emitted) ∧
      ((reader.disposed = true ∨ ∃ message, .error message ∈ reader.calls) → reader.active = false) ∧
      (reader.active = false → ∀ action, (reader.act options action).active = false ∧
        (reader.act options action).calls = reader.calls) := by
  have follows := run.follows
  refine ⟨follows.calls_prefix, follows.calls_eq, fun backlog => follows.calls_refused, follows.halted,
    fun inactive action => ?_⟩
  rw [act_inactive inactive, record_active, record_calls]
  exact ⟨inactive, rfl⟩

end

def crowding : Options where
  maxBytes := 6
  respond calls :=
    if calls.getLast? = some (.line ['t']) then
      [[97, 10], [98, 10], [99, 10], [100, 10]].map fun bytes => .data (.buffer bytes)
    else []

def crowded : Attached := ({} : Attached).act crowding (.data (.buffer [116, 10]))

theorem crowded_run : Runs crowding crowded := .act _ (.attach rfl) rfl

theorem attached_splits_crowded :
    ∃ lines, crowded.calls = lines ++ [oversize 6] ∧ lines <+: referenceSplit 6 crowded.ended crowded.emitted :=
  ((attached_splits crowded_run).2.2.1 [97, 10, 98, 10, 99, 10, 100, 10] (by decide)).2.2.2

/-- None of its lines is too long, but the reader ends with the error. -/
theorem crowded_not_split :
    Runs crowding crowded ∧ crowded.disposed = false ∧ crowded.idle ∧
      (∀ line ∈ crowded.emitted.splitOn newline, line.length ≤ 6) ∧
      crowded.calls ≠ referenceSplit 6 crowded.ended crowded.emitted :=
  ⟨crowded_run, by decide, by decide, by decide, by decide⟩

/-- A chunk that begins with a line has another delivered behind it. -/
def answering : Options where
  maxBytes := 6
  respond calls := if calls = [.line ['q']] then [.data (.string ['a', '\n']), .finish] else []

example : ((({} : Attached).act answering (.data (.buffer [113, 13, 10, 98]))).drainStep answering).calls =
    [.line ['q'], .line ['b', 'a']] := by decide +kernel

end Attached

end NexTerminal.Host.Bounded
