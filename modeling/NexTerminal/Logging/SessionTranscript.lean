import Mathlib
import NexTerminal.Logging.TranscriptStages

/-! The transcript writer's calls, timers and drains (`sessionTranscriptLogger.ts`). The
drains that wait their turn are the links of `flushChain`: a link starts when the one before
it is done, at any later moment. A timer that is set may fire at any later moment too. -/

namespace NexTerminal.Logging

namespace Writer

theorem writeAll_le {size off : Nat} (writes : List (Option Nat)) (within : off ≤ size) :
    (writeAll size off writes).1 ≤ size := by
  induction writes generalizing off with
  | nil => exact within
  | cons outcome rest ih =>
    unfold writeAll
    split_ifs with full
    · exact within
    · cases outcome with
      | none => exact within
      | some written =>
        dsimp only
        split_ifs
        · exact within
        · exact ih (by omega)

theorem writeAll_writes {size off : Nat} (writes : List (Option Nat)) :
    (writeAll size off writes).2.length ≤ writes.length ∧
      (off < size → writes ≠ [] → (writeAll size off writes).2.length < writes.length) := by
  induction writes generalizing off with
  | nil => exact ⟨Nat.le_refl _, fun _ some_call => absurd rfl some_call⟩
  | cons outcome rest ih =>
    unfold writeAll
    split_ifs with full
    · exact ⟨Nat.le_refl _, fun room => absurd full (by omega)⟩
    · cases outcome with
      | none => exact ⟨by simp, fun _ _ => by simp⟩
      | some written =>
        dsimp only
        split_ifs
        · exact ⟨by simp, fun _ _ => by simp⟩
        · have fewer := (@ih (off + min written (size - off))).1
          exact ⟨by simp; omega, fun _ _ => by simp; omega⟩

/-- An append that lands uses up one of the writes. -/
theorem appendSync_writes (self : Writer) {data : Bytes} (calls : Syscalls) (some_data : data ≠ [])
    (landed : data.length ≤ (self.appendSync data calls).1) :
    (self.appendSync data calls).2.2.writes.length < calls.writes.length := by
  have size : 0 < data.length := List.length_pos_of_ne_nil some_data
  unfold appendSync at landed ⊢
  rcases opened : self.file.ensureOpen calls with ⟨ok, file, rest⟩
  have kept : rest.writes = calls.writes := by
    unfold File.ensureOpen at opened
    split at opened <;> cases opened <;> rfl
  cases ok with
  | false =>
    simp only [opened] at landed
    omega
  | true =>
    simp only [opened] at landed ⊢
    have some_call : rest.writes ≠ [] := by
      intro none_left
      rw [none_left, writeAll] at landed
      omega
    rw [← kept]
    exact (writeAll_writes rest.writes).2 size some_call

theorem takeAppendBatch_ne_nil {stages : Stages} (owed : stages.owed.bytes ≠ []) :
    stages.takeAppendBatch.1 ≠ [] := by
  have size : 0 < stages.owed.bytes.length := List.length_pos_of_ne_nil owed
  unfold Stages.takeAppendBatch
  split_ifs
  · exact owed
  · refine List.ne_nil_of_length_pos ?_
    rw [List.length_take]
    exact Nat.lt_min.mpr ⟨by decide, size⟩

theorem settleAppend_done {self : Writer} {batch : Bytes} {written : Nat}
    (done : (self.settleAppend batch written).1 ≠ true) : batch.length ≤ written := by
  by_contra short
  refine done ?_
  simp only [settleAppend, Stages.returnUnwritten, if_neg short]
  split
  · split_ifs <;> rfl
  · rfl

/-- Drains everything, or up to the first append that lands short. -/
def drainSync (limits : Limits) (self : Writer) (calls : Syscalls) : Writer × Syscalls :=
  let promoted := self.promote limits
  if empty : promoted.stages.owed.bytes = [] then (promoted, calls)
  else
    let taken := promoted.stages.takeAppendBatch
    let result := { promoted with stages := taken.2 }.appendSync taken.1 calls
    let settled := result.2.1.settleAppend taken.1 result.1
    if _left : settled.1 = true then (settled.2, result.2.2)
    else drainSync limits settled.2 result.2.2
termination_by calls.writes.length
decreasing_by
  exact appendSync_writes _ calls (takeAppendBatch_ne_nil empty) (settleAppend_done _left)

end Writer

inductive Job
  | scheduled
  | drain
  | finishClose
deriving DecidableEq

/-- The append that the running drain waits for, and how much of it has landed. -/
structure Append where
  batch : Bytes
  offset : Nat

structure Transcript where
  writer : Writer
  closed : Bool := false
  flushTimer : Bool := false
  flushChain : List Job := []
  append : Option Append := none
  draining : Bool := false
  /-- A drain is queued on the chain and has not started yet. -/
  drainQueued : Bool := false
  closeAttempt : Nat := 0
  closeRetryTimer : Bool := false
  live : Bool := true
  /-- Every byte admitted, in order; those shed, and those given up by the close. -/
  admitted : Bytes := []
  shed : Bytes := []
  dropped : Bytes := []
  reported : List Nat := []
  /-- How many drains appended while another's append was outstanding. -/
  overlaps : Nat := 0

def CLOSE_RETRY_DELAYS_MS : List Nat := [50, 250, 1000]

namespace Transcript

variable (limits : Limits)

def admitChunk (self : Transcript) (chunk : Bytes) : Transcript :=
  let (shed, stages) := self.writer.stages.admitChunk limits chunk
  { self with
    writer := { self.writer with stages }
    admitted := self.admitted ++ chunk
    shed := self.shed ++ shed }

def enqueue (self : Transcript) (chunk : Bytes) : Transcript :=
  { self.admitChunk limits chunk with flushTimer := true }

/-- A transcript on a file of the given size, which takes the header first. -/
def create (size : Nat) (header : Bytes) : Transcript :=
  enqueue limits { writer := { stages := {}, file := { fd := some 0, currentSize := size } } } header

def createOn (files : Files) (header : Bytes) : Transcript :=
  enqueue limits
    { writer := { stages := {}, file := { fd := some 0, currentSize := files.liveSize, files := files.openLive } } }
    header

/-- `overlap` counts a drain against the append outstanding. -/
def overlap (self : Transcript) : Nat := self.overlaps + if self.append.isSome then 1 else 0

def drainSync (self : Transcript) (calls : Syscalls) : Transcript :=
  { self with writer := (self.writer.drainSync limits calls).1, overlaps := self.overlap }

/-- The asynchronous drain up to the append it waits for, or to its end. -/
def drainNext (self : Transcript) (calls : Syscalls) : Transcript :=
  let promoted := self.writer.promote limits
  if promoted.stages.owed.bytes = [] then { self with writer := promoted, draining := false }
  else
    let (batch, stages) := promoted.stages.takeAppendBatch
    match promoted.file.ensureOpen calls with
    | (true, file, _) =>
      { self with
        writer := { promoted with stages, file }
        append := some { batch, offset := 0 }
        overlaps := self.overlap }
    | (false, file, _) =>
      { self with writer := (Writer.settleAppend { promoted with stages, file } batch 0).2, draining := false }

def drainAsync (self : Transcript) (calls : Syscalls) : Transcript :=
  if self.closed || (self.writer.stages.pending.isEmpty && self.writer.stages.owed.bytes.isEmpty) then self
  else drainNext limits { self with draining := true } calls

def wrote (self : Transcript) (outcome : Option Nat) (calls : Syscalls) : Transcript :=
  match self.append with
  | none => self
  | some append =>
    let written := min (outcome.getD 0) (append.batch.length - append.offset)
    let offset := append.offset + written
    let writer := self.writer.land ((append.batch.drop append.offset).take written)
    if written ≠ 0 ∧ offset < append.batch.length then
      { self with writer, append := some { append with offset } }
    else
      let (left, writer) := writer.settleAppend append.batch offset
      if left then { self with writer, append := none, draining := false }
      else drainNext limits { self with writer, append := none } calls

/-- The retries are spent: the loss is reported and the descriptor let go. -/
def abandonTail (self : Transcript) : Transcript :=
  let stages := self.writer.stages
  { self with
    writer :=
      { self.writer with
        stages := { stages.setOwed [] with pending := [], pendingBytes := 0 }
        file := self.writer.file.releaseFd }
    live := false
    dropped := self.dropped ++ (stages.owed.bytes ++ stages.pending.flatten)
    reported := self.reported ++ [stages.retainedByteCount] }

def scheduleCloseRetry (self : Transcript) : Transcript :=
  if self.closeAttempt < CLOSE_RETRY_DELAYS_MS.length then
    { self with closeAttempt := self.closeAttempt + 1, closeRetryTimer := true }
  else self.abandonTail

def finishClose (self : Transcript) (calls : Syscalls) : Transcript :=
  let self := drainSync limits { self with closeRetryTimer := false } calls
  if 0 < self.writer.stages.retainedByteCount then self.scheduleCloseRetry
  else { self with writer := { self.writer with file := self.writer.file.releaseFd }, live := false }

/-- A chunk of output, stripped of control sequences and encoded. -/
def write (self : Transcript) (chunk : Bytes) : Transcript :=
  if self.closed || chunk.isEmpty then self else self.enqueue limits chunk

def flush (self : Transcript) (calls : Syscalls) : Transcript :=
  if self.closed then self
  else if self.draining then { self with flushTimer := false, flushChain := self.flushChain ++ [.drain] }
  else drainSync limits { self with flushTimer := false } calls

def close (self : Transcript) (footer : Bytes) (calls : Syscalls) : Transcript :=
  if self.closed then self
  else
    let self := { self with closed := true, flushTimer := false }.admitChunk limits footer
    if self.draining then { self with flushChain := self.flushChain ++ [.finishClose] }
    else self.finishClose limits calls

/-- What `settle` does once it has followed the flush chain, at whatever moment that is. -/
def settle (self : Transcript) (calls : Syscalls) : Transcript :=
  if self.draining then self
  else if self.closed then
    if 0 < self.writer.stages.retainedByteCount then self.finishClose limits calls else self
  else drainSync limits { self with flushTimer := false } calls

def flushTimerFires (self : Transcript) : Transcript :=
  if self.flushTimer then
    if self.drainQueued then { self with flushTimer := false }
    else { self with flushTimer := false, drainQueued := true, flushChain := self.flushChain ++ [.scheduled] }
  else self

def closeRetryFires (self : Transcript) (calls : Syscalls) : Transcript :=
  if self.closeRetryTimer then self.finishClose limits calls else self

/-- The next link of the chain starts, unless the one before it is not done. -/
def chainAdvances (self : Transcript) (calls : Syscalls) : Transcript :=
  if self.append.isSome then self
  else
    match self.flushChain with
    | [] => self
    | .scheduled :: rest => drainAsync limits { self with flushChain := rest, drainQueued := false } calls
    | .drain :: rest => drainAsync limits { self with flushChain := rest } calls
    | .finishClose :: rest => finishClose limits { self with flushChain := rest } calls

end Transcript

/-- What happens to a transcript, with how the calls to the system turn out. -/
inductive TranscriptAct
  | write (chunk : Bytes)
  | flush (calls : Syscalls)
  | close (footer : Bytes) (calls : Syscalls)
  | settle (calls : Syscalls)
  | flushTimerFires
  | closeRetryFires (calls : Syscalls)
  | chainAdvances (calls : Syscalls)
  | wrote (outcome : Option Nat) (calls : Syscalls)

namespace Transcript

def step (limits : Limits) (self : Transcript) : TranscriptAct → Transcript
  | .write chunk => self.write limits chunk
  | .flush calls => self.flush limits calls
  | .close footer calls => self.close limits footer calls
  | .settle calls => self.settle limits calls
  | .flushTimerFires => self.flushTimerFires
  | .closeRetryFires calls => self.closeRetryFires limits calls
  | .chainAdvances calls => self.chainAdvances limits calls
  | .wrote outcome calls => self.wrote limits outcome calls

def run (limits : Limits) (self : Transcript) (acts : List TranscriptAct) : Transcript := acts.foldl (step limits) self

end Transcript

end NexTerminal.Logging
