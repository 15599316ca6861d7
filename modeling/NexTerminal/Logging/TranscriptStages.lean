import Mathlib.Data.List.Basic
import Mathlib.Logic.Function.Basic

namespace NexTerminal.Logging

abbrev Bytes := List UInt8

abbrev Files := Nat → Option Bytes

namespace Files

def unlink (files : Files) (target : Nat) : Files := Function.update files target none

/-- Where the source does not exist, the call fails and nothing changes. -/
def rename (files : Files) (source target : Nat) : Files :=
  match files source with
  | none => files
  | some content => Function.update (Function.update files target (some content)) source none

def shiftFrom : Nat → Files → Files
  | 0, files => files
  | index + 1, files => shiftFrom index ((files.unlink (index + 1)).rename index (index + 1))

def shiftGenerations (maxRotatedFiles : Nat) (files : Files) : Files :=
  if 0 < maxRotatedFiles then files.shiftFrom maxRotatedFiles else files.unlink 0

/-- `openSync(filepath, "a")` makes the live file where there is none. -/
def openLive (files : Files) : Files := Function.update files 0 (some ((files 0).getD []))

def liveSize (files : Files) : Nat := ((files 0).getD []).length

def append (files : Files) (bytes : Bytes) : Files :=
  if bytes = [] then files else Function.update files 0 (some ((files 0).getD [] ++ bytes))

/-- Two writes leave what one write of both leaves. -/
theorem append_append (files : Files) (first second : Bytes) :
    (files.append first).append second = files.append (first ++ second) := by
  unfold append
  by_cases none_first : first = []
  · simp [none_first]
  · by_cases none_second : second = []
    · simp [none_second]
    · simp [none_first, none_second]

theorem append_openLive (files : Files) {bytes : Bytes} (some_bytes : bytes ≠ []) :
    files.openLive.append bytes = files.append bytes := by
  simp [append, openLive, some_bytes]

@[simp]
theorem append_nil (files : Files) : files.append [] = files := if_pos rfl

end Files

end NexTerminal.Logging

/-! The stages a byte of a session transcript passes through (`sessionTranscriptLogger.ts`):
pending, then owed, then in an append, then in the file. -/

namespace NexTerminal.Logging

def MAX_APPEND_BYTES : Nat := 1024 * 1024

structure Limits where
  maxFileSizeBytes : Nat
  maxRetainedBytes : Nat
  maxRotatedFiles : Nat

structure Buffer where
  object : Nat
  bytes : Bytes

/-- `owed` is the view of a larger buffer that an append batch was cut off. -/
structure Split where
  parent : Buffer
  view : Buffer

structure Stages where
  /-- Undecided bytes, one buffer per `write`, oldest first. -/
  pending : List Bytes := []
  pendingBytes : Nat := 0
  admittedChunks : Nat := 0
  owed : Buffer := ⟨0, []⟩
  owedSplitFrom : Option Split := none
  inFlight : Bytes := []
  objects : Nat := 1

structure File where
  /-- The descriptor owned, each known by the order it was opened in. -/
  fd : Option Nat
  currentSize : Nat
  opened : Nat := 1
  released : List Nat := []
  files : Files := fun _ => none

/-- How the next calls to the system turn out: each `open` with the size the file is then
found to have, each `write` with what it has written; an error has neither. -/
structure Syscalls where
  opens : List (Option Nat) := []
  writes : List (Option Nat) := []

def isContinuation (byte : UInt8) : Bool := byte &&& 0xc0 == 0x80

/-- Drops `cut` bytes from the head, and on to the end of the glyph. -/
def cutUtf8Head (data : Bytes) (cut : Nat) : Bytes := (data.drop cut).dropWhile isContinuation

def overflowsFile (limits : Limits) (settledSize size : Nat) : Bool := limits.maxFileSizeBytes < settledSize + size

namespace Stages

def retainedByteCount (self : Stages) : Nat := self.owed.bytes.length + self.pendingBytes

def pushPending (self : Stages) (chunk : Bytes) : Stages :=
  if chunk = [] then self
  else
    { self with
      pending := self.pending ++ [chunk]
      pendingBytes := self.pendingBytes + chunk.length
      admittedChunks := self.admittedChunks + 1 }

/-- `owed` becomes a buffer of its own. -/
def setOwed (self : Stages) (next : Bytes) : Stages :=
  { self with owed := ⟨self.objects, next⟩, objects := self.objects + 1, owedSplitFrom := none }

/-- The split that `owed` still is the view of. -/
def owedSplit (self : Stages) : Option Split := self.owedSplitFrom.filter (·.view.object == self.owed.object)

/-- What leaves the head of the pending chunks when `excess` bytes are to go, and what stays. -/
def shedPending : Nat → List Bytes → Bytes × List Bytes
  | 0, pending => ([], pending)
  | _ + 1, [] => ([], [])
  | excess + 1, head :: rest =>
    if head.length ≤ excess + 1 then
      let (shed, left) := shedPending (excess + 1 - head.length) rest
      (head ++ shed, left)
    else
      let survivor := cutUtf8Head head (excess + 1)
      (head.take (head.length - survivor.length), if survivor = [] then rest else survivor :: rest)

/-- Drops `excess` bytes, oldest first: placed, then undecided. -/
def shedOldest (self : Stages) (excess : Nat) : Bytes × Stages :=
  if excess = 0 then ([], self)
  else if self.owed.bytes.length ≤ excess then
    let (shed, left) := shedPending (excess - self.owed.bytes.length) self.pending
    (self.owed.bytes ++ shed,
      { self.setOwed [] with pending := left, pendingBytes := self.pendingBytes - shed.length })
  else
    let survivor := cutUtf8Head self.owed.bytes excess
    (self.owed.bytes.take (self.owed.bytes.length - survivor.length), self.setOwed survivor)

def trimRetained (limits : Limits) (self : Stages) : Bytes × Stages :=
  self.shedOldest (self.retainedByteCount - limits.maxRetainedBytes)

/-- The one place bytes enter, and the one place they are shed. -/
def admitChunk (limits : Limits) (self : Stages) (chunk : Bytes) : Bytes × Stages :=
  let self := self.pushPending chunk
  if limits.maxRetainedBytes < self.retainedByteCount then self.trimRetained limits else ([], self)

/-- The chunks that fit the file and the batch behind what is placed, and the others. -/
def coalesce (limits : Limits) : Nat → Nat → List Bytes → List Bytes × List Bytes
  | _, _, [] => ([], [])
  | projected, placed, chunk :: rest =>
    if !overflowsFile limits projected chunk.length && decide (placed + chunk.length ≤ MAX_APPEND_BYTES) then
      let (taken, left) := coalesce limits (projected + chunk.length) (placed + chunk.length) rest
      (chunk :: taken, left)
    else ([], chunk :: rest)

/-- The next append's buffer, off the head of `owed`. -/
def takeAppendBatch (self : Stages) : Bytes × Stages :=
  if self.owed.bytes.length ≤ MAX_APPEND_BYTES then
    (self.owed.bytes, { self.setOwed [] with inFlight := self.owed.bytes })
  else
    let batch := self.owed.bytes.take MAX_APPEND_BYTES
    let view : Buffer := ⟨self.objects, self.owed.bytes.drop MAX_APPEND_BYTES⟩
    (batch,
      { self with
        inFlight := batch
        owed := view
        objects := self.objects + 1
        owedSplitFrom := some { parent := self.owed, view } })

/-- Takes back what the append could not land; true where there is any. -/
def returnUnwritten (self : Stages) (batch : Bytes) (written : Nat) : Bool × Stages :=
  let self := { self with inFlight := [] }
  if batch.length ≤ written then (false, self)
  else
    match self.owedSplit with
    | some split =>
      if split.parent.bytes.length - split.view.bytes.length = batch.length then
        let view : Buffer := ⟨self.objects, split.parent.bytes.drop written⟩
        (true,
          { self with
            owed := view
            objects := self.objects + 1
            owedSplitFrom := some { parent := split.parent, view } })
      else (true, self.setOwed (batch.drop written ++ self.owed.bytes))
    | none => (true, self.setOwed (batch.drop written ++ self.owed.bytes))

end Stages

namespace File

def releaseFd (self : File) : File :=
  match self.fd with
  | none => self
  | some fd => { self with fd := none, released := self.released ++ [fd] }

/-- Reacquires a descriptor after one was released; the accounting then trusts the file's size. -/
def ensureOpen (self : File) (calls : Syscalls) : Bool × File × Syscalls :=
  match self.fd, calls.opens with
  | some _, _ => (true, self, calls)
  | none, some size :: opens =>
    (true,
      { self with
        fd := some self.opened
        opened := self.opened + 1
        currentSize := size
        files := self.files.openLive },
      { calls with opens })
  | none, none :: opens => (false, self, { calls with opens })
  | none, [] => (false, self, calls)

end File

structure Writer where
  stages : Stages
  file : File
  appended : Bytes := []
  /-- The chunks that a rotation was made for, each by its number among those admitted. -/
  rotations : List Nat := []
  /-- A rotation was asked for with bytes owed to the live file, where the source throws. -/
  violated : Bool := false

namespace Writer

/-- Shifts the generations for the chunk being placed, the last one that is not pending. -/
def rotateNow (limits : Limits) (self : Writer) : Writer :=
  if self.stages.owed.bytes.length + self.stages.inFlight.length ≠ 0 then { self with violated := true }
  else
    { self with
      file :=
        { self.file.releaseFd with
          currentSize := 0
          files := self.file.files.shiftGenerations limits.maxRotatedFiles }
      rotations := self.rotations ++ [self.stages.admittedChunks - self.stages.pending.length] }

/-- Where nothing is owed, the oldest chunk is placed, after the rotation it asks for. -/
def placeHead (limits : Limits) (self : Writer) : Option Writer :=
  if self.stages.owed.bytes ≠ [] then some self
  else
    match self.stages.pending with
    | [] => none
    | head :: rest =>
      let shifted : Writer :=
        { self with
          stages := { self.stages with pending := rest, pendingBytes := self.stages.pendingBytes - head.length } }
      let rotated := if overflowsFile limits shifted.file.currentSize head.length
        then shifted.rotateNow limits else shifted
      some { rotated with stages := rotated.stages.setOwed head }

def promote (limits : Limits) (self : Writer) : Writer :=
  match self.placeHead limits with
  | none => self
  | some self =>
    let owed := self.stages.owed.bytes
    let (taken, left) :=
      Stages.coalesce limits (self.file.currentSize + owed.length) owed.length self.stages.pending
    if taken = [] then self
    else
      let shifted : Stages :=
        { self.stages with pending := left, pendingBytes := self.stages.pendingBytes - taken.flatten.length }
      { self with stages := shifted.setOwed (owed ++ taken.flatten) }

def land (self : Writer) (bytes : Bytes) : Writer :=
  { self with
    appended := self.appended ++ bytes
    file := { self.file with files := self.file.files.append bytes } }

/-- How many bytes a run of `write` calls lands, from the offset on. -/
def writeAll (size : Nat) : Nat → List (Option Nat) → Nat × List (Option Nat)
  | offset, [] => (offset, [])
  | offset, outcome :: rest =>
    if size ≤ offset then (offset, outcome :: rest)
    else
      match outcome with
      | none => (offset, rest)
      | some written =>
        if min written (size - offset) = 0 then (offset, rest)
        else writeAll size (offset + min written (size - offset)) rest

/-- Appends the whole buffer, resuming after a short write. -/
def appendSync (self : Writer) (data : Bytes) (calls : Syscalls) : Nat × Writer × Syscalls :=
  match self.file.ensureOpen calls with
  | (false, file, calls) => (0, { self with file }, calls)
  | (true, file, calls) =>
    let (written, writes) := writeAll data.length 0 calls.writes
    (written, land { self with file } (data.take written), { calls with writes })

/-- The accounting after an append: how much it landed, and what it could not. -/
def settleAppend (self : Writer) (batch : Bytes) (written : Nat) : Bool × Writer :=
  let (left, stages) := self.stages.returnUnwritten batch written
  (left, { self with stages, file := { self.file with currentSize := self.file.currentSize + written } })

end Writer

end NexTerminal.Logging
