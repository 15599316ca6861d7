import NexTerminal.Logging.StageContent

namespace NexTerminal.Logging

structure PlainWriter where
  files : Files
  currentSize : Nat

namespace PlainWriter

def start (files : Files) : PlainWriter := { files := files.openLive, currentSize := files.liveSize }

def write (limits : Limits) (self : PlainWriter) (chunk : Bytes) : PlainWriter :=
  let ready :=
    if overflowsFile limits self.currentSize chunk.length then
      { files := self.files.shiftGenerations limits.maxRotatedFiles, currentSize := 0 }
    else self
  { files := ready.files.append chunk, currentSize := ready.currentSize + chunk.length }

def run (limits : Limits) (self : PlainWriter) (chunks : List Bytes) : PlainWriter :=
  chunks.foldl (write limits) self

theorem run_append (limits : Limits) (self : PlainWriter) (first second : List Bytes) :
    self.run limits (first ++ second) = (self.run limits first).run limits second := List.foldl_append

/-- Chunks that are coalesced make no rotation. -/
theorem run_coalesced (limits : Limits) {self : PlainWriter} {projected placed : Nat} {pending : List Bytes}
    (size : self.currentSize = projected) :
    self.run limits (Stages.coalesce limits projected placed pending).1 =
      { files := self.files.append (Stages.coalesce limits projected placed pending).1.flatten
        currentSize := projected + (Stages.coalesce limits projected placed pending).1.flatten.length } := by
  induction pending generalizing self projected placed with
  | nil =>
    obtain ⟨files, currentSize⟩ := self
    simp only at size
    simp [Stages.coalesce, run, size]
  | cons chunk rest ih =>
    unfold Stages.coalesce
    split_ifs with fits
    · simp only [Bool.and_eq_true, Bool.not_eq_true'] at fits
      have written : self.write limits chunk =
          { files := self.files.append chunk, currentSize := projected + chunk.length } := by
        simp [write, size, fits.1]
      have later := @ih (self.write limits chunk) (projected + chunk.length) (placed + chunk.length)
        (by rw [written])
      show (self.write limits chunk).run limits _ = _
      rw [later, written]
      simp [Files.append_append, Nat.add_assoc]
    · obtain ⟨files, currentSize⟩ := self
      simp only at size
      simp [run, size]

end PlainWriter

namespace Writer

/-- The chunks that have left the pending ones are what the plain writer has written, wherever their bytes are. -/
def Refines (limits : Limits) (base : PlainWriter) (chunks : List Bytes) (self : Writer) (landed : Nat)
    (tail : Bytes) : Prop :=
  ∃ decided, decided ++ self.stages.pending = chunks ∧
    (base.run limits decided).files = self.file.files.append (tail ++ self.stages.owed.bytes) ∧
    (base.run limits decided).currentSize =
      self.file.currentSize + landed + tail.length + self.stages.owed.bytes.length

/-- Without a descriptor the accounting is of an empty file. -/
def Reopens (self : Writer) : Prop := self.file.fd = none → self.file.currentSize = 0

variable {limits : Limits} {base : PlainWriter} {chunks : List Bytes} {self : Writer}

theorem placeHead_refines {placed : Writer} (refines : self.Refines limits base chunks 0 []) (reopens : self.Reopens)
    (grounded : self.stages.inFlight = []) (places : self.placeHead limits = some placed) :
    placed.Refines limits base chunks 0 [] ∧ placed.Reopens := by
  unfold placeHead at places
  split_ifs at places with owed
  · cases places
    exact ⟨refines, reopens⟩
  · have nothing : self.stages.owed.bytes = [] := not_not.mp owed
    cases pending : self.stages.pending with
    | nil => simp [pending] at places
    | cons head rest =>
      obtain ⟨decided, parts, files, size⟩ := refines
      simp only [nothing] at files size
      have queue : (decided ++ [head]) ++ rest = chunks := by
        rw [List.append_assoc, List.singleton_append, ← pending, parts]
      have written : base.run limits (decided ++ [head]) = (base.run limits decided).write limits head :=
        base.run_append limits decided [head]
      have none_stranded : ¬ self.stages.owed.bytes.length + self.stages.inFlight.length ≠ 0 := by
        simp [nothing, grounded]
      simp only [pending] at places
      split_ifs at places with overflows
      · cases places
        rw [rotateNow, if_neg none_stranded]
        refine ⟨⟨decided ++ [head], queue, ?_, ?_⟩, fun _ => rfl⟩
        · rw [written]
          simp [PlainWriter.write, size, overflows, files, Stages.setOwed]
        · rw [written]
          simp [PlainWriter.write, size, overflows, Stages.setOwed]
      · cases places
        refine ⟨⟨decided ++ [head], queue, ?_, ?_⟩, reopens⟩
        · rw [written]
          simp [PlainWriter.write, size, overflows, files, Stages.setOwed]
        · rw [written]
          simp [PlainWriter.write, size, overflows, Stages.setOwed]

theorem promote_refines (refines : self.Refines limits base chunks 0 []) (reopens : self.Reopens)
    (grounded : self.stages.inFlight = []) :
    (self.promote limits).Refines limits base chunks 0 [] ∧ (self.promote limits).Reopens := by
  unfold promote
  cases places : self.placeHead limits with
  | none => exact ⟨refines, reopens⟩
  | some placed =>
    obtain ⟨⟨decided, parts, files, size⟩, placedReopens⟩ := placeHead_refines refines reopens grounded places
    have queue := Stages.coalesce_spec limits (placed.file.currentSize + placed.stages.owed.bytes.length)
      placed.stages.owed.bytes.length placed.stages.pending
    have coalesced := @PlainWriter.run_coalesced limits (base.run limits decided)
      (placed.file.currentSize + placed.stages.owed.bytes.length) placed.stages.owed.bytes.length
      placed.stages.pending (by simpa using size)
    rcases res : Stages.coalesce limits (placed.file.currentSize + placed.stages.owed.bytes.length)
      placed.stages.owed.bytes.length placed.stages.pending with ⟨taken, left⟩
    simp only [res] at queue coalesced ⊢
    split_ifs with none_taken
    · exact ⟨⟨decided, parts, files, size⟩, placedReopens⟩
    · refine ⟨⟨decided ++ taken, ?_, ?_, ?_⟩, placedReopens⟩
      · simp [Stages.setOwed, queue, parts]
      · rw [PlainWriter.run_append, coalesced, files]
        simp [Stages.setOwed, Files.append_append]
      · rw [PlainWriter.run_append, coalesced]
        simp [Stages.setOwed, Nat.add_assoc]

theorem takeAppendBatch_owed (stages : Stages) :
    stages.takeAppendBatch.1 ++ stages.takeAppendBatch.2.owed.bytes = stages.owed.bytes ∧
      stages.takeAppendBatch.2.pending = stages.pending := by
  unfold Stages.takeAppendBatch
  split_ifs
  · exact ⟨List.append_nil _, rfl⟩
  · exact ⟨List.take_append_drop .., rfl⟩

theorem returnUnwritten_pending (stages : Stages) (batch : Bytes) (written : Nat) :
    (stages.returnUnwritten batch written).2.pending = stages.pending := by
  unfold Stages.returnUnwritten
  dsimp only
  split_ifs
  · rfl
  · split
    · split_ifs <;> rfl
    · rfl

theorem takeAppendBatch_refines (refines : self.Refines limits base chunks 0 []) :
    Refines limits base chunks { self with stages := self.stages.takeAppendBatch.2 } 0
      self.stages.takeAppendBatch.1 := by
  obtain ⟨decided, parts, files, size⟩ := refines
  obtain ⟨owed, pending⟩ := takeAppendBatch_owed self.stages
  refine ⟨decided, ?_, ?_, ?_⟩
  · simp [pending, parts]
  · simp [owed, files]
  · rw [size, ← owed, List.length_append]
    simp only [List.length_nil]
    omega

theorem ensureOpen_refines {calls : Syscalls} (empty : ∀ size, some size ∈ calls.opens → size = 0)
    (reopens : self.Reopens) {landed : Nat} {tail : Bytes} (some_tail : tail ≠ [])
    (refines : self.Refines limits base chunks landed tail) :
    Refines limits base chunks { self with file := (self.file.ensureOpen calls).2.1 } landed tail ∧
      Reopens { self with file := (self.file.ensureOpen calls).2.1 } := by
  obtain ⟨decided, parts, files, size⟩ := refines
  have some_bytes : tail ++ self.stages.owed.bytes ≠ [] := by simp [some_tail]
  unfold File.ensureOpen
  split
  · exact ⟨⟨decided, parts, files, size⟩, reopens⟩
  · next hit opens closed outcomes =>
    have zero := empty hit (by rw [outcomes]; exact .head _)
    have settled := reopens closed
    refine ⟨⟨decided, parts, ?_, ?_⟩, nofun⟩
    · rw [files, Files.append_openLive _ some_bytes]
    · rw [size, settled, zero]
  · exact ⟨⟨decided, parts, files, size⟩, reopens⟩
  · exact ⟨⟨decided, parts, files, size⟩, reopens⟩

theorem land_refines {landed : Nat} {tail : Bytes} (refines : self.Refines limits base chunks landed tail)
    {written : Nat} (within : written ≤ tail.length) :
    (self.land (tail.take written)).Refines limits base chunks (landed + written) (tail.drop written) := by
  obtain ⟨decided, parts, files, size⟩ := refines
  refine ⟨decided, parts, ?_, ?_⟩
  · rw [files]
    simp [land, Files.append_append, ← List.append_assoc]
  · rw [size, List.length_drop]
    simp only [land]
    omega

theorem settleAppend_refines {batch : Bytes} {written : Nat} (sound : self.stages.Sound)
    (flight : self.stages.inFlight = batch) (refines : self.Refines limits base chunks written (batch.drop written)) :
    (self.settleAppend batch written).2.Refines limits base chunks 0 [] := by
  obtain ⟨decided, parts, files, size⟩ := refines
  have pending := returnUnwritten_pending self.stages batch written
  have held := (Stages.returnUnwritten_spec sound flight written).2.1
  simp only [Stages.held, pending, ← List.append_assoc] at held
  have owed := List.append_cancel_right held
  refine ⟨decided, ?_, ?_, ?_⟩
  · simp [settleAppend, pending, parts]
  · rw [files]
    simp [settleAppend, owed]
  · simp only [settleAppend, owed, List.length_append, List.length_nil]
    omega

end Writer

end NexTerminal.Logging
