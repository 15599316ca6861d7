import Mathlib.Data.List.Induction
import NexTerminal.Logging.PlainWriter
import NexTerminal.Logging.TranscriptRuns

namespace NexTerminal.Logging

def Syscalls.ReopensEmpty (calls : Syscalls) : Prop := ∀ size, some size ∈ calls.opens → size = 0

namespace Writer

variable {limits : Limits} {base : PlainWriter} {chunks : List Bytes} {self : Writer}

theorem ensureOpen_opens {file : File} {calls : Syscalls} (empty : calls.ReopensEmpty) :
    (file.ensureOpen calls).2.2.ReopensEmpty := by
  intro size hit
  unfold File.ensureOpen at hit
  split at hit
  · exact empty size hit
  · next opens outcomes => exact empty size (by rw [outcomes]; exact .tail _ hit)
  · next opens outcomes => exact empty size (by rw [outcomes]; exact .tail _ hit)
  · exact empty size hit

theorem ensureOpen_fd {file : File} {calls : Syscalls} (opened : (file.ensureOpen calls).1 = true) :
    (file.ensureOpen calls).2.1.fd ≠ none := by
  unfold File.ensureOpen at opened ⊢
  split
  · next owned => simp [owned]
  · simp
  · simp_all
  · simp_all

theorem appendSync_opens {data : Bytes} {calls : Syscalls} (empty : calls.ReopensEmpty) :
    (self.appendSync data calls).2.2.ReopensEmpty := by
  have kept := @ensureOpen_opens self.file calls empty
  unfold appendSync
  rcases res : self.file.ensureOpen calls with ⟨ok, file, rest⟩
  rw [res] at kept
  cases ok <;> exact kept

theorem appendSync_refines {data : Bytes} {calls : Syscalls} (empty : calls.ReopensEmpty)
    (reopens : self.Reopens) (some_data : data ≠ []) (refines : self.Refines limits base chunks 0 data) :
    (self.appendSync data calls).2.1.Refines limits base chunks (self.appendSync data calls).1
        (data.drop (self.appendSync data calls).1) ∧
      ((self.appendSync data calls).2.1.file.fd = none →
        (self.appendSync data calls).1 = 0 ∧ (self.appendSync data calls).2.1.file.currentSize = 0) := by
  obtain ⟨opened, still⟩ := ensureOpen_refines empty reopens some_data refines
  have owned := @ensureOpen_fd self.file calls
  unfold appendSync
  rcases res : self.file.ensureOpen calls with ⟨ok, file, rest⟩
  rw [res] at opened still owned
  cases ok with
  | false => exact ⟨opened, fun closed => ⟨rfl, still closed⟩⟩
  | true =>
    have within : (writeAll data.length 0 rest.writes).1 ≤ data.length := writeAll_le _ (Nat.zero_le _)
    have landed := land_refines opened within
    rw [Nat.zero_add] at landed
    exact ⟨landed, fun closed => absurd closed (owned rfl)⟩

theorem appendBatch_refines {calls : Syscalls} (empty : calls.ReopensEmpty) (sound : self.Sound)
    (reopens : self.Reopens) (owed : self.stages.owed.bytes ≠ []) (refines : self.Refines limits base chunks 0 []) :
    let taken := self.stages.takeAppendBatch
    let res := { self with stages := taken.2 }.appendSync taken.1 calls
    let settled := res.2.1.settleAppend taken.1 res.1
    settled.2.Refines limits base chunks 0 [] ∧ settled.2.Reopens := by
  intro taken res settled
  obtain ⟨taken_sound, _, flight⟩ := Stages.takeAppendBatch_spec sound.stages
  have writer : Sound { self with stages := taken.2 } := ⟨taken_sound, sound.file, sound.violated⟩
  obtain ⟨landed_sound, stages, _⟩ := appendSync_spec writer taken.1 calls
  have placed := takeAppendBatch_refines refines
  obtain ⟨landed, closed⟩ := @appendSync_refines limits base chunks { self with stages := taken.2 }
    taken.1 calls empty reopens (takeAppendBatch_ne_nil owed) placed
  have landed_flight : res.2.1.stages.inFlight = taken.1 := by rw [stages]; exact flight
  refine ⟨settleAppend_refines landed_sound.stages landed_flight landed, fun no_fd => ?_⟩
  obtain ⟨nothing, zero⟩ := closed no_fd
  show res.2.1.file.currentSize + res.1 = 0
  rw [zero, nothing]

theorem drainSync_refines (self : Writer) (calls : Syscalls) (sound : self.Sound)
    (grounded : self.stages.inFlight = []) (empty : calls.ReopensEmpty) (reopens : self.Reopens)
    (refines : self.Refines limits base chunks 0 []) :
    (self.drainSync limits calls).1.Refines limits base chunks 0 [] ∧ (self.drainSync limits calls).1.Reopens := by
  induction self, calls using drainSync.induct limits with
  | case1 self calls promoted nothing =>
    rw [drainSync, dif_pos nothing]
    exact promote_refines refines reopens grounded
  | case2 self calls promoted busy taken res settled left =>
    obtain ⟨placed, ready⟩ := promote_refines refines reopens grounded
    have promoted_sound := (promote_spec limits sound grounded).sound
    rw [drainSync, dif_neg busy, dif_pos left]
    exact appendBatch_refines empty promoted_sound ready busy placed
  | case3 self calls promoted busy taken res settled left ih =>
    obtain ⟨placed, ready⟩ := promote_refines refines reopens grounded
    have promoted_sound := (promote_spec limits sound grounded).sound
    obtain ⟨settled_sound, _, settled_grounded⟩ := appendBatch_spec promoted_sound calls
    obtain ⟨landed, reopened⟩ := appendBatch_refines empty promoted_sound ready busy placed
    rw [drainSync, dif_neg busy, dif_neg left]
    exact ih settled_sound settled_grounded (appendSync_opens empty) reopened landed

/-- The numbers of the chunks that made a rotation go up, and none is of a chunk pending. -/
structure Once (writer : Writer) : Prop where
  queued : writer.stages.pending.length ≤ writer.stages.admittedChunks
  ordered : writer.rotations.Pairwise (· < ·)
  decided : ∀ number ∈ writer.rotations,
    0 < number ∧ number + writer.stages.pending.length ≤ writer.stages.admittedChunks

structure Ahead (before after : Writer) : Prop where
  admitted : after.stages.admittedChunks = before.stages.admittedChunks
  once : before.Once → after.Once

theorem Ahead.trans {first second third : Writer} (pre : Ahead first second) (after : Ahead second third) :
    Ahead first third :=
  ⟨after.admitted.trans pre.admitted, after.once ∘ pre.once⟩

theorem Ahead.shrunk {pre after : Writer} (admitted : after.stages.admittedChunks = pre.stages.admittedChunks)
    (rotations : after.rotations = pre.rotations)
    (fewer : after.stages.pending.length ≤ pre.stages.pending.length) : Ahead pre after := by
  refine ⟨admitted, fun once => ⟨?_, ?_, ?_⟩⟩
  · have queued := once.queued
    omega
  · rw [rotations]
    exact once.ordered
  · intro num mem
    rw [rotations] at mem
    have decided := once.decided num mem
    omega

theorem placeHead_ahead {placed : Writer} (places : self.placeHead limits = some placed) : Ahead self placed := by
  unfold placeHead at places
  split_ifs at places with owed
  · cases places
    exact .shrunk rfl rfl (Nat.le_refl _)
  · cases pending : self.stages.pending with
    | nil => simp [pending] at places
    | cons head rest =>
      have len : self.stages.pending.length = rest.length + 1 := by rw [pending, List.length_cons]
      simp only [pending, rotateNow] at places
      split_ifs at places with overflows stranded
      · cases places
        exact .shrunk rfl rfl (by simp [Stages.setOwed, pending])
      · cases places
        refine ⟨rfl, fun once => ⟨?_, ?_, ?_⟩⟩
        · have queued := once.queued
          simp only [Stages.setOwed]
          omega
        · simp only [List.pairwise_append, List.pairwise_cons, List.not_mem_nil, List.Pairwise.nil,
            IsEmpty.forall_iff, implies_true, true_and, List.mem_singleton]
          refine ⟨once.ordered, fun num mem => ?_⟩
          have decided := once.decided num mem
          omega
        · intro num mem
          have queued := once.queued
          simp only [Stages.setOwed]
          rcases List.mem_append.mp mem with earlier | now
          · have decided := once.decided num earlier
            omega
          · have same := List.mem_singleton.mp now
            omega
      · cases places
        exact .shrunk rfl rfl (by simp [Stages.setOwed, pending])

theorem promote_ahead (limits : Limits) (self : Writer) : Ahead self (self.promote limits) := by
  unfold promote
  cases places : self.placeHead limits with
  | none => exact .shrunk rfl rfl (Nat.le_refl _)
  | some placed =>
    have ahead := placeHead_ahead places
    have parts := Stages.coalesce_spec limits (placed.file.currentSize + placed.stages.owed.bytes.length)
      placed.stages.owed.bytes.length placed.stages.pending
    dsimp only
    rcases res : Stages.coalesce limits (placed.file.currentSize + placed.stages.owed.bytes.length)
      placed.stages.owed.bytes.length placed.stages.pending with ⟨taken, left⟩
    rw [res] at parts
    split_ifs
    · exact ahead
    · refine ahead.trans (.shrunk rfl rfl ?_)
      have lengths := congrArg List.length parts
      simp only [List.length_append] at lengths
      show left.length ≤ placed.stages.pending.length
      omega

theorem takeAppendBatch_ahead (self : Writer) : Ahead self { self with stages := self.stages.takeAppendBatch.2 } := by
  refine .shrunk ?_ rfl (by simp [(takeAppendBatch_owed self.stages).2])
  unfold Stages.takeAppendBatch
  split_ifs <;> rfl

theorem settleAppend_ahead (self : Writer) (batch : Bytes) (written : Nat) :
    Ahead self (self.settleAppend batch written).2 := by
  refine .shrunk ?_ rfl (by simp [settleAppend, returnUnwritten_pending])
  unfold settleAppend Stages.returnUnwritten
  dsimp only
  split_ifs
  · rfl
  · split
    · split_ifs <;> rfl
    · rfl

theorem appendSync_ahead (self : Writer) (data : Bytes) (calls : Syscalls) :
    Ahead self (self.appendSync data calls).2.1 := by
  unfold appendSync
  rcases self.file.ensureOpen calls with ⟨ok, -, -⟩
  cases ok <;> exact .shrunk rfl rfl (Nat.le_refl _)

theorem drainSync_ahead (limits : Limits) (self : Writer) (calls : Syscalls) :
    Ahead self (self.drainSync limits calls).1 := by
  induction self, calls using drainSync.induct limits with
  | case1 self calls promoted nothing =>
    rw [drainSync, dif_pos nothing]
    exact promote_ahead limits self
  | case2 self calls promoted busy taken res settled left =>
    rw [drainSync, dif_neg busy, dif_pos left]
    exact (promote_ahead limits self).trans ((takeAppendBatch_ahead _).trans
      ((appendSync_ahead _ _ calls).trans (settleAppend_ahead _ _ _)))
  | case3 self calls promoted busy taken res settled left ih =>
    rw [drainSync, dif_neg busy, dif_neg left]
    exact (promote_ahead limits self).trans ((takeAppendBatch_ahead _).trans
      ((appendSync_ahead _ _ calls).trans ((settleAppend_ahead _ _ _).trans ih)))

end Writer

def TranscriptAct.calls : TranscriptAct → Syscalls
  | .write _ => {}
  | .flush calls => calls
  | .close _ calls => calls
  | .settle calls => calls
  | .flushTimerFires => {}
  | .closeRetryFires calls => calls
  | .chainAdvances calls => calls
  | .wrote _ calls => calls

namespace Transcript

def headerChunks (header : Bytes) : List Bytes := if header.isEmpty then [] else [header]

theorem admits_close {self : Transcript} (is_open : self.closed = false) (footer : Bytes) (calls : Syscalls) :
    self.admits (.close footer calls) = headerChunks footer := by
  simp [admits, is_open, headerChunks]

variable {limits : Limits} {base : PlainWriter} {chunks : List Bytes} {self : Transcript}

def landed (self : Transcript) : Nat := (self.append.map (·.offset)).getD 0

/-- The transcript's files are those of the plain writer, up to the bytes in the append
outstanding, owed and pending. -/
structure Refines (limits : Limits) (base : PlainWriter) (chunks : List Bytes) (transcript : Transcript) : Prop where
  placed : transcript.writer.Refines limits base chunks transcript.landed transcript.unwritten
  reopens : transcript.live = true → transcript.writer.Reopens
  opened : transcript.append ≠ none → transcript.writer.file.fd ≠ none

theorem admitChunk_unshed {stages : Stages} (sound : stages.Sound) {chunk : Bytes}
    (unshed : (stages.admitChunk limits chunk).1 = []) :
    (stages.admitChunk limits chunk).2 = stages.pushPending chunk := by
  have pushed := (Stages.pushPending_spec sound chunk).1
  unfold Stages.admitChunk at unshed ⊢
  dsimp only at unshed ⊢
  split_ifs at unshed ⊢ with crossed
  · have within : (stages.pushPending chunk).retainedByteCount - limits.maxRetainedBytes ≤
        (stages.pushPending chunk).held.length := by
      rw [pushed.retained]
      omega
    obtain ⟨_, parts, short, _⟩ := Stages.shedOldest_spec pushed within
    rw [Stages.trimRetained] at unshed
    rw [unshed, List.nil_append] at parts
    rw [← parts] at short
    omega
  · rfl

theorem pushPending_refines {writer : Writer} {landed : Nat} {tail : Bytes}
    (refines : writer.Refines limits base chunks landed tail) (chunk : Bytes) :
    Writer.Refines limits base (chunks ++ headerChunks chunk)
      { writer with stages := writer.stages.pushPending chunk } landed tail := by
  obtain ⟨decided, parts, files, size⟩ := refines
  cases chunk with
  | nil => exact ⟨decided, parts.trans (List.append_nil chunks).symm, files, size⟩
  | cons byte rest => exact ⟨decided, (List.append_assoc ..).symm.trans (by rw [parts]; rfl), files, size⟩

theorem admitChunk_refines (sound : self.Sound) (refines : self.Refines limits base chunks) (chunk : Bytes)
    (unshed : (self.admitChunk limits chunk).shed = []) :
    (self.admitChunk limits chunk).Refines limits base (chunks ++ headerChunks chunk) := by
  have nothing : (self.writer.stages.admitChunk limits chunk).1 = [] := (List.append_eq_nil_iff.mp unshed).2
  have stages := admitChunk_unshed sound.writer.stages nothing
  have placed := pushPending_refines refines.placed chunk
  rw [← stages] at placed
  exact ⟨placed, refines.reopens, refines.opened⟩

variable {calls : Syscalls}

section

variable (sound : self.Sound)
include sound

theorem drainSync_refines (idle : self.append = none) (ended : self.live = false → self.writer.stages.held = [])
    (empty : calls.ReopensEmpty) (refines : self.Refines limits base chunks) :
    (self.drainSync limits calls).Refines limits base chunks := by
  have grounded : self.writer.stages.inFlight = [] := by rw [sound.flight, idle]; rfl
  have placed := refines.placed
  rw [landed, unwritten, idle] at placed
  cases live : self.live with
  | true =>
    obtain ⟨drained, reopens⟩ := Writer.drainSync_refines self.writer calls sound.writer grounded empty
      (refines.reopens live) placed
    refine ⟨?_, fun _ => reopens, fun outstanding => absurd idle outstanding⟩
    rw [landed, unwritten, drainSync, idle]
    exact drained
  | false =>
    have still := drainSync_empty limits sound.writer (ended live) calls
    refine ⟨?_, fun alive => absurd (live.symm.trans alive) (by decide),
      fun outstanding => absurd idle outstanding⟩
    rw [landed, unwritten, drainSync, idle]
    simp only [still]
    exact placed

theorem drainNext_refines (idle : self.append = none) (live : self.live = true) (empty : calls.ReopensEmpty)
    (refines : self.Refines limits base chunks) : (self.drainNext limits calls).Refines limits base chunks := by
  have grounded : self.writer.stages.inFlight = [] := by rw [sound.flight, idle]; rfl
  have placed := refines.placed
  rw [landed, unwritten, idle] at placed
  obtain ⟨promoted, ready⟩ := Writer.promote_refines placed (refines.reopens live) grounded
  have promoted_sound := (Writer.promote_spec limits sound.writer grounded).sound
  unfold drainNext
  dsimp only
  split_ifs with nothing
  · refine ⟨?_, fun _ => ready, fun outstanding => absurd idle outstanding⟩
    rw [landed, unwritten, idle]
    exact promoted
  · obtain ⟨taken_sound, _, flight⟩ := Stages.takeAppendBatch_spec promoted_sound.stages
    have taken := Writer.takeAppendBatch_refines promoted
    have some_batch := Writer.takeAppendBatch_ne_nil nothing
    obtain ⟨opened, still⟩ := @Writer.ensureOpen_refines limits base chunks
      { self.writer.promote limits with stages := (self.writer.promote limits).stages.takeAppendBatch.2 }
      calls empty ready 0 _ some_batch taken
    have owned := @Writer.ensureOpen_fd (self.writer.promote limits).file calls
    rcases res : (self.writer.promote limits).file.ensureOpen calls with ⟨ok, file, rest⟩
    simp only [res] at opened still owned
    cases ok with
    | true => exact ⟨opened, fun _ => still, fun _ => owned rfl⟩
    | false =>
      have settled := @Writer.settleAppend_refines limits base chunks _ _ 0 taken_sound flight opened
      refine ⟨?_, fun _ closed => still closed, fun outstanding => absurd idle outstanding⟩
      rw [landed, unwritten, idle]
      exact settled

theorem drainAsync_refines (idle : self.append = none) (live : self.closed = false → self.live = true)
    (empty : calls.ReopensEmpty) (refines : self.Refines limits base chunks) :
    (self.drainAsync limits calls).Refines limits base chunks := by
  unfold drainAsync
  split_ifs with done
  · exact refines
  · have is_open : self.closed = false := by
      cases closed : self.closed with
      | false => rfl
      | true => simp [closed] at done
    have started : Sound { self with draining := true } :=
      { sound with }
    exact drainNext_refines started idle (live is_open) empty
      { refines with }

/-- The outstanding write comes back. -/
theorem wrote_refines (live : self.append ≠ none → self.live = true) {outcome : Option Nat}
    (empty : calls.ReopensEmpty) (refines : self.Refines limits base chunks) :
    (self.wrote limits outcome calls).Refines limits base chunks := by
  unfold wrote
  cases outstanding : self.append with
  | none => exact refines
  | some append =>
    have alive : self.live = true := live (by simp [outstanding])
    have owned : self.writer.file.fd ≠ none := refines.opened (by simp [outstanding])
    have flight : self.writer.stages.inFlight = append.batch := by rw [sound.flight, outstanding]; rfl
    have placed := refines.placed
    rw [landed, unwritten, outstanding] at placed
    dsimp only
    generalize outcome_eq : min (outcome.getD 0) (append.batch.length - append.offset) = written
    have within : written ≤ (append.batch.drop append.offset).length := by
      rw [List.length_drop]
      omega
    have landed := Writer.land_refines placed within
    rw [List.drop_drop] at landed
    have writer : (self.writer.land ((append.batch.drop append.offset).take written)).Sound :=
      { sound.writer with }
    have settled := Writer.settleAppend_refines writer.stages flight landed
    have ready : Writer.Reopens ((self.writer.land ((append.batch.drop append.offset).take written)).settleAppend
        append.batch (append.offset + written)).2 := fun closed => absurd closed owned
    split_ifs with more left
    · exact ⟨landed, fun _ closed => absurd closed owned, fun _ => owned⟩
    · exact ⟨settled, fun _ => ready, fun busy => absurd rfl busy⟩
    · have returned := settled_sound sound outstanding written
      exact drainNext_refines returned rfl alive empty ⟨settled, fun _ => ready, fun busy => absurd rfl busy⟩

theorem scheduleCloseRetry_refines (left : 0 < self.writer.stages.retainedByteCount)
    (undropped : self.scheduleCloseRetry.dropped = []) (refines : self.Refines limits base chunks) :
    self.scheduleCloseRetry.Refines limits base chunks := by
  unfold scheduleCloseRetry at undropped ⊢
  split_ifs at undropped ⊢
  · exact { refines with }
  · have nothing : self.writer.stages.held = [] := (List.append_eq_nil_iff.mp undropped).2
    rw [sound.writer.stages.retained, nothing] at left
    exact absurd left (by decide)

end

theorem releaseFd_files (file : File) :
    file.releaseFd.files = file.files ∧ file.releaseFd.currentSize = file.currentSize := by
  unfold File.releaseFd
  split <;> exact ⟨rfl, rfl⟩

theorem finishClose_refines (sound : self.Sound) (idle : self.append = none)
    (ended : self.live = false → self.writer.stages.held = []) (empty : calls.ReopensEmpty)
    (undropped : (self.finishClose limits calls).dropped = []) (refines : self.Refines limits base chunks) :
    (self.finishClose limits calls).Refines limits base chunks := by
  have cleared : Sound { self with closeRetryTimer := false } :=
    { sound with }
  have drained_sound := drainSync_sound limits cleared idle calls
  have drained : (drainSync limits { self with closeRetryTimer := false } calls).Refines limits base chunks :=
    drainSync_refines cleared idle ended empty { refines with }
  unfold finishClose at undropped ⊢
  dsimp only at undropped ⊢
  split_ifs at undropped ⊢ with left
  · exact scheduleCloseRetry_refines drained_sound left undropped drained
  · obtain ⟨files, size⟩ :=
      releaseFd_files (drainSync limits { self with closeRetryTimer := false } calls).writer.file
    obtain ⟨decided, parts, placed, total⟩ := drained.placed
    refine ⟨⟨decided, parts, ?_, ?_⟩, nofun, fun outstanding => absurd idle outstanding⟩
    · rw [files]
      exact placed
    · rw [size]
      exact total

theorem requeue_refines (refines : self.Refines limits base chunks) (closed timer queued : Bool) (chain : List Job) :
    Refines limits base chunks
      { self with closed := closed, flushTimer := timer, drainQueued := queued, flushChain := chain } :=
  { refines with }

theorem ended_held (closing : self.Closing) (dead : self.live = false) : self.writer.stages.held = [] :=
  (closing.ended dead).2.2.1

theorem close_refines (inv : self.Invariant) {footer : Bytes} (empty : calls.ReopensEmpty)
    (unshed : (self.close limits footer calls).shed = []) (undropped : (self.close limits footer calls).dropped = [])
    (refines : self.Refines limits base chunks) :
    (self.close limits footer calls).Refines limits base (chunks ++ self.admits (.close footer calls)) := by
  unfold close at unshed undropped ⊢
  split_ifs at unshed undropped ⊢ with closed
  · simpa [admits, closed] using refines
  · have is_open : self.closed = false := Bool.eq_false_iff.mpr closed
    have live := live_of_open inv.2 is_open
    have shut : Sound { self with closed := true, flushTimer := false } :=
      { inv.1 with }
    have sound := admitChunk_sound limits shut (inv.2.unreported live).1 footer
    have admitted :=
      admitChunk_refines shut (requeue_refines refines true false self.drainQueued self.flushChain) footer
    rw [admits_close is_open]
    dsimp only at unshed undropped ⊢
    split_ifs at unshed undropped ⊢ with draining
    · exact requeue_refines (admitted unshed) true false self.drainQueued (self.flushChain ++ [.finishClose])
    · have idle : self.append = none := idle_of_still inv.2 (Bool.eq_false_iff.mpr draining)
      rw [(finishClose_kept limits _ calls).2] at unshed
      exact finishClose_refines sound idle (fun dead => absurd (live.symm.trans dead) (by decide)) empty undropped
        (admitted unshed)

theorem chainAdvances_refines (inv : self.Invariant) (empty : calls.ReopensEmpty)
    (undropped : (self.chainAdvances limits calls).dropped = []) (refines : self.Refines limits base chunks) :
    (self.chainAdvances limits calls).Refines limits base chunks := by
  unfold chainAdvances at undropped ⊢
  split_ifs at undropped ⊢ with outstanding
  · exact refines
  · have idle : self.append = none := Option.not_isSome_iff_eq_none.mp outstanding
    have live : self.closed = false → self.live = true := live_of_open inv.2
    have held : self.live = false → self.writer.stages.held = [] := ended_held inv.2
    have sound := inv.1
    split at undropped
    · exact refines
    · next rest chain =>
      have begun : Sound { self with flushChain := rest, drainQueued := false } :=
        { sound with }
      exact drainAsync_refines begun idle live empty
        (requeue_refines refines self.closed self.flushTimer false rest)
    · next rest chain =>
      have begun : Sound { self with flushChain := rest } :=
        { sound with }
      exact drainAsync_refines begun idle live empty
        (requeue_refines refines self.closed self.flushTimer self.drainQueued rest)
    · next rest chain =>
      have begun : Sound { self with flushChain := rest } :=
        { sound with }
      exact finishClose_refines begun idle held empty undropped
        (requeue_refines refines self.closed self.flushTimer self.drainQueued rest)

/-- Every event keeps the files to the plain writer's, as long as nothing is shed or given up. -/
theorem step_refines (inv : self.Invariant) {act : TranscriptAct} (empty : act.calls.ReopensEmpty)
    (unshed : (self.step limits act).shed = []) (undropped : (self.step limits act).dropped = [])
    (refines : self.Refines limits base chunks) :
    (self.step limits act).Refines limits base (chunks ++ self.admits act) := by
  have same : chunks ++ [] = chunks := List.append_nil chunks
  have requeued := requeue_refines refines self.closed
  obtain ⟨sound, closing⟩ := inv
  have held : self.live = false → self.writer.stages.held = [] := ended_held closing
  cases act with
  | write chunk =>
    simp only [step, write, admits] at unshed ⊢
    split_ifs at unshed ⊢ with ignored
    · rwa [same]
    · have chunk_in : headerChunks chunk = [chunk] := by
        simp only [Bool.or_eq_true, not_or] at ignored
        rw [headerChunks, if_neg ignored.2]
      rw [← chunk_in]
      exact requeue_refines (admitChunk_refines sound refines chunk unshed) self.closed true self.drainQueued
        self.flushChain
  | flush calls =>
    simp only [step, flush, admits, same]
    split_ifs with closed draining
    · exact refines
    · exact requeued false self.drainQueued (self.flushChain ++ [.drain])
    · have idle : self.append = none := idle_of_still closing (Bool.eq_false_iff.mpr draining)
      have begun : Sound { self with flushTimer := false } :=
        { sound with }
      exact drainSync_refines begun idle held empty (requeued false self.drainQueued self.flushChain)
  | close footer calls => exact close_refines ⟨sound, closing⟩ empty unshed undropped refines
  | settle calls =>
    simp only [step, settle, admits, same] at undropped ⊢
    split_ifs at undropped ⊢ with draining closed left
    · exact refines
    · exact finishClose_refines sound (idle_of_still closing (Bool.eq_false_iff.mpr draining)) held empty
        undropped refines
    · exact refines
    · have idle : self.append = none := idle_of_still closing (Bool.eq_false_iff.mpr draining)
      have begun : Sound { self with flushTimer := false } :=
        { sound with }
      exact drainSync_refines begun idle held empty (requeued false self.drainQueued self.flushChain)
  | flushTimerFires =>
    simp only [step, flushTimerFires, admits, same]
    split_ifs
    · exact requeued false self.drainQueued self.flushChain
    · exact requeued false true (self.flushChain ++ [.scheduled])
    · exact refines
  | closeRetryFires calls =>
    simp only [step, closeRetryFires, admits, same] at undropped ⊢
    split_ifs at undropped ⊢ with fires
    · exact finishClose_refines sound (closing.retry fires).2 held empty undropped refines
    · exact refines
  | chainAdvances calls =>
    simp only [admits, same]
    exact chainAdvances_refines ⟨sound, closing⟩ empty undropped refines
  | wrote outcome calls =>
    simp only [admits, same]
    refine wrote_refines sound (fun outstanding => ?_) empty refines
    by_contra dead
    exact outstanding (closing.ended (Bool.eq_false_iff.mpr dead)).2.1

theorem finishClose_dropped (self : Transcript) (calls : Syscalls) :
    self.dropped <+: (self.finishClose limits calls).dropped := by
  unfold finishClose scheduleCloseRetry
  dsimp only
  split_ifs
  · exact List.prefix_refl _
  · exact List.prefix_append _ _
  · exact List.prefix_refl _

theorem drainNext_dropped (self : Transcript) (calls : Syscalls) :
    self.dropped <+: (self.drainNext limits calls).dropped := by
  obtain ⟨_, _, _, _, _, dropped, _⟩ := drainNext_same limits self calls
  exact dropped ▸ List.prefix_refl _

theorem drainAsync_dropped (self : Transcript) (calls : Syscalls) :
    self.dropped <+: (self.drainAsync limits calls).dropped := by
  unfold drainAsync
  split_ifs
  · exact List.prefix_refl _
  · exact drainNext_dropped { self with draining := true } calls

theorem step_dropped (self : Transcript) (act : TranscriptAct) : self.dropped <+: (self.step limits act).dropped := by
  cases act with
  | write chunk =>
    simp only [step, write]
    split_ifs <;> exact List.prefix_refl _
  | flush calls =>
    simp only [step, flush]
    split_ifs <;> exact List.prefix_refl _
  | close footer calls =>
    simp only [step, close]
    split_ifs
    · exact List.prefix_refl _
    · exact List.prefix_refl _
    · exact finishClose_dropped (admitChunk limits { self with closed := true, flushTimer := false } footer) calls
  | settle calls =>
    simp only [step, settle]
    split_ifs
    · exact List.prefix_refl _
    · exact finishClose_dropped self calls
    · exact List.prefix_refl _
    · exact List.prefix_refl _
  | flushTimerFires =>
    simp only [step, flushTimerFires]
    split_ifs <;> exact List.prefix_refl _
  | closeRetryFires calls =>
    simp only [step, closeRetryFires]
    split_ifs
    · exact finishClose_dropped self calls
    · exact List.prefix_refl _
  | chainAdvances calls =>
    simp only [step, chainAdvances]
    split_ifs
    · exact List.prefix_refl _
    · split
      · exact List.prefix_refl _
      · next rest _ => exact drainAsync_dropped { self with flushChain := rest, drainQueued := false } calls
      · next rest _ => exact drainAsync_dropped { self with flushChain := rest } calls
      · next rest _ => exact finishClose_dropped { self with flushChain := rest } calls
  | wrote outcome calls =>
    simp only [step, wrote]
    split
    · exact List.prefix_refl _
    · split_ifs
      · exact List.prefix_refl _
      · exact List.prefix_refl _
      · exact drainNext_dropped { self with writer := _, append := none } calls

theorem step_unshed (self : Transcript) (act : TranscriptAct) (unshed : (self.step limits act).shed = []) :
    self.shed = [] := by
  rcases (self.step_shed limits act).2 with same | ⟨chunk, _, admitted⟩
  · rwa [same] at unshed
  · rw [admitted] at unshed
    exact (List.append_eq_nil_iff.mp unshed).1

theorem createOn_invariant (limits : Limits) (files : Files) (header : Bytes) :
    (createOn limits files header).Invariant := by
  have fresh : Invariant
      { writer :=
          { stages := {}
            file := { fd := some 0, currentSize := files.liveSize, files := files.openLive } } } :=
    ⟨⟨⟨Stages.sound_fresh, rfl, rfl⟩, rfl, nofun, rfl, ⟨[], .nil, .nil⟩⟩,
      ⟨rfl, nofun, fun _ => ⟨rfl, rfl⟩, .inl ⟨rfl, rfl⟩, nofun, nofun, nofun, Nat.zero_le _⟩⟩
  exact requeue (admitChunk_invariant limits fresh rfl header) true false [] .rfl

theorem run_refines (files : Files) (header : Bytes) (acts : List TranscriptAct)
    (empty : ∀ act ∈ acts, act.calls.ReopensEmpty)
    (unshed : ((createOn limits files header).run limits acts).shed = [])
    (undropped : ((createOn limits files header).run limits acts).dropped = []) :
    ((createOn limits files header).run limits acts).Refines limits (PlainWriter.start files)
      (headerChunks header ++ (createOn limits files header).chunksOf limits acts) := by
  induction acts using List.reverseRecOn with
  | nil =>
    have fresh : Refines limits (PlainWriter.start files) []
        { writer :=
            { stages := {}, file := { fd := some 0, currentSize := files.liveSize, files := files.openLive } } } :=
      ⟨⟨[], rfl, rfl, rfl⟩, fun _ => nofun, fun outstanding => absurd rfl outstanding⟩
    have sound : Sound
        { writer :=
            { stages := {}, file := { fd := some 0, currentSize := files.liveSize, files := files.openLive } } } :=
      ⟨⟨Stages.sound_fresh, rfl, rfl⟩, rfl, nofun, rfl, ⟨[], .nil, .nil⟩⟩
    have admitted := admitChunk_refines sound fresh header unshed
    rw [chunksOf, List.append_nil]
    exact requeue_refines admitted false true false []
  | append_singleton earlier act ih =>
    have ran : (createOn limits files header).run limits (earlier ++ [act]) =
        ((createOn limits files header).run limits earlier).step limits act := by
      simp [run]
    rw [ran] at unshed undropped ⊢
    have pre := ih (fun a mem => empty a (List.mem_append_left _ mem)) (step_unshed _ act unshed)
      (List.prefix_nil.mp (undropped ▸ step_dropped _ act))
    have inv := run_invariant limits (createOn_invariant limits files header) earlier
    rw [chunksOf_append, ← List.append_assoc]
    exact step_refines inv (empty act (List.mem_append_right _ (.head _))) unshed undropped pre

theorem shedPending_length (excess : Nat) (pending : List Bytes) :
    (Stages.shedPending excess pending).2.length ≤ pending.length := by
  induction excess, pending using Stages.shedPending.induct with
  | case1 pending | case2 excess =>
    simp [Stages.shedPending]
  | case3 excess head rest whole shed left eq ih =>
    rw [Stages.shedPending, if_pos whole]
    simp only [List.length_cons]
    omega
  | case4 excess head rest part =>
    rw [Stages.shedPending, if_neg part]
    dsimp only
    split_ifs <;> simp

theorem trimRetained_length (limits : Limits) (stages : Stages) :
    (stages.trimRetained limits).2.pending.length ≤ stages.pending.length ∧
      (stages.trimRetained limits).2.admittedChunks = stages.admittedChunks := by
  unfold Stages.trimRetained Stages.shedOldest
  split_ifs
  · exact ⟨Nat.le_refl _, rfl⟩
  · exact ⟨shedPending_length _ _, rfl⟩
  · exact ⟨Nat.le_refl _, rfl⟩

/-- The chunks are numbered, and each has made at most one rotation. -/
structure Numbered (chunks : List Bytes) (transcript : Transcript) : Prop where
  once : transcript.writer.Once
  count : transcript.writer.stages.admittedChunks = chunks.length

theorem Numbered.ahead {pre after : Transcript} (numbered : pre.Numbered chunks)
    (ahead : Writer.Ahead pre.writer after.writer) : after.Numbered chunks :=
  ⟨ahead.once numbered.once, ahead.admitted.trans numbered.count⟩

theorem admitChunk_numbered (numbered : self.Numbered chunks) (chunk : Bytes) :
    (self.admitChunk limits chunk).Numbered (chunks ++ headerChunks chunk) := by
  obtain ⟨⟨queued, ordered, decided⟩, count⟩ := numbered
  have pushed : Numbered (chunks ++ headerChunks chunk)
      { self with writer := { self.writer with stages := self.writer.stages.pushPending chunk } } := by
    cases chunk with
    | nil => exact ⟨⟨queued, ordered, decided⟩, count.trans (by simp [headerChunks])⟩
    | cons byte rest =>
      refine ⟨⟨?_, ordered, fun num mem => ?_⟩, ?_⟩
      · simpa [Stages.pushPending] using queued
      · have pre := decided num mem
        simp [Stages.pushPending]
        omega
      · simpa [Stages.pushPending, headerChunks] using count
  refine pushed.ahead ?_
  simp only [admitChunk, Stages.admitChunk]
  split_ifs
  · obtain ⟨fewer, admitted⟩ := trimRetained_length limits (self.writer.stages.pushPending chunk)
    exact .shrunk admitted rfl fewer
  · exact .shrunk rfl rfl (Nat.le_refl _)

theorem drainNext_ahead (limits : Limits) (self : Transcript) (calls : Syscalls) :
    Writer.Ahead self.writer (self.drainNext limits calls).writer := by
  have promoted := Writer.promote_ahead limits self.writer
  have taken := promoted.trans (Writer.takeAppendBatch_ahead _)
  unfold drainNext
  dsimp only
  split_ifs
  · exact promoted
  · rcases (self.writer.promote limits).file.ensureOpen calls with ⟨ok, file, -⟩
    have opened : Writer.Ahead self.writer { self.writer.promote limits with
        stages := (self.writer.promote limits).stages.takeAppendBatch.2, file } :=
      taken.trans (.shrunk rfl rfl (Nat.le_refl _))
    cases ok with
    | true => exact opened
    | false => exact opened.trans (Writer.settleAppend_ahead _ _ _)

theorem drainAsync_ahead (limits : Limits) (self : Transcript) (calls : Syscalls) :
    Writer.Ahead self.writer (self.drainAsync limits calls).writer := by
  unfold drainAsync
  split_ifs
  · exact .shrunk rfl rfl (Nat.le_refl _)
  · exact drainNext_ahead limits { self with draining := true } calls

theorem wrote_ahead (limits : Limits) (self : Transcript) (outcome : Option Nat) (calls : Syscalls) :
    Writer.Ahead self.writer (self.wrote limits outcome calls).writer := by
  have land : ∀ bytes, Writer.Ahead self.writer (self.writer.land bytes) :=
    fun _ => .shrunk rfl rfl (Nat.le_refl _)
  unfold wrote
  split
  · exact .shrunk rfl rfl (Nat.le_refl _)
  · dsimp only
    split_ifs
    · exact land _
    · exact (land _).trans (Writer.settleAppend_ahead _ _ _)
    · exact ((land _).trans (Writer.settleAppend_ahead _ _ _)).trans
        (drainNext_ahead limits { self with writer := _, append := none } calls)

theorem finishClose_ahead (limits : Limits) (self : Transcript) (calls : Syscalls) :
    Writer.Ahead self.writer (self.finishClose limits calls).writer := by
  have drained : Writer.Ahead self.writer (drainSync limits { self with closeRetryTimer := false } calls).writer :=
    Writer.drainSync_ahead limits self.writer calls
  unfold finishClose scheduleCloseRetry
  dsimp only
  split_ifs
  · exact drained
  · exact drained.trans (.shrunk rfl rfl (Nat.zero_le _))
  · exact drained.trans (.shrunk rfl rfl (Nat.le_refl _))

theorem step_numbered (numbered : self.Numbered chunks) (act : TranscriptAct) :
    (self.step limits act).Numbered (chunks ++ self.admits act) := by
  have same : chunks ++ [] = chunks := List.append_nil chunks
  have shut : Numbered chunks { self with closed := true, flushTimer := false } := ⟨numbered.once, numbered.count⟩
  have admitted := @admitChunk_numbered limits chunks _ shut
  cases act with
  | write chunk =>
    simp only [step, write, admits]
    split_ifs with ignored
    · rwa [same]
    · have chunk_in : headerChunks chunk = [chunk] := by
        simp only [Bool.or_eq_true, not_or] at ignored
        rw [headerChunks, if_neg ignored.2]
      rw [← chunk_in]
      exact (admitChunk_numbered numbered chunk).ahead (.shrunk rfl rfl (Nat.le_refl _))
  | flush calls =>
    simp only [step, flush, admits, same]
    split_ifs
    · exact numbered
    · exact numbered.ahead (.shrunk rfl rfl (Nat.le_refl _))
    · exact numbered.ahead (Writer.drainSync_ahead limits self.writer calls)
  | close footer calls =>
    simp only [step, close]
    split_ifs with closed draining
    · simpa [admits, closed] using numbered
    · rw [admits_close (Bool.eq_false_iff.mpr closed)]
      exact (admitted footer).ahead (.shrunk rfl rfl (Nat.le_refl _))
    · rw [admits_close (Bool.eq_false_iff.mpr closed)]
      exact (admitted footer).ahead (finishClose_ahead limits _ calls)
  | settle calls =>
    simp only [step, settle, admits, same]
    split_ifs
    · exact numbered
    · exact numbered.ahead (finishClose_ahead limits self calls)
    · exact numbered
    · exact numbered.ahead (Writer.drainSync_ahead limits self.writer calls)
  | flushTimerFires =>
    simp only [step, flushTimerFires, admits, same]
    split_ifs <;> exact numbered.ahead (.shrunk rfl rfl (Nat.le_refl _))
  | closeRetryFires calls =>
    simp only [step, closeRetryFires, admits, same]
    split_ifs
    · exact numbered.ahead (finishClose_ahead limits self calls)
    · exact numbered
  | chainAdvances calls =>
    simp only [step, chainAdvances, admits, same]
    split_ifs
    · exact numbered
    · split
      · exact numbered
      · next rest _ =>
        exact numbered.ahead (drainAsync_ahead limits { self with flushChain := rest, drainQueued := false } calls)
      · next rest _ => exact numbered.ahead (drainAsync_ahead limits { self with flushChain := rest } calls)
      · next rest _ => exact numbered.ahead (finishClose_ahead limits { self with flushChain := rest } calls)
  | wrote outcome calls =>
    simp only [admits, same]
    exact numbered.ahead (wrote_ahead limits self outcome calls)

theorem run_numbered (limits : Limits) (files : Files) (header : Bytes) (acts : List TranscriptAct) :
    ((createOn limits files header).run limits acts).Numbered
      (headerChunks header ++ (createOn limits files header).chunksOf limits acts) := by
  induction acts using List.reverseRecOn with
  | nil =>
    have fresh : Numbered []
        { writer :=
            { stages := {}, file := { fd := some 0, currentSize := files.liveSize, files := files.openLive } } } :=
      ⟨⟨Nat.le_refl _, .nil, nofun⟩, rfl⟩
    rw [chunksOf, List.append_nil]
    exact (admitChunk_numbered fresh header).ahead (.shrunk rfl rfl (Nat.le_refl _))
  | append_singleton earlier act ih =>
    have ran : (createOn limits files header).run limits (earlier ++ [act]) =
        ((createOn limits files header).run limits earlier).step limits act := by
      simp [run]
    rw [ran, chunksOf_append, ← List.append_assoc]
    exact step_numbered ih act

structure Written (transcript : Transcript) : Prop where
  unshed : transcript.shed = []
  undropped : transcript.dropped = []
  idle : transcript.append = none
  held : transcript.writer.stages.held = []

/-- When all is written the files are the plain writer's, and each chunk makes at most one rotation, none over bytes
owed. -/
theorem transcript_rotation (limits : Limits) (files : Files) (header : Bytes) (acts : List TranscriptAct) :
    let t := (createOn limits files header).run limits acts
    let chunks := headerChunks header ++ (createOn limits files header).chunksOf limits acts
    ((∀ act ∈ acts, act.calls.ReopensEmpty) → t.Written →
      t.writer.file.files = ((PlainWriter.start files).run limits chunks).files) ∧
    t.writer.rotations.Pairwise (· < ·) ∧
    (∀ number ∈ t.writer.rotations, 0 < number ∧ number ≤ chunks.length) ∧
    t.writer.violated = false := by
  intro t chunks
  have numbered : t.Numbered chunks := run_numbered limits files header acts
  have invariant : t.Invariant := run_invariant limits (createOn_invariant limits files header) acts
  refine ⟨fun empty written => ?_, numbered.once.ordered, fun number member => ?_, invariant.1.writer.violated⟩
  · obtain ⟨decided, parts, placed, _⟩ :=
      (run_refines files header acts empty written.unshed written.undropped).placed
    have nothing := List.append_eq_nil_iff.mp written.held
    have pending : t.writer.stages.pending = [] := by
      cases queue : t.writer.stages.pending with
      | nil => rfl
      | cons chunk rest =>
        have flat := nothing.2
        rw [queue, List.flatten_cons] at flat
        exact absurd (List.append_eq_nil_iff.mp flat).1
          (invariant.1.writer.stages.chunks chunk (by rw [queue]; exact .head _))
    have all : decided = chunks := by rw [← List.append_nil decided, ← pending]; exact parts
    have unwritten : t.unwritten = [] := by rw [Transcript.unwritten, written.idle]
    rw [all] at placed
    rw [placed]
    rw [unwritten, nothing.1, List.append_nil, Files.append_nil]
  · have decided := numbered.once.decided number member
    have count := numbered.count
    omega

def smallFiles : Limits := { maxFileSizeBytes := 8, maxRetainedBytes := 100, maxRotatedFiles := 1 }

def shortWriteActs : List TranscriptAct :=
  [.write [5, 6, 7], .write [8, 9], .flushTimerFires, .chainAdvances {}, .wrote (some 3) {},
    .wrote (some 4) { opens := [some 0] }, .wrote (some 2) {}]

theorem transcript_rotation_short :
    let t := (createOn smallFiles (fun _ => none) [1, 2, 3, 4]).run smallFiles shortWriteActs
    t.writer.file.files =
      ((PlainWriter.start fun _ => none).run smallFiles [[1, 2, 3, 4], [5, 6, 7], [8, 9]]).files := by
  refine (transcript_rotation smallFiles (fun _ => none) [1, 2, 3, 4] shortWriteActs).1 ?_ ?_
  · have opens : ∀ act ∈ shortWriteActs, ∀ outcome ∈ act.calls.opens, outcome = some 0 := by decide
    intro act member size found
    exact Option.some.inj (opens act member _ found)
  · exact ⟨by decide, by decide, Option.isNone_iff_eq_none.mp (by decide), by decide⟩

end Transcript

end NexTerminal.Logging
