import NexTerminal.Logging.StageContent
import NexTerminal.Library.Sequences

namespace NexTerminal.Logging

open Library

namespace Transcript

/-- The part of the batch in flight that has not been written. -/
def unwritten (self : Transcript) : Bytes :=
  match self.append with
  | none => []
  | some append => append.batch.drop append.offset

/-- The bytes in the order of their stages, last those that a close gave up. -/
def content (self : Transcript) : Bytes :=
  self.writer.appended ++ self.unwritten ++ self.writer.stages.held ++ self.dropped

/-- Everything admitted is there in its order, but for what was shed. -/
def Accounted (self : Transcript) : Prop :=
  ∃ gone, gone.Perm self.shed ∧ Interleaved self.content gone self.admitted

/-- The chunks that an event lets in: an empty one is none. -/
def admits (self : Transcript) : TranscriptAct → List Bytes
  | .write chunk => if self.closed || chunk.isEmpty then [] else [chunk]
  | .close footer _ => if self.closed || footer.isEmpty then [] else [footer]
  | _ => []

def chunksOf (limits : Limits) (self : Transcript) : List TranscriptAct → List Bytes
  | [] => []
  | act :: rest => self.admits act ++ chunksOf limits (self.step limits act) rest

structure Sound (transcript : Transcript) : Prop where
  writer : transcript.writer.Sound
  flight : transcript.writer.stages.inFlight = (transcript.append.map (·.batch)).getD []
  offset : ∀ append, transcript.append = some append → append.offset < append.batch.length
  overlaps : transcript.overlaps = 0
  accounted : transcript.Accounted

structure Closing (transcript : Transcript) : Prop where
  draining : transcript.draining = transcript.append.isSome
  ended : transcript.live = false → transcript.closed = true ∧ transcript.append = none ∧
    transcript.writer.stages.held = [] ∧ transcript.writer.file.fd = none
  unreported : transcript.live = true → transcript.dropped = [] ∧ transcript.reported = []
  reported : transcript.dropped = [] ∧ transcript.reported = [] ∨
    transcript.dropped ≠ [] ∧ transcript.reported = [transcript.dropped.length]
  awaited : transcript.closed = true → transcript.live = true →
    .finishClose ∈ transcript.flushChain ∨ transcript.closeRetryTimer = true
  queued : .finishClose ∈ transcript.flushChain → transcript.closed = true
  retry : transcript.closeRetryTimer = true → transcript.closed = true ∧ transcript.append = none
  attempts : transcript.closeAttempt ≤ CLOSE_RETRY_DELAYS_MS.length

theorem Accounted.of_content {pre after : Transcript} (accounted : pre.Accounted)
    (content : after.content = pre.content) (shed : after.shed = pre.shed)
    (admitted : after.admitted = pre.admitted) : after.Accounted := by
  unfold Accounted at accounted ⊢
  rwa [content, shed, admitted]

variable (limits : Limits) {self : Transcript}

section

variable (sound : self.Sound)
include sound

theorem admitChunk_sound (undropped : self.dropped = []) (chunk : Bytes) : (self.admitChunk limits chunk).Sound := by
  obtain ⟨stages, parts, flight, _⟩ := self.writer.stages.admitChunk_spec limits sound.writer.stages chunk
  refine ⟨⟨stages, sound.writer.file, sound.writer.violated⟩, flight.trans sound.flight, sound.offset,
    sound.overlaps, ?_⟩
  obtain ⟨gone, same, split⟩ := sound.accounted
  have longer := split.append chunk
  have whole : self.content ++ chunk = (self.writer.appended ++ self.unwritten) ++
      (self.writer.stages.admitChunk limits chunk).1 ++ (self.writer.stages.admitChunk limits chunk).2.held := by
    simp [content, undropped, parts]
  obtain ⟨others, more, left⟩ := longer.remove whole
  refine ⟨others, more.trans (same.append_right _), ?_⟩
  have after : (self.admitChunk limits chunk).content =
      (self.writer.appended ++ self.unwritten) ++ (self.writer.stages.admitChunk limits chunk).2.held := by
    show _ ++ _ ++ _ ++ self.dropped = _
    rw [undropped, List.append_nil]
    rfl
  rw [after]
  exact left

theorem drainSync_sound (idle : self.append = none) (calls : Syscalls) : (self.drainSync limits calls).Sound := by
  have grounded : self.writer.stages.inFlight = [] := by rw [sound.flight, idle]; rfl
  obtain ⟨writer, content, flight⟩ := self.writer.drainSync_spec limits calls sound.writer grounded
  refine ⟨writer, ?_, sound.offset, ?_, sound.accounted.of_content ?_ rfl rfl⟩
  · rw [drainSync, idle]
    exact flight
  · simp [drainSync, overlap, idle, sound.overlaps]
  · have silent : self.unwritten = [] := by rw [unwritten, idle]
    have still : (self.drainSync limits calls).unwritten = [] := by rw [unwritten, drainSync, idle]
    rw [Transcript.content, Transcript.content, silent, still, List.append_nil, List.append_nil]
    exact congrArg (· ++ self.dropped) content

theorem sound_of_content {after : Transcript} (writer : after.writer.Sound)
    (flight : after.writer.stages.inFlight = (after.append.map (·.batch)).getD [])
    (off : ∀ append, after.append = some append → append.offset < append.batch.length)
    (overlaps : after.overlaps = 0) (shed : after.shed = self.shed) (admitted : after.admitted = self.admitted)
    (dropped : after.dropped = self.dropped)
    (same : after.writer.appended ++ (after.unwritten ++ after.writer.stages.held) =
      self.writer.appended ++ (self.unwritten ++ self.writer.stages.held)) : after.Sound := by
  refine ⟨writer, flight, off, overlaps, sound.accounted.of_content ?_ shed admitted⟩
  rw [content, content, dropped, List.append_assoc _ after.unwritten, same, List.append_assoc _ self.unwritten]

theorem drainNext_sound (idle : self.append = none) (calls : Syscalls) (draining : self.draining = true) :
    (self.drainNext limits calls).Sound ∧
      (self.drainNext limits calls).draining = (self.drainNext limits calls).append.isSome := by
  have grounded : self.writer.stages.inFlight = [] := by rw [sound.flight, idle]; rfl
  have silent : self.unwritten = [] := by rw [unwritten, idle]
  obtain ⟨promoted, held, flight, appended⟩ := Writer.promote_spec limits sound.writer grounded
  unfold drainNext
  dsimp only
  split_ifs with empty
  · refine ⟨sound_of_content sound promoted ?_ sound.offset sound.overlaps rfl rfl rfl ?_, ?_⟩
    · rw [flight, idle]
      rfl
    · rw [appended, held]
      rfl
    · rw [idle]
      rfl
  · obtain ⟨taken, parts, taken_flight⟩ := Stages.takeAppendBatch_spec promoted.stages
    have some_batch := Writer.takeAppendBatch_ne_nil empty
    have opened := File.ensureOpen_sound promoted.file calls
    rcases res : (self.writer.promote limits).file.ensureOpen calls with ⟨ok, file, rest⟩
    rw [res] at opened
    cases ok with
    | true =>
      refine ⟨sound_of_content sound ⟨taken, opened,
        promoted.violated⟩ taken_flight ?_ ?_ rfl rfl rfl ?_, draining⟩
      · intro append same
        cases same
        exact List.length_pos_of_ne_nil some_batch
      · simp [overlap, idle, sound.overlaps]
      · rw [appended, silent, List.nil_append, ← held, ← parts]
        rfl
    | false =>
      have writer : Writer.Sound { self.writer.promote limits with
          stages := (self.writer.promote limits).stages.takeAppendBatch.2, file } := ⟨taken, opened,
            promoted.violated⟩
      obtain ⟨settled, back, settled_flight, kept⟩ := Writer.settleAppend_spec writer taken_flight 0
      refine ⟨sound_of_content sound settled ?_ sound.offset sound.overlaps rfl rfl rfl ?_, ?_⟩
      · rw [idle]
        exact settled_flight
      · show (Writer.settleAppend _ _ 0).2.appended ++
          (self.unwritten ++ (Writer.settleAppend _ _ 0).2.stages.held) = _
        rw [kept, back, appended, List.drop_zero, ← held, ← parts]
      · rw [idle]
        rfl

theorem drainAsync_sound (idle : self.append = none) (draining : self.draining = false) (calls : Syscalls) :
    (self.drainAsync limits calls).Sound ∧
      (self.drainAsync limits calls).draining = (self.drainAsync limits calls).append.isSome := by
  unfold drainAsync
  split_ifs
  · exact ⟨sound, by rw [draining, idle]; rfl⟩
  · have started : Sound { self with draining := true } :=
      { sound with }
    exact drainNext_sound limits started idle calls rfl

end

theorem landed_content {append : Append} (outstanding : self.append = some append) (written : Nat) :
    (self.writer.appended ++ (append.batch.drop append.offset).take written) ++
        (append.batch.drop (append.offset + written) ++ self.writer.stages.held) =
      self.writer.appended ++ (self.unwritten ++ self.writer.stages.held) := by
  have rest : self.unwritten = append.batch.drop append.offset := by rw [unwritten, outstanding]
  have parts : (append.batch.drop append.offset).take written ++ append.batch.drop (append.offset + written) =
      append.batch.drop append.offset := by
    rw [← List.drop_drop, List.take_append_drop]
  rw [rest, List.append_assoc, ← List.append_assoc ((append.batch.drop append.offset).take written), parts]

theorem settled_sound (sound : self.Sound) {append : Append} (outstanding : self.append = some append)
    (written : Nat) :
    Sound { self with
      writer := ((self.writer.land ((append.batch.drop append.offset).take written)).settleAppend
        append.batch (append.offset + written)).2
      append := none } := by
  have flight : self.writer.stages.inFlight = append.batch := by rw [sound.flight, outstanding]; rfl
  have writer : (self.writer.land ((append.batch.drop append.offset).take written)).Sound :=
    { sound.writer with }
  obtain ⟨settled, back, grounded, kept⟩ := Writer.settleAppend_spec writer flight (append.offset + written)
  refine sound_of_content sound settled grounded nofun sound.overlaps rfl rfl rfl ?_
  rw [← landed_content outstanding written, kept, back]
  rfl

/-- The outstanding write comes back. -/
theorem wrote_sound (sound : self.Sound) (draining : self.draining = self.append.isSome) (outcome : Option Nat)
    (calls : Syscalls) :
    (self.wrote limits outcome calls).Sound ∧
      (self.wrote limits outcome calls).draining = (self.wrote limits outcome calls).append.isSome := by
  unfold wrote
  cases outstanding : self.append with
  | none => exact ⟨sound, by rw [draining, outstanding]⟩
  | some append =>
    have flight : self.writer.stages.inFlight = append.batch := by rw [sound.flight, outstanding]; rfl
    rw [outstanding] at draining
    dsimp only
    generalize min (outcome.getD 0) (append.batch.length - append.offset) = written
    have writer : (self.writer.land ((append.batch.drop append.offset).take written)).Sound :=
      { sound.writer with }
    have returned := settled_sound sound outstanding written
    split_ifs with more left
    · refine ⟨sound_of_content sound writer flight ?_ sound.overlaps rfl rfl rfl
        (landed_content outstanding written), draining⟩
      intro other equal
      cases equal
      exact more.2
    · exact ⟨{ returned with }, rfl⟩
    · exact drainNext_sound limits returned rfl calls draining

theorem releaseFd_writer_sound {writer : Writer} (sound : writer.Sound) :
    Writer.Sound { writer with file := writer.file.releaseFd } ∧ writer.file.releaseFd.fd = none :=
  ⟨⟨sound.stages, (File.releaseFd_sound sound.file).1, sound.violated⟩, (File.releaseFd_sound sound.file).2⟩

theorem drainSync_empty {writer : Writer} (sound : writer.Sound) (empty : writer.stages.held = []) (calls : Syscalls) :
    (writer.drainSync limits calls).1 = writer := by
  obtain ⟨nothing, none_left⟩ := List.append_eq_nil_iff.mp empty
  have pending : writer.stages.pending = [] := by
    cases chunks : writer.stages.pending with
    | nil => rfl
    | cons chunk rest =>
      rw [chunks, List.flatten_cons] at none_left
      exact absurd (List.append_eq_nil_iff.mp none_left).1 (sound.stages.chunks chunk (chunks ▸ .head _))
  have unplaced : writer.promote limits = writer := by
    simp [Writer.promote, Writer.placeHead, nothing, pending]
  rw [Writer.drainSync, unplaced, dif_pos nothing]

theorem abandonTail_spec (sound : self.Sound) (undropped : self.dropped = []) :
    self.abandonTail.Sound ∧ self.abandonTail.dropped = self.writer.stages.held ∧
      self.abandonTail.writer.stages.held = [] ∧ self.abandonTail.writer.file.fd = none := by
  obtain ⟨released, no_fd⟩ := releaseFd_writer_sound sound.writer
  refine ⟨⟨⟨⟨rfl, nofun, nofun, nofun⟩, released.file, released.violated⟩, sound.flight, sound.offset,
    sound.overlaps, sound.accounted.of_content ?_ rfl rfl⟩, ?_, rfl, no_fd⟩
  · simp only [content, undropped, List.append_nil]
    show self.writer.appended ++ self.unwritten ++ [] ++ (self.dropped ++ self.writer.stages.held) = _
    rw [undropped, List.append_nil, List.nil_append]
  · show self.dropped ++ self.writer.stages.held = _
    rw [undropped, List.nil_append]

structure Drained (transcript : Transcript) : Prop where
  sound : transcript.Sound
  idle : transcript.append = none
  draining : transcript.draining = false
  closed : transcript.closed = true
  timer : transcript.closeRetryTimer = false
  ended : transcript.live = false → transcript.writer.stages.held = [] ∧ transcript.writer.file.fd = none
  unreported : transcript.live = true → transcript.dropped = [] ∧ transcript.reported = []
  reported : transcript.dropped = [] ∧ transcript.reported = [] ∨
    transcript.dropped ≠ [] ∧ transcript.reported = [transcript.dropped.length]
  attempts : transcript.closeAttempt ≤ CLOSE_RETRY_DELAYS_MS.length

theorem scheduleCloseRetry_spec (drained : self.Drained) (left : 0 < self.writer.stages.retainedByteCount) :
    self.scheduleCloseRetry.Sound ∧ self.scheduleCloseRetry.Closing := by
  have size := drained.sound.writer.stages.retained
  have live : self.live = true := by
    by_contra dead
    have empty := (drained.ended (Bool.eq_false_iff.mpr dead)).1
    rw [size, empty] at left
    exact absurd left (by decide)
  obtain ⟨undropped, none_reported⟩ := drained.unreported live
  have sound := drained.sound
  unfold scheduleCloseRetry
  split_ifs with more
  · refine ⟨{ sound with }, ⟨?_, ?_,
      fun _ => ⟨undropped, none_reported⟩, .inl ⟨undropped, none_reported⟩, fun _ _ => .inr rfl,
      fun _ => drained.closed, fun _ => ⟨drained.closed, drained.idle⟩, more⟩⟩
    · exact drained.draining.trans (by rw [drained.idle]; rfl)
    · intro dead
      exact absurd (live.symm.trans dead) (by decide)
  · obtain ⟨abandoned, dropped, empty, no_fd⟩ := abandonTail_spec sound undropped
    refine ⟨abandoned, ⟨?_, fun _ => ⟨drained.closed, drained.idle, empty, no_fd⟩, nofun, .inr ⟨?_, ?_⟩,
      fun _ => nofun,
      fun _ => drained.closed, fun timer => absurd (drained.timer.symm.trans timer) (by decide), drained.attempts⟩⟩
    · exact drained.draining.trans (by rw [abandonTail, drained.idle]; rfl)
    · rw [dropped]
      intro nothing
      rw [size, nothing] at left
      exact absurd left (by decide)
    · rw [dropped, ← size]
      show self.reported ++ _ = _
      rw [none_reported]
      rfl

theorem finishClose_spec (sound : self.Sound) (idle : self.append = none) (draining : self.draining = false)
    (closed : self.closed = true)
    (ended : self.live = false → self.writer.stages.held = [] ∧ self.writer.file.fd = none)
    (unreported : self.live = true → self.dropped = [] ∧ self.reported = [])
    (reported : self.dropped = [] ∧ self.reported = [] ∨ self.dropped ≠ [] ∧
      self.reported = [self.dropped.length])
    (attempts : self.closeAttempt ≤ CLOSE_RETRY_DELAYS_MS.length) (calls : Syscalls) :
    (self.finishClose limits calls).Sound ∧ (self.finishClose limits calls).Closing := by
  have cleared : Sound { self with closeRetryTimer := false } :=
    { sound with }
  have drained : Drained (drainSync limits { self with closeRetryTimer := false } calls) := by
    refine ⟨drainSync_sound limits cleared idle calls, idle, draining, closed, rfl, fun dead => ?_, unreported,
      reported, attempts⟩
    obtain ⟨empty, no_fd⟩ := ended dead
    have same : (drainSync limits { self with closeRetryTimer := false } calls).writer = self.writer :=
      drainSync_empty limits sound.writer empty calls
    rw [same]
    exact ⟨empty, no_fd⟩
  unfold finishClose
  dsimp only
  split_ifs with left
  · exact scheduleCloseRetry_spec drained left
  · obtain ⟨released, no_fd⟩ := releaseFd_writer_sound drained.sound.writer
    have empty : (drainSync limits { self with closeRetryTimer := false } calls).writer.stages.held = [] := by
      rw [drained.sound.writer.stages.retained] at left
      exact List.length_eq_zero_iff.mp (by omega)
    refine ⟨{ drained.sound with writer := released },
      ⟨?_, fun _ => ⟨drained.closed, drained.idle, empty, no_fd⟩, nofun, drained.reported, fun _ => nofun,
        fun _ => drained.closed, fun timer =>
          absurd (drained.timer.symm.trans timer) (by decide), drained.attempts⟩⟩
    exact drained.draining.trans (by rw [drained.idle]; rfl)

def SameClosing (before after : Transcript) : Prop :=
  after.closed = before.closed ∧ after.live = before.live ∧ after.flushChain = before.flushChain ∧
    after.closeRetryTimer = before.closeRetryTimer ∧ after.closeAttempt = before.closeAttempt ∧
    after.dropped = before.dropped ∧ after.reported = before.reported

theorem drainNext_same (self : Transcript) (calls : Syscalls) : SameClosing self (self.drainNext limits calls) := by
  unfold drainNext
  dsimp only
  split_ifs
  · exact ⟨rfl, rfl, rfl, rfl, rfl, rfl, rfl⟩
  · split <;> exact ⟨rfl, rfl, rfl, rfl, rfl, rfl, rfl⟩

theorem closing_of_same {pre after : Transcript} (closing : pre.Closing) (same : SameClosing pre after)
    (live : pre.live = true) (draining : after.draining = after.append.isSome)
    (timer : pre.closeRetryTimer = false) : after.Closing := by
  obtain ⟨closed, same_live, chain, same_timer, attempt, dropped, reported⟩ := same
  refine ⟨draining, fun dead => ?_, fun _ => ?_, ?_, fun is_closed _ => ?_, fun job => ?_, fun set => ?_,
    attempt ▸ closing.attempts⟩
  · exact absurd (live.symm.trans (same_live.symm.trans dead)) (by decide)
  · rw [dropped, reported]
    exact closing.unreported live
  · rw [dropped, reported]
    exact closing.reported
  · rw [chain, same_timer]
    exact closing.awaited (closed ▸ is_closed) live
  · rw [closed]
    exact closing.queued (chain ▸ job)
  · exact absurd (timer.symm.trans (same_timer.symm.trans set)) (by decide)

theorem live_of_open (closing : self.Closing) (is_open : self.closed = false) : self.live = true := by
  by_contra dead
  have closed := (closing.ended (Bool.eq_false_iff.mpr dead)).1
  exact absurd (is_open.symm.trans closed) (by decide)

theorem no_retry_of_open (closing : self.Closing) (is_open : self.closed = false) : self.closeRetryTimer = false := by
  by_contra timer
  have closed := (closing.retry (by simpa using timer)).1
  exact absurd (is_open.symm.trans closed) (by decide)

def Invariant (self : Transcript) : Prop := self.Sound ∧ self.Closing

theorem finishClose_invariant (sound : self.Sound) (closing : self.Closing) (closed : self.closed = true)
    (idle : self.append = none) (calls : Syscalls) : (self.finishClose limits calls).Invariant :=
  finishClose_spec limits sound idle (closing.draining.trans (by rw [idle]; rfl)) closed
    (fun dead => (closing.ended dead).2.2) closing.unreported closing.reported closing.attempts calls

theorem requeue (inv : self.Invariant) (timer queued : Bool) (chain : List Job)
    (same : .finishClose ∈ chain ↔ .finishClose ∈ self.flushChain) :
    Invariant { self with flushTimer := timer, drainQueued := queued, flushChain := chain } := by
  obtain ⟨sound, closing⟩ := inv
  exact ⟨{ sound with },
    { closing with
      awaited := fun closed live => (closing.awaited closed live).imp_left same.mpr
      queued := fun job => closing.queued (same.mp job) }⟩

theorem drainAsync_invariant (inv : self.Invariant) (idle : self.append = none) (calls : Syscalls) :
    (self.drainAsync limits calls).Invariant := by
  obtain ⟨sound, closing⟩ := inv
  have draining : self.draining = false := closing.draining.trans (by rw [idle]; rfl)
  obtain ⟨drained, after⟩ := drainAsync_sound limits sound idle draining calls
  refine ⟨drained, ?_⟩
  cases closed : self.closed with
  | true =>
    have still : self.drainAsync limits calls = self := by rw [drainAsync, closed]; rfl
    rwa [still]
  | false =>
    refine closing_of_same closing ?_ (live_of_open closing closed) after (no_retry_of_open closing closed)
    unfold drainAsync
    split_ifs
    · exact ⟨rfl, rfl, rfl, rfl, rfl, rfl, rfl⟩
    · exact drainNext_same limits { self with draining := true } calls

theorem drainSync_invariant (inv : self.Invariant) (is_open : self.closed = false) (idle : self.append = none)
    (calls : Syscalls) : (self.drainSync limits calls).Invariant := by
  obtain ⟨sound, closing⟩ := inv
  exact ⟨drainSync_sound limits sound idle calls,
    closing_of_same closing ⟨rfl, rfl, rfl, rfl, rfl, rfl, rfl⟩ (live_of_open closing is_open) closing.draining
      (no_retry_of_open closing is_open)⟩

theorem idle_of_still (closing : self.Closing) (still : self.draining = false) : self.append = none := by
  have none_outstanding := closing.draining.symm.trans still
  exact Option.not_isSome_iff_eq_none.mp (by rw [none_outstanding]; decide)

section

variable (inv : self.Invariant)
include inv

theorem wrote_invariant (outcome : Option Nat) (calls : Syscalls) : (self.wrote limits outcome calls).Invariant := by
  obtain ⟨sound, closing⟩ := inv
  obtain ⟨after, draining⟩ := wrote_sound limits sound closing.draining outcome calls
  refine ⟨after, ?_⟩
  cases outstanding : self.append with
  | none =>
    have still : self.wrote limits outcome calls = self := by rw [wrote, outstanding]
    rwa [still]
  | some append =>
    have live : self.live = true := by
      by_contra dead
      have idle := (closing.ended (Bool.eq_false_iff.mpr dead)).2.1
      exact absurd (outstanding.symm.trans idle) nofun
    have timer : self.closeRetryTimer = false := by
      by_contra set
      have idle := (closing.retry (by simpa using set)).2
      exact absurd (outstanding.symm.trans idle) nofun
    refine closing_of_same closing ?_ live draining timer
    unfold wrote
    rw [outstanding]
    dsimp only
    split_ifs
    · exact ⟨rfl, rfl, rfl, rfl, rfl, rfl, rfl⟩
    · exact ⟨rfl, rfl, rfl, rfl, rfl, rfl, rfl⟩
    · exact drainNext_same limits { self with writer := _, append := none } calls

theorem admitChunk_invariant (is_open : self.closed = false) (chunk : Bytes) :
    (self.admitChunk limits chunk).Invariant := by
  obtain ⟨sound, closing⟩ := inv
  have live := live_of_open closing is_open
  exact ⟨admitChunk_sound limits sound (closing.unreported live).1 chunk,
    closing_of_same closing ⟨rfl, rfl, rfl, rfl, rfl, rfl, rfl⟩ live closing.draining
      (no_retry_of_open closing is_open)⟩

theorem close_invariant (footer : Bytes) (calls : Syscalls) : (self.close limits footer calls).Invariant := by
  unfold close
  split_ifs with closed
  · exact inv
  · have live := live_of_open inv.2 (Bool.eq_false_iff.mpr closed)
    have timer := no_retry_of_open inv.2 (Bool.eq_false_iff.mpr closed)
    obtain ⟨undropped, -⟩ := inv.2.unreported live
    have shut : Sound { self with closed := true, flushTimer := false } :=
      { inv.1 with }
    have admitted := admitChunk_sound limits shut undropped footer
    dsimp only
    split_ifs with draining
    · refine ⟨{ admitted with },
        { inv.2 with
          ended := fun dead => absurd (live.symm.trans dead) (by decide), awaited := fun _ _ => .inl ?_
          queued := fun _ => rfl, retry := fun set => absurd (timer.symm.trans set) (by decide) }⟩
      exact List.mem_append_right _ (.head _)
    · have still : self.draining = false := Bool.eq_false_iff.mpr draining
      have idle : self.append = none := idle_of_still inv.2 still
      exact finishClose_spec limits admitted idle still rfl
        (fun dead => absurd (live.symm.trans dead) (by decide)) inv.2.unreported inv.2.reported
        inv.2.attempts calls

theorem settle_invariant (calls : Syscalls) : (self.settle limits calls).Invariant := by
  obtain ⟨sound, closing⟩ := inv
  unfold settle
  split_ifs with draining closed left
  · exact ⟨sound, closing⟩
  · exact finishClose_invariant limits sound closing closed
      (idle_of_still closing (Bool.eq_false_iff.mpr draining)) calls
  · exact ⟨sound, closing⟩
  · have idle : self.append = none := idle_of_still closing (Bool.eq_false_iff.mpr draining)
    exact drainSync_invariant limits (requeue ⟨sound, closing⟩ false self.drainQueued self.flushChain .rfl)
      (Bool.eq_false_iff.mpr closed) idle calls

theorem chainAdvances_invariant (calls : Syscalls) : (self.chainAdvances limits calls).Invariant := by
  unfold chainAdvances
  split_ifs with outstanding
  · exact inv
  · have idle : self.append = none := Option.not_isSome_iff_eq_none.mp outstanding
    split
    · exact inv
    · next rest chain =>
      refine drainAsync_invariant limits (requeue inv self.flushTimer false rest ?_) idle calls
      rw [chain]
      simp
    · next rest chain =>
      refine drainAsync_invariant limits (requeue inv self.flushTimer self.drainQueued rest ?_) idle calls
      rw [chain]
      simp
    · next rest chain =>
      obtain ⟨sound, closing⟩ := inv
      have closed := closing.queued (chain ▸ .head _)
      have begun : Sound { self with flushChain := rest } :=
        { sound with }
      exact finishClose_spec limits begun idle
        (closing.draining.trans (by rw [idle]; rfl)) closed (fun dead => (closing.ended dead).2.2) closing.unreported
        closing.reported closing.attempts calls

theorem step_invariant (act : TranscriptAct) : (self.step limits act).Invariant := by
  cases act with
  | write chunk =>
    show (self.write limits chunk).Invariant
    unfold write
    split_ifs with ignored
    · exact inv
    · have is_open : self.closed = false := by
        cases closed : self.closed <;> simp_all
      exact requeue (admitChunk_invariant limits inv is_open chunk) true self.drainQueued self.flushChain .rfl
  | flush calls =>
    show (self.flush limits calls).Invariant
    unfold flush
    split_ifs with closed draining
    · exact inv
    · refine requeue inv false self.drainQueued (self.flushChain ++ [.drain]) ?_
      simp
    · have idle : self.append = none := idle_of_still inv.2 (Bool.eq_false_iff.mpr draining)
      exact drainSync_invariant limits (requeue inv false self.drainQueued self.flushChain .rfl)
        (Bool.eq_false_iff.mpr closed) idle calls
  | close footer calls => exact close_invariant limits inv footer calls
  | settle calls => exact settle_invariant limits inv calls
  | flushTimerFires =>
    show self.flushTimerFires.Invariant
    unfold flushTimerFires
    split_ifs with fires queued
    · exact requeue inv false self.drainQueued self.flushChain .rfl
    · refine requeue inv false true (self.flushChain ++ [.scheduled]) ?_
      simp
    · exact inv
  | closeRetryFires calls =>
    show (self.closeRetryFires limits calls).Invariant
    unfold closeRetryFires
    split_ifs with fires
    · obtain ⟨closed, idle⟩ := inv.2.retry fires
      exact finishClose_invariant limits inv.1 inv.2 closed idle calls
    · exact inv
  | chainAdvances calls => exact chainAdvances_invariant limits inv calls
  | wrote outcome calls => exact wrote_invariant limits inv outcome calls

end

theorem create_invariant (size : Nat) (header : Bytes) : (create limits size header).Invariant := by
  have fresh : Invariant { writer := { stages := {}, file := { fd := some 0, currentSize := size } } } :=
    ⟨⟨⟨Stages.sound_fresh, rfl, rfl⟩, rfl, nofun, rfl, ⟨[], .nil, .nil⟩⟩,
      ⟨rfl, nofun, fun _ => ⟨rfl, rfl⟩, .inl ⟨rfl, rfl⟩, nofun, nofun, nofun, Nat.zero_le _⟩⟩
  exact requeue (admitChunk_invariant limits fresh rfl header) true false [] .rfl

theorem run_invariant (inv : self.Invariant) (acts : List TranscriptAct) : (self.run limits acts).Invariant := by
  induction acts generalizing self with
  | nil => exact inv
  | cons act rest ih => exact ih (step_invariant limits inv act)

theorem admitChunk_shed (sound : self.Sound) (chunk : Bytes) :
    (self.admitChunk limits chunk).shed = self.shed ∨
      limits.maxRetainedBytes < self.writer.stages.retainedByteCount + chunk.length ∧
        (self.admitChunk limits chunk).writer.stages.retainedByteCount ≤ limits.maxRetainedBytes := by
  obtain ⟨_, _, _, none_shed | crossed⟩ := self.writer.stages.admitChunk_spec limits sound.writer.stages chunk
  · left
    show self.shed ++ (self.writer.stages.admitChunk limits chunk).1 = _
    rw [none_shed, List.append_nil]
  · exact .inr crossed

theorem drainNext_kept (self : Transcript) (calls : Syscalls) :
    (self.drainNext limits calls).admitted = self.admitted ∧ (self.drainNext limits calls).shed = self.shed := by
  unfold drainNext
  dsimp only
  split_ifs
  · exact ⟨rfl, rfl⟩
  · split <;> exact ⟨rfl, rfl⟩

theorem drainAsync_kept (self : Transcript) (calls : Syscalls) :
    (self.drainAsync limits calls).admitted = self.admitted ∧ (self.drainAsync limits calls).shed = self.shed := by
  unfold drainAsync
  split_ifs
  · exact ⟨rfl, rfl⟩
  · exact drainNext_kept limits _ calls

theorem finishClose_kept (self : Transcript) (calls : Syscalls) :
    (self.finishClose limits calls).admitted = self.admitted ∧ (self.finishClose limits calls).shed = self.shed := by
  unfold finishClose scheduleCloseRetry
  dsimp only
  split_ifs <;> exact ⟨rfl, rfl⟩

theorem wrote_kept (self : Transcript) (outcome : Option Nat) (calls : Syscalls) :
    (self.wrote limits outcome calls).admitted = self.admitted ∧
      (self.wrote limits outcome calls).shed = self.shed := by
  unfold wrote
  split
  · exact ⟨rfl, rfl⟩
  · dsimp only
    split_ifs
    · exact ⟨rfl, rfl⟩
    · exact ⟨rfl, rfl⟩
    · exact drainNext_kept limits _ calls

theorem chainAdvances_kept (self : Transcript) (calls : Syscalls) :
    (self.chainAdvances limits calls).admitted = self.admitted ∧
      (self.chainAdvances limits calls).shed = self.shed := by
  unfold chainAdvances
  split_ifs
  · exact ⟨rfl, rfl⟩
  · split
    · exact ⟨rfl, rfl⟩
    · exact drainAsync_kept limits _ calls
    · exact drainAsync_kept limits _ calls
    · exact finishClose_kept limits _ calls

theorem step_shed (self : Transcript) (act : TranscriptAct) :
    (self.step limits act).admitted = self.admitted ++ (self.admits act).flatten ∧
    ((self.step limits act).shed = self.shed ∨ ∃ chunk,
      (act = .write chunk ∨ ∃ calls, act = .close chunk calls) ∧
      (self.step limits act).shed = (self.admitChunk limits chunk).shed) := by
  have silent {after : Transcript} (kept : after.admitted = self.admitted ∧ after.shed = self.shed) :
      after.admitted = self.admitted ++ ([] : List Bytes).flatten ∧ (after.shed = self.shed ∨
        ∃ chunk, (act = .write chunk ∨ ∃ calls, act = .close chunk calls) ∧
          after.shed = (self.admitChunk limits chunk).shed) :=
    ⟨kept.1.trans (List.append_nil _).symm, .inl kept.2⟩
  cases act with
  | write chunk =>
    by_cases refused : (self.closed || chunk.isEmpty) = true
    · have same : self.step limits (.write chunk) = self := if_pos refused
      have none_ : self.admits (.write chunk) = [] := if_pos refused
      rw [none_, same]
      exact silent ⟨rfl, rfl⟩
    · have one : self.admits (.write chunk) = [chunk] := if_neg refused
      have next : self.step limits (.write chunk) = self.enqueue limits chunk := if_neg refused
      rw [one, next]
      exact ⟨congrArg (self.admitted ++ ·) (List.append_nil chunk).symm, .inr ⟨chunk, .inl rfl, rfl⟩⟩
  | flush calls =>
    refine silent ?_
    simp only [step, flush]
    split_ifs <;> exact ⟨rfl, rfl⟩
  | close footer calls =>
    by_cases closed : self.closed = true
    · have same : self.step limits (.close footer calls) = self := if_pos closed
      have none_ : self.admits (.close footer calls) = [] := if_pos (by rw [closed, Bool.true_or])
      rw [none_, same]
      exact silent ⟨rfl, rfl⟩
    · have told : (self.admits (.close footer calls)).flatten = footer := by
        cases footer <;> simp [admits, closed]
      have kept : (self.step limits (.close footer calls)).admitted = self.admitted ++ footer ∧
          (self.step limits (.close footer calls)).shed = (self.admitChunk limits footer).shed := by
        simp only [step, close, if_neg closed]
        split_ifs
        · exact ⟨rfl, rfl⟩
        · exact finishClose_kept limits (admitChunk limits
            { self with closed := true, flushTimer := false } footer) calls
      rw [told]
      exact ⟨kept.1, .inr ⟨footer, .inr ⟨calls, rfl⟩, kept.2⟩⟩
  | settle calls =>
    refine silent ?_
    simp only [step, settle]
    split_ifs
    · exact ⟨rfl, rfl⟩
    · exact finishClose_kept limits _ calls
    · exact ⟨rfl, rfl⟩
    · exact ⟨rfl, rfl⟩
  | flushTimerFires =>
    refine silent ?_
    simp only [step, flushTimerFires]
    split_ifs <;> exact ⟨rfl, rfl⟩
  | closeRetryFires calls =>
    refine silent ?_
    simp only [step, closeRetryFires]
    split_ifs
    · exact finishClose_kept limits _ calls
    · exact ⟨rfl, rfl⟩
  | chainAdvances calls => exact silent (chainAdvances_kept limits self calls)
  | wrote outcome calls => exact silent (wrote_kept limits self outcome calls)

theorem chunksOf_append (limits : Limits) (self : Transcript) (acts : List TranscriptAct) (act : TranscriptAct) :
    self.chunksOf limits (acts ++ [act]) = self.chunksOf limits acts ++ (self.run limits acts).admits act := by
  induction acts generalizing self with
  | nil => exact List.append_nil _
  | cons first rest ih =>
    rw [List.cons_append, chunksOf, chunksOf, ih, List.append_assoc]
    rfl

theorem run_admitted (self : Transcript) (acts : List TranscriptAct) :
    (self.run limits acts).admitted = self.admitted ++ (self.chunksOf limits acts).flatten := by
  induction acts generalizing self with
  | nil => exact (List.append_nil _).symm
  | cons act rest ih =>
    rw [chunksOf, List.flatten_append, ← List.append_assoc, ← (self.step_shed limits act).1]
    exact ih (self.step limits act)

theorem finishClose_progress (self : Transcript) (calls : Syscalls) :
    (self.finishClose limits calls).live = false ∨
      (self.finishClose limits calls).closeAttempt = self.closeAttempt + 1 := by
  unfold finishClose scheduleCloseRetry
  dsimp only
  split_ifs
  · exact .inr rfl
  · exact .inl rfl
  · exact .inl rfl

/-- Over every run: rotations meet no bytes owed, what was admitted is kept in order but for what is shed, drains do
not overlap, and a close comes to its end. -/
theorem transcript_content (size : Nat) (header : Bytes) (acts : List TranscriptAct) :
    let t := (create limits size header).run limits acts
    t.writer.violated = false ∧ t.Accounted ∧
    t.admitted = header ++ ((create limits size header).chunksOf limits acts).flatten ∧
    (∀ act, (t.step limits act).shed = t.shed ∨
      ∃ chunk, (act = .write chunk ∨ ∃ calls, act = .close chunk calls) ∧
        (t.step limits act).shed = (t.admitChunk limits chunk).shed ∧
        limits.maxRetainedBytes < t.writer.stages.retainedByteCount + chunk.length ∧
        (t.admitChunk limits chunk).writer.stages.retainedByteCount ≤ limits.maxRetainedBytes) ∧
    t.overlaps = 0 ∧
    (t.live = true → t.dropped = [] ∧ t.reported = []) ∧
    (t.live = false → t.append = none ∧ t.writer.stages.held = [] ∧
      t.writer.file.fd = none ∧ t.writer.file.released = List.range t.writer.file.opened ∧
      (t.dropped = [] ∧ t.reported = [] ∨ t.dropped ≠ [] ∧ t.reported = [t.dropped.length])) ∧
    (t.closed = true → t.live = true → .finishClose ∈ t.flushChain ∨ t.closeRetryTimer = true) ∧
    (∀ calls, (t.finishClose limits calls).live = false ∨
      (t.finishClose limits calls).closeAttempt = t.closeAttempt + 1) ∧
    t.closeAttempt ≤ CLOSE_RETRY_DELAYS_MS.length ∧
    t.writer.file.released.Nodup := by
  intro t
  obtain ⟨sound, closing⟩ : t.Invariant := run_invariant limits (create_invariant limits size header) acts
  refine ⟨sound.writer.violated, sound.accounted, run_admitted limits _ acts, fun act => ?_, sound.overlaps,
    closing.unreported, fun dead => ?_, closing.awaited, t.finishClose_progress limits, closing.attempts, ?_⟩
  · rcases (t.step_shed limits act).2 with same | ⟨chunk, admits, shed⟩
    · exact .inl same
    · rcases t.admitChunk_shed limits sound chunk with none_shed | ⟨crossed, within⟩
      · exact .inl (shed.trans none_shed)
      · exact .inr ⟨chunk, admits, shed, crossed, within⟩
  · obtain ⟨_, idle, empty, no_fd⟩ := closing.ended dead
    have files : t.writer.file.released ++ t.writer.file.fd.toList = List.range t.writer.file.opened :=
      sound.writer.file
    rw [no_fd, Option.toList_none, List.append_nil] at files
    exact ⟨idle, empty, no_fd, files, closing.reported⟩
  · have files : t.writer.file.released ++ t.writer.file.fd.toList = List.range t.writer.file.opened :=
      sound.writer.file
    exact (List.nodup_append.mp (files ▸ List.nodup_range)).1

end Transcript

end NexTerminal.Logging
