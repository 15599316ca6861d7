import NexTerminal.Logging.SessionTranscript

namespace NexTerminal.Logging

namespace Stages

def held (self : Stages) : Bytes := self.owed.bytes ++ self.pending.flatten

structure Sound (stages : Stages) : Prop where
  counted : stages.pendingBytes = stages.pending.flatten.length
  chunks : ∀ chunk ∈ stages.pending, chunk ≠ []
  view : ∀ split, stages.owedSplitFrom = some split → split.view = stages.owed
  parent : ∀ split, stages.owedSplitFrom = some split → stages.inFlight ≠ [] →
    split.parent.bytes = stages.inFlight ++ stages.owed.bytes

theorem sound_fresh : Sound {} := ⟨rfl, nofun, nofun, nofun⟩

variable {self : Stages}

theorem Sound.retained (sound : self.Sound) : self.retainedByteCount = self.held.length := by
  rw [retainedByteCount, held, List.length_append, sound.counted]

theorem setOwed_sound (sound : self.Sound) (next : Bytes) : (self.setOwed next).Sound :=
  ⟨sound.counted, sound.chunks, nofun, nofun⟩

theorem pushPending_spec (sound : self.Sound) (chunk : Bytes) :
    (self.pushPending chunk).Sound ∧ (self.pushPending chunk).held = self.held ++ chunk ∧
      (self.pushPending chunk).inFlight = self.inFlight := by
  unfold pushPending
  split_ifs with empty
  · exact ⟨sound, by rw [empty, List.append_nil], rfl⟩
  · refine ⟨⟨?_, ?_, sound.view, sound.parent⟩, ?_, rfl⟩
    · simp [sound.counted]
    · intro other mem
      rcases List.mem_append.mp mem with old | new
      · exact sound.chunks other old
      · rw [List.mem_singleton.mp new]
        exact empty
    · simp [held]

theorem cutUtf8Head_spec (data : Bytes) {cut : Nat} (within : cut ≤ data.length) :
    data.take (data.length - (cutUtf8Head data cut).length) ++ cutUtf8Head data cut = data ∧
      (cutUtf8Head data cut).length + cut ≤ data.length := by
  have suffix : cutUtf8Head data cut <:+ data := (List.dropWhile_suffix _).trans (List.drop_suffix cut data)
  have short : (cutUtf8Head data cut).length ≤ data.length - cut := by
    rw [← List.length_drop]
    exact (List.dropWhile_suffix _).length_le
  refine ⟨?_, by omega⟩
  obtain ⟨pre, parts⟩ := suffix
  have size : data.length - (cutUtf8Head data cut).length = pre.length := by
    have total := congrArg List.length parts
    rw [List.length_append] at total
    omega
  rw [size]
  nth_rewrite 1 [← parts]
  rw [List.take_left, parts]

theorem shedPending_spec (excess : Nat) (pending : List Bytes) :
    (shedPending excess pending).1 ++ (shedPending excess pending).2.flatten = pending.flatten ∧
      (shedPending excess pending).2.flatten.length ≤ pending.flatten.length - excess ∧
      ((∀ chunk ∈ pending, chunk ≠ []) → ∀ chunk ∈ (shedPending excess pending).2, chunk ≠ []) := by
  induction excess, pending using shedPending.induct with
  | case1 pending =>
    rw [shedPending]
    exact ⟨rfl, Nat.le_refl _, fun chunks => chunks⟩
  | case2 excess =>
    exact ⟨rfl, Nat.zero_le _, fun chunks => chunks⟩
  | case3 excess head rest whole shed left eq ih =>
    obtain ⟨parts, short, chunks⟩ := ih
    rw [shedPending, if_pos whole]
    refine ⟨?_, ?_, fun all => chunks fun chunk mem => all chunk (.tail _ mem)⟩
    · simp [parts]
    · simp only [List.flatten_cons, List.length_append]
      omega
  | case4 excess head rest part =>
    obtain ⟨parts, short⟩ := cutUtf8Head_spec head (Nat.le_of_not_le part)
    rw [shedPending, if_neg part]
    have flat : (if cutUtf8Head head (excess + 1) = [] then rest else cutUtf8Head head (excess + 1) :: rest).flatten =
        cutUtf8Head head (excess + 1) ++ rest.flatten := by
      split_ifs with empty
      · rw [empty]
        rfl
      · rfl
    refine ⟨?_, ?_, fun all chunk mem => ?_⟩
    · simp [flat, ← List.append_assoc, parts]
    · simp only [flat, List.flatten_cons, List.length_append]
      omega
    · dsimp only at mem
      split_ifs at mem with empty
      · exact all chunk (.tail _ mem)
      · rcases List.mem_cons.mp mem with rfl | later
        · exact empty
        · exact all chunk (.tail _ later)

theorem shedOldest_spec (sound : self.Sound) {excess : Nat} (within : excess ≤ self.held.length) :
    (self.shedOldest excess).2.Sound ∧
      self.held = (self.shedOldest excess).1 ++ (self.shedOldest excess).2.held ∧
      (self.shedOldest excess).2.held.length + excess ≤ self.held.length ∧
      (self.shedOldest excess).2.inFlight = self.inFlight := by
  have held_length : self.held.length = self.owed.bytes.length + self.pending.flatten.length := List.length_append
  unfold shedOldest
  split_ifs with nothing whole
  · subst nothing
    exact ⟨sound, rfl, Nat.le_refl _, rfl⟩
  · obtain ⟨parts, short, chunks⟩ := shedPending_spec (excess - self.owed.bytes.length) self.pending
    have sizes := congrArg List.length parts
    rw [List.length_append] at sizes
    refine ⟨⟨?_, chunks sound.chunks, nofun, nofun⟩, ?_, ?_, rfl⟩
    · simp only [sound.counted]
      omega
    · simp [held, setOwed, parts]
    · have left : held { self.setOwed [] with
          pending := (shedPending (excess - self.owed.bytes.length) self.pending).2
          pendingBytes := self.pendingBytes - (shedPending (excess - self.owed.bytes.length) self.pending).1.length } =
          (shedPending (excess - self.owed.bytes.length) self.pending).2.flatten := rfl
      simp only [left]
      omega
  · obtain ⟨parts, short⟩ := cutUtf8Head_spec self.owed.bytes (Nat.le_of_not_le whole)
    refine ⟨setOwed_sound sound _, ?_, ?_, rfl⟩
    · simp [held, setOwed, ← List.append_assoc, parts]
    · simp only [held, setOwed, List.length_append]
      omega

theorem admitChunk_spec (limits : Limits) (sound : self.Sound) (chunk : Bytes) :
    (self.admitChunk limits chunk).2.Sound ∧
      self.held ++ chunk = (self.admitChunk limits chunk).1 ++ (self.admitChunk limits chunk).2.held ∧
      (self.admitChunk limits chunk).2.inFlight = self.inFlight ∧
      ((self.admitChunk limits chunk).1 = [] ∨
        limits.maxRetainedBytes < self.retainedByteCount + chunk.length ∧
          (self.admitChunk limits chunk).2.retainedByteCount ≤ limits.maxRetainedBytes) := by
  obtain ⟨pushed, held, flight⟩ := pushPending_spec sound chunk
  have total : (self.pushPending chunk).retainedByteCount = self.retainedByteCount + chunk.length := by
    rw [pushed.retained, held, List.length_append, sound.retained]
  unfold admitChunk
  dsimp only
  split_ifs with ceased
  · have within : (self.pushPending chunk).retainedByteCount - limits.maxRetainedBytes ≤
      (self.pushPending chunk).held.length := by
      rw [pushed.retained]
      omega
    obtain ⟨trimmed, parts, short, kept⟩ := shedOldest_spec pushed within
    refine ⟨trimmed, held ▸ parts, kept.trans flight, .inr ⟨total ▸ ceased, ?_⟩⟩
    rw [trimRetained, trimmed.retained]
    rw [pushed.retained] at short ceased ⊢
    omega
  · exact ⟨pushed, held.symm, flight, .inl rfl⟩

theorem coalesce_spec (limits : Limits) (projected placed : Nat) (pending : List Bytes) :
    (coalesce limits projected placed pending).1 ++ (coalesce limits projected placed pending).2 = pending := by
  induction pending generalizing projected placed with
  | nil => rfl
  | cons chunk rest ih =>
    unfold coalesce
    split_ifs
    · exact congrArg (chunk :: ·) (ih _ _)
    · rfl

theorem takeAppendBatch_spec (sound : self.Sound) :
    (self.takeAppendBatch).2.Sound ∧ self.takeAppendBatch.1 ++ self.takeAppendBatch.2.held = self.held ∧
      self.takeAppendBatch.2.inFlight = self.takeAppendBatch.1 := by
  unfold takeAppendBatch
  split_ifs
  · exact ⟨⟨sound.counted, sound.chunks, nofun, nofun⟩, rfl, rfl⟩
  · refine ⟨⟨sound.counted, sound.chunks, ?_, ?_⟩, ?_, rfl⟩
    · intro split same
      cases same
      rfl
    · intro split same _
      cases same
      exact (List.take_append_drop ..).symm
    · simp [held, ← List.append_assoc]

theorem returnUnwritten_spec (sound : self.Sound) {batch : Bytes} (flight : self.inFlight = batch) (written : Nat) :
    (self.returnUnwritten batch written).2.Sound ∧
      (self.returnUnwritten batch written).2.held = batch.drop written ++ self.held ∧
      (self.returnUnwritten batch written).2.inFlight = [] := by
  have plain : Sound { self with inFlight := [] } := ⟨sound.counted, sound.chunks, sound.view, nofun⟩
  have joined : held (setOwed { self with inFlight := [] } (batch.drop written ++ self.owed.bytes)) =
      batch.drop written ++ self.held := List.append_assoc ..
  unfold returnUnwritten
  dsimp only
  split_ifs with landed
  · exact ⟨plain, by rw [List.drop_of_length_le landed]; rfl, rfl⟩
  · split
    · next split same =>
      split_ifs with cut
      · have recorded : self.owedSplitFrom = some split := (Option.filter_eq_some_iff.mp same).1
        have flying : self.inFlight ≠ [] := by
          rw [flight]
          intro empty
          rw [empty] at landed
          exact landed (Nat.zero_le _)
        have parent := sound.parent split recorded flying
        rw [flight] at parent
        refine ⟨⟨sound.counted, sound.chunks, ?_, nofun⟩, ?_, rfl⟩
        · intro other other_same
          cases other_same
          rfl
        · simp only [held, parent]
          rw [List.drop_append_of_le_length (Nat.le_of_not_le landed), List.append_assoc]
      · exact ⟨setOwed_sound plain _, joined, rfl⟩
    · exact ⟨setOwed_sound plain _, joined, rfl⟩

end Stages

namespace File

/-- Every descriptor opened but the one owned has been released, once and in order. -/
def Sound (self : File) : Prop := self.released ++ self.fd.toList = List.range self.opened

theorem releaseFd_sound {self : File} (sound : self.Sound) : self.releaseFd.Sound ∧ self.releaseFd.fd = none := by
  unfold releaseFd
  cases owned : self.fd with
  | none => exact ⟨sound, owned⟩
  | some fd =>
    unfold Sound at sound ⊢
    rw [owned] at sound
    exact ⟨by simpa using sound, rfl⟩

theorem ensureOpen_sound {self : File} (sound : self.Sound) (calls : Syscalls) :
    (self.ensureOpen calls).2.1.Sound := by
  unfold ensureOpen
  split
  · exact sound
  · next owned _ =>
    unfold Sound at sound ⊢
    rw [owned] at sound
    simp only [Option.toList_none, List.append_nil] at sound
    simp [sound, List.range_succ]
  · exact sound
  · exact sound

end File

namespace Writer

structure Sound (writer : Writer) : Prop where
  stages : writer.stages.Sound
  file : writer.file.Sound
  violated : writer.violated = false

variable {self : Writer}

theorem rotateNow_spec (limits : Limits) (sound : self.Sound) (grounded : self.stages.inFlight = [])
    (nothing : self.stages.owed.bytes = []) :
    (self.rotateNow limits).Sound ∧ (self.rotateNow limits).stages = self.stages ∧
      (self.rotateNow limits).appended = self.appended := by
  have none_stranded : ¬ self.stages.owed.bytes.length + self.stages.inFlight.length ≠ 0 := by
    rw [grounded, nothing]
    exact fun stranded => stranded rfl
  rw [rotateNow, if_neg none_stranded]
  exact ⟨⟨sound.stages, (File.releaseFd_sound sound.file).1, sound.violated⟩, rfl, rfl⟩

/-- The same bytes with nothing in flight, and nothing more in the file. -/
structure Placed (before after : Writer) : Prop where
  sound : after.Sound
  held : after.stages.held = before.stages.held
  grounded : after.stages.inFlight = []
  appended : after.appended = before.appended

theorem placeHead_spec (limits : Limits) {placed : Writer} (sound : self.Sound) (grounded : self.stages.inFlight = [])
    (places : self.placeHead limits = some placed) : Placed self placed := by
  unfold placeHead at places
  split_ifs at places with owed
  · cases places
    exact ⟨sound, rfl, grounded, rfl⟩
  · have nothing : self.stages.owed.bytes = [] := not_not.mp owed
    cases pending : self.stages.pending with
    | nil => simp [pending] at places
    | cons head rest =>
      have shifted : Sound { self with stages := { self.stages with
          pending := rest, pendingBytes := self.stages.pendingBytes - head.length } } := by
        have counted := sound.stages.counted
        have chunks := sound.stages.chunks
        rw [pending] at counted chunks
        refine ⟨⟨?_, fun chunk mem => chunks chunk (.tail _ mem), sound.stages.view, sound.stages.parent⟩,
          sound.file, sound.violated⟩
        simp only [counted, List.flatten_cons, List.length_append]
        omega
      have joined : self.stages.held = head ++ rest.flatten := by
        rw [Stages.held, nothing, pending]
        rfl
      obtain ⟨rotated, stages, appended⟩ := rotateNow_spec limits shifted grounded nothing
      simp only [pending] at places
      split_ifs at places with overflows
      · cases places
        refine ⟨⟨Stages.setOwed_sound rotated.stages _, rotated.file, rotated.violated⟩, ?_, ?_, appended⟩
        · simp only [stages]
          exact joined.symm
        · simp only [stages]
          exact grounded
      · cases places
        exact ⟨⟨Stages.setOwed_sound shifted.stages _, shifted.file, shifted.violated⟩, joined.symm,
          grounded, rfl⟩

theorem promote_spec (limits : Limits) (sound : self.Sound) (grounded : self.stages.inFlight = []) :
    Placed self (self.promote limits) := by
  unfold promote
  cases places : self.placeHead limits with
  | none => exact ⟨sound, rfl, grounded, rfl⟩
  | some placed =>
    obtain ⟨placed_sound, held, flight, appended⟩ := placeHead_spec limits sound grounded places
    dsimp only
    have parts := Stages.coalesce_spec limits (placed.file.currentSize + placed.stages.owed.bytes.length)
      placed.stages.owed.bytes.length placed.stages.pending
    rcases res : Stages.coalesce limits (placed.file.currentSize + placed.stages.owed.bytes.length)
      placed.stages.owed.bytes.length placed.stages.pending with ⟨taken, left⟩
    rw [res] at parts
    dsimp only at parts ⊢
    split_ifs with none_taken
    · exact ⟨placed_sound, held, flight, appended⟩
    · have counted := placed_sound.stages.counted
      rw [← parts, List.flatten_append, List.length_append] at counted
      refine ⟨⟨⟨?_, ?_, nofun, nofun⟩, placed_sound.file, placed_sound.violated⟩, ?_, flight, appended⟩
      · simp only [Stages.setOwed]
        omega
      · intro chunk mem
        exact placed_sound.stages.chunks chunk (parts ▸ List.mem_append_right taken mem)
      · rw [← held]
        simp [Stages.held, Stages.setOwed, ← parts]

theorem appendSync_spec (sound : self.Sound) (data : Bytes) (calls : Syscalls) :
    (self.appendSync data calls).2.1.Sound ∧ (self.appendSync data calls).2.1.stages = self.stages ∧
      (self.appendSync data calls).2.1.appended = self.appended ++ data.take (self.appendSync data calls).1 := by
  have opened := File.ensureOpen_sound sound.file calls
  unfold appendSync
  rcases res : self.file.ensureOpen calls with ⟨ok, file, rest⟩
  rw [res] at opened
  cases ok with
  | false => exact ⟨⟨sound.stages, opened, sound.violated⟩, rfl, (List.append_nil _).symm⟩
  | true => exact ⟨⟨sound.stages, opened, sound.violated⟩, rfl, rfl⟩

theorem settleAppend_spec (sound : self.Sound) {batch : Bytes} (flight : self.stages.inFlight = batch) (written : Nat) :
    (self.settleAppend batch written).2.Sound ∧
      (self.settleAppend batch written).2.stages.held = batch.drop written ++ self.stages.held ∧
      (self.settleAppend batch written).2.stages.inFlight = [] ∧
      (self.settleAppend batch written).2.appended = self.appended := by
  obtain ⟨stages, held, grounded⟩ := Stages.returnUnwritten_spec sound.stages flight written
  exact ⟨⟨stages, sound.file, sound.violated⟩, held, grounded, rfl⟩

def content (self : Writer) : Bytes := self.appended ++ self.stages.held

theorem appendBatch_spec {placed : Writer} (sound : placed.Sound) (calls : Syscalls) :
    let taken := placed.stages.takeAppendBatch
    let res := { placed with stages := taken.2 }.appendSync taken.1 calls
    let settled := res.2.1.settleAppend taken.1 res.1
    settled.2.Sound ∧ settled.2.content = placed.content ∧ settled.2.stages.inFlight = [] := by
  intro taken res settled
  obtain ⟨taken_sound, parts, flight⟩ := Stages.takeAppendBatch_spec sound.stages
  have writer : Sound { placed with stages := taken.2 } := ⟨taken_sound, sound.file, sound.violated⟩
  obtain ⟨landed_sound, stages, appended⟩ := appendSync_spec writer taken.1 calls
  have landed_flight : res.2.1.stages.inFlight = taken.1 := by rw [stages]; exact flight
  obtain ⟨settled_sound, held, grounded, kept⟩ := settleAppend_spec landed_sound landed_flight res.1
  refine ⟨settled_sound, ?_, grounded⟩
  calc settled.2.content = (placed.appended ++ taken.1.take res.1) ++ (taken.1.drop res.1 ++ taken.2.held) := by
        rw [content, kept, held, stages, appended]
    _ = placed.appended ++ (taken.1 ++ taken.2.held) := by
        rw [List.append_assoc, ← List.append_assoc (taken.1.take _), List.take_append_drop]
    _ = placed.content := by rw [parts, content]

/-- A drain loses nothing. -/
theorem drainSync_spec (limits : Limits) (self : Writer) (calls : Syscalls) (sound : self.Sound)
    (grounded : self.stages.inFlight = []) :
    (self.drainSync limits calls).1.Sound ∧ (self.drainSync limits calls).1.content = self.content ∧
      (self.drainSync limits calls).1.stages.inFlight = [] := by
  induction self, calls using drainSync.induct limits with
  | case1 self calls promoted empty =>
    obtain ⟨promoted_sound, held, flight, appended⟩ := promote_spec limits sound grounded
    rw [drainSync, dif_pos empty]
    refine ⟨promoted_sound, ?_, flight⟩
    rw [content, content, held, appended]
  | case2 self calls promoted busy taken res settled left =>
    obtain ⟨promoted_sound, held, _, appended⟩ := promote_spec limits sound grounded
    obtain ⟨settled_sound, same, settled_grounded⟩ := appendBatch_spec promoted_sound calls
    rw [drainSync, dif_neg busy, dif_pos left]
    refine ⟨settled_sound, same.trans ?_, settled_grounded⟩
    rw [content, content, held, appended]
  | case3 self calls promoted busy taken res settled left ih =>
    obtain ⟨promoted_sound, held, _, appended⟩ := promote_spec limits sound grounded
    obtain ⟨settled_sound, same, settled_grounded⟩ := appendBatch_spec promoted_sound calls
    obtain ⟨drained, rest, drained_grounded⟩ := ih settled_sound settled_grounded
    rw [drainSync, dif_neg busy, dif_neg left]
    refine ⟨drained, (rest.trans same).trans ?_, drained_grounded⟩
    rw [content, content, held, appended]

end Writer

end NexTerminal.Logging
