import Mathlib.Data.List.TakeWhile
import NexTerminal.Library.Sequences
import NexTerminal.Tftp.Session

namespace NexTerminal.Tftp

open Library

/-- An upload and what an observer of its packets and of its file knows. -/
structure WriteTransfer where
  session : TransferSession
  written : List Bytes := []
  /-- How many of them the last ACK that went with a payload covers. -/
  acked : Nat := 0
  answers : List Bytes := []

/-- A piece of the file that the network delivers, or a maintenance tick. -/
inductive WriteInput
  | data (now index : Nat)
  | retransmit (now : Nat)

namespace WriteTransfer

def start (init : TransferInit) (now : Nat) : WriteTransfer :=
  let (session, initial) := (TransferSession.new init now).initForWrite
  { session := session.recordOutbound now initial, answers := initial }

/-- What follows from the outcome of a DATA packet: the payload is written, then the answer sent. -/
def deliver (now : Nat) (transfer : WriteTransfer) : TransferSession × DataOutcome → WriteTransfer
  | (session, outcome) =>
    let written := transfer.written ++ outcome.write.toList
    { session := if outcome.send.isEmpty then session else session.recordOutbound now outcome.send
      written := written
      acked := if outcome.write.isSome && !outcome.send.isEmpty then written.length else transfer.acked
      answers := outcome.send }

/-- One delivery or one tick; the pieces are numbered from one, and a finished session is gone. -/
def step (content : Bytes) (blksize : Nat) (transfer : WriteTransfer) (input : WriteInput) : WriteTransfer :=
  if transfer.session.phase.isTerminal then { transfer with answers := [] }
  else match input with
    | .data now index =>
      transfer.deliver now (transfer.session.handleData now (serial (index + 1)) (chunk blksize content index))
    | .retransmit now =>
      let (session, packets) := transfer.session.consumeRetransmission now
      { transfer with session := session, answers := packets.getD [] }

def run (content : Bytes) (blksize : Nat) (transfer : WriteTransfer) (inputs : List WriteInput) : WriteTransfer :=
  inputs.foldl (step content blksize) transfer

end WriteTransfer

/-- A session that has received so many pieces and acknowledged so many of them. -/
structure Positioned (content : Bytes) (opts : ValidatedOptions) (session : TransferSession)
    (received acked : Nat) : Prop where
  block : session.block = serial (received + 1)
  lastAcked : session.lastAcked = serial acked
  bytes : session.bytesTransferred = received * opts.blksize
  blksize : session.opts.blksize = opts.blksize
  windowsize : session.opts.windowsize = opts.windowsize
  ordered : acked ≤ received
  window : received < acked + opts.windowsize
  more : received < chunkCount opts.blksize content

/-- The pieces answered without failing: the expected one, and those of the window that is open or just closed. -/
def Acceptable (windowsize received acked index : Nat) : Prop :=
  index ≤ received ∧ if acked = received then received ≤ index + windowsize else acked ≤ index

instance (windowsize received acked index : Nat) : Decidable (Acceptable windowsize received acked index) :=
  inferInstanceAs (Decidable (_ ∧ _))

section Piece

variable {content : Bytes} {opts : ValidatedOptions} {session : TransferSession} {received acked index : Nat}

/-- What a session does with a piece depends on where the piece stands. -/
theorem Positioned.receiveData (usable : opts.Usable) (positioned : Positioned content opts session received acked)
    (ahead : index ≤ received + 32768) (behind : received ≤ index + 32768) (now : Nat) :
    ∃ touched : TransferSession, Positioned content opts touched received acked ∧ touched.phase = session.phase ∧
      touched.direction = session.direction ∧ touched.outbound = session.outbound ∧
      session.receiveData now (serial (index + 1)) (chunk opts.blksize content index) =
        if index = received then touched.acceptData (chunk opts.blksize content index)
        else if Acceptable opts.windowsize received acked index then
          (touched, TransferSession.reack (serial received))
        else touched.refuseData
          s!"Block {(serial (index + 1)).toNat} received, expected {(serial (received + 1)).toNat}" := by
  have ordered := positioned.ordered
  have window := positioned.window
  have half := usable.halfSpace
  have size := usable.blksize
  unfold blockSpace at half
  have prev : session.block - 1 = serial received := by
    rw [positioned.block, ← serial_succ]
    exact UInt16.add_sub_cancel _ _
  have through : blockDistance session.lastAcked (serial received) = received - acked := by
    rw [positioned.lastAcked, blockDistance_forward ordered (by omega)]
  have started : session.bytesTransferred > 0 ↔ 0 < received := by
    rw [positioned.bytes]
    exact Nat.mul_pos_iff_of_pos_right size
  have last : serial (index + 1) = serial received ↔ index + 1 = received := serial_eq_iff (by omega) (by omega)
  have expected : serial (index + 1) ≠ session.block ↔ index ≠ received := by
    rw [positioned.block, Ne, serial_eq_iff (by omega) (by omega)]
    omega
  have boundary : session.block = nextBlock session.lastAcked ↔ acked = received := by
    rw [positioned.block, positioned.lastAcked, nextBlock_serial, serial_eq_iff (by omega) (by omega)]
    omega
  have open_ : (blockDistance session.lastAcked (serial (index + 1)) ≥ 1 ∧
      blockDistance session.lastAcked (serial (index + 1)) ≤ received - acked) ↔
        acked ≤ index ∧ index < received := by
    rw [positioned.lastAcked]
    by_cases side : acked ≤ index + 1
    · rw [blockDistance_forward side (by omega)]
      omega
    · rw [blockDistance_backward (by omega) (by omega)]
      omega
  have closed (whole : acked = received) :
      blockDistance (serial (index + 1)) session.lastAcked < session.opts.windowsize ↔
        index < acked ∧ acked ≤ index + opts.windowsize := by
    rw [positioned.lastAcked, positioned.windowsize]
    by_cases side : index + 1 ≤ acked
    · rw [blockDistance_forward side (by omega)]
      omega
    · rw [blockDistance_backward (by omega) (by omega)]
      omega
  have short : ¬ (chunk opts.blksize content index).length > session.opts.blksize := by
    rw [positioned.blksize]
    exact Nat.not_lt.mpr (chunk_length_le index)
  have answered : Acceptable opts.windowsize received acked index ↔
      index ≤ received ∧ (acked = received ∧ received ≤ index + opts.windowsize ∨
        acked ≠ received ∧ acked ≤ index) := by
    unfold Acceptable
    split <;> omega
  refine ⟨{ session.touch now with retries := 0 }, { positioned with
    ordered := ordered, window := window }, rfl, rfl, rfl, ?_⟩
  unfold TransferSession.receiveData TransferSession.touch
  dsimp only
  rw [prev, through]
  rcases Nat.lt_trichotomy index received with pre | rfl | after
  · rw [if_neg pre.ne]
    by_cases first : index + 1 = received
    · rw [if_pos (last.mpr first), if_pos (answered.mpr (by omega))]
    rw [if_neg (mt last.mp first)]
    by_cases pending : acked ≤ index
    · rw [if_pos ⟨started.mpr (by omega), open_.mpr ⟨pending, pre⟩⟩, if_pos (answered.mpr (by omega))]
    rw [if_neg fun held => pending (open_.mp held.2).1]
    by_cases retained : acked = received ∧ received ≤ index + opts.windowsize
    · rw [if_pos ⟨started.mpr (by omega), boundary.mpr retained.1, (closed retained.1).mpr (by omega)⟩,
        if_pos (answered.mpr ⟨pre.le, .inl retained⟩), positioned.lastAcked, retained.1]
    · rw [if_neg ?closed, if_pos (expected.mpr pre.ne), if_neg ?refused, positioned.block]
      case closed =>
        intro held
        have whole := boundary.mp held.2.1
        have kept := (closed whole).mp held.2.2
        exact retained ⟨whole, whole ▸ kept.2⟩
      case refused =>
        intro held
        have place := (answered.mp held).2
        omega
  · rw [if_pos rfl, if_neg (mt last.mp (by omega)), if_neg fun held => absurd (open_.mp held.2) (by omega),
      if_neg fun held => absurd ((closed (boundary.mp held.2.1)).mp held.2.2) (by omega),
      if_neg (mt expected.mp (by simp)), if_neg short]
  · rw [if_neg after.ne', if_neg (mt last.mp (by omega)), if_neg fun held => absurd (open_.mp held.2) (by omega),
      if_neg fun held => absurd ((closed (boundary.mp held.2.1)).mp held.2.2) (by omega),
      if_pos (expected.mpr after.ne'), if_neg fun held => absurd (answered.mp held).1 (by omega), positioned.block]

theorem Positioned.acceptData (usable : opts.Usable) (positioned : Positioned content opts session received acked) :
    let piece := chunk opts.blksize content received
    let res := session.acceptData piece
    res.1.direction = session.direction ∧
      (received + 1 = chunkCount opts.blksize content ∧ res.1.phase = .done ∧
          res.1.outbound = session.outbound.dropWhile (TransferSession.isConfirmed (serial (received + 1))) ∧
          res.2 = { send := [encodeAck (serial (received + 1))], write := some piece, done := true } ∨
        Positioned content opts res.1 (received + 1) (received + 1) ∧ res.1.phase = session.phase ∧
          res.1.outbound = session.outbound.dropWhile (TransferSession.isConfirmed (serial (received + 1))) ∧
          res.2 = { send := [encodeAck (serial (received + 1))], write := some piece, done := false } ∨
        Positioned content opts res.1 (received + 1) acked ∧ res.1.phase = session.phase ∧
          res.1.outbound = session.outbound ∧ res.2 = { write := some piece }) := by
  have ordered := positioned.ordered
  have window := positioned.window
  have half := usable.halfSpace
  have size := usable.blksize
  unfold blockSpace at half
  have short := chunk_short_iff size positioned.more
  have len : (chunk opts.blksize content received).length =
    min opts.blksize (content.length - received * opts.blksize) :=
    length_chunk received
  have travelled : blockDistance session.lastAcked session.block = received + 1 - acked := by
    rw [positioned.lastAcked, positioned.block, blockDistance_forward (by omega) (by omega)]
  have within := positioned.more
  unfold TransferSession.acceptData TransferSession.clearOutboundUpTo
  dsimp only
  rw [travelled, positioned.blksize, positioned.windowsize]
  by_cases last : (chunk opts.blksize content received).length < opts.blksize
  · simp only [last, decide_true, Bool.true_or, if_true]
    refine ⟨trivial, .inl ⟨short.mp last, trivial, ?_, ?_⟩⟩
    · rw [positioned.block]
    · rw [positioned.block]
  have more : received + 1 < chunkCount opts.blksize content := by
    omega
  have bytes : session.bytesTransferred + (chunk opts.blksize content received).length =
      (received + 1) * opts.blksize := by
    rw [positioned.bytes, Nat.succ_mul]
    omega
  by_cases full : received + 1 - acked ≥ opts.windowsize
  · simp only [last, full, decide_true, decide_false, Bool.or_true, if_true, if_false]
    refine ⟨trivial, .inr (.inl ⟨⟨?_, ?_, bytes, positioned.blksize, positioned.windowsize, le_rfl, ?_, more⟩,
      trivial, ?_, ?_⟩)⟩
    · rw [positioned.block, nextBlock_serial]
    · exact positioned.block
    · omega
    · rw [positioned.block]
    · rw [positioned.block]
  · simp only [last, full, decide_false, Bool.or_false, Bool.false_eq_true, if_false]
    refine ⟨trivial, .inr (.inr ⟨⟨?_, positioned.lastAcked, bytes, positioned.blksize, positioned.windowsize,
      by omega, by omega, more⟩, trivial, trivial, trivial⟩)⟩
    rw [positioned.block, nextBlock_serial]

theorem Positioned.handleData (positioned : Positioned content opts session received acked)
    (direction : session.direction = .write)
    (phase : session.phase = .receiving ∨ session.phase = .recvInitialAck ∨ session.phase = .sendOack) :
    ∃ opened : TransferSession, Positioned content opts opened received acked ∧ opened.phase = .receiving ∧
      opened.direction = .write ∧ opened.outbound ⊆ session.outbound ∧
      ∀ now block data, session.handleData now block data = opened.receiveData now block data := by
  rcases phase with phase | phase | phase
  · refine ⟨session, positioned, phase, direction, List.Subset.refl _, fun now block data => ?_⟩
    simp [TransferSession.handleData, phase]
  all_goals
    refine ⟨{ session.clearOutboundUpTo 0 with phase := .receiving },
      { positioned with }, rfl, direction,
      (List.dropWhile_suffix _).subset, fun now block data => ?_⟩
    simp [TransferSession.handleData, phase, direction]

end Piece

/-- No block number, or the ACK of pieces that are all written, as the last ACK went with a payload. -/
def Answering (received acked : Nat) (packet : Bytes) : Prop :=
  TransferSession.packetBlock packet = none ∨
    ∃ count, acked ≤ count ∧ count ≤ received ∧ packet = encodeAck (serial count)

theorem Answering.mono {received received' acked : Nat} {packet : Bytes} (answering : Answering received acked packet)
    (grown : received ≤ received') : Answering received' acked packet := by
  rcases answering with none | ⟨count, above, below, shape⟩
  · exact .inl none
  · exact .inr ⟨count, above, below.trans grown, shape⟩

theorem Answering.ack {received acked : Nat} (ordered : acked ≤ received) :
    Answering received acked (encodeAck (serial received)) := .inr ⟨received, ordered, le_rfl, rfl⟩

def Queued (received acked : Nat) (queue : List Outbound) : Prop :=
  ∀ entry ∈ queue, ∃ packet, entry = TransferSession.queued packet ∧ Answering received acked packet

theorem Queued.recordOutbound {session : TransferSession} {received acked : Nat} {packets : List Bytes}
    (queue : Queued received acked session.outbound) (now : Nat)
    (answers : ∀ packet ∈ packets, Answering received acked packet) :
    Queued received acked (session.recordOutbound now packets).outbound := by
  intro entry listed
  have mem := List.mem_of_mem_drop listed
  rcases List.mem_append.mp mem with old | new
  · exact queue entry old
  · obtain ⟨packet, sent, rfl⟩ := List.mem_map.mp new
    exact ⟨packet, rfl, answers packet sent⟩

theorem Queued.cleared {received acked : Nat} {queue : List Outbound} (queued : Queued received acked queue)
    (near : received < acked + 32767) :
    queue.dropWhile (TransferSession.isConfirmed (serial (received + 1))) = [] := by
  rw [List.dropWhile_eq_nil_iff]
  intro entry mem
  obtain ⟨packet, rfl, none | ⟨count, above, below, rfl⟩⟩ := queued entry mem
  · unfold TransferSession.isConfirmed TransferSession.queued
    rw [none]
  · unfold TransferSession.queued
    rw [packetBlock_encodeAck]
    exact (blockAtOrAfter_forward (by omega) (by omega)).mpr (by omega)

theorem Positioned.recordOutbound {content : Bytes} {opts : ValidatedOptions} {session : TransferSession}
    {received acked : Nat} (positioned : Positioned content opts session received acked) (now : Nat)
    (packets : List Bytes) : Positioned content opts (session.recordOutbound now packets) received acked :=
  { positioned with }

structure WriteInv (content : Bytes) (opts : ValidatedOptions) (transfer : WriteTransfer) : Prop where
  direction : transfer.session.direction = .write
  written : transfer.written = chunks opts.blksize content transfer.written.length
  within : transfer.written.length ≤ chunkCount opts.blksize content
  ordered : transfer.acked ≤ transfer.written.length
  window : transfer.written.length < transfer.acked + opts.windowsize
  queue : Queued transfer.written.length transfer.acked transfer.session.outbound
  answers : ∀ packet ∈ transfer.answers, Answering transfer.written.length transfer.acked packet
  phase : Positioned content opts transfer.session transfer.written.length transfer.acked ∧
      (transfer.session.phase = .receiving ∨ transfer.session.phase = .recvInitialAck ∨
        transfer.session.phase = .sendOack) ∨
    transfer.session.phase = .done ∧ transfer.written.length = chunkCount opts.blksize content ∨
    transfer.session.phase = .error

/-- A delivered piece is one of the file and near the next expected one. -/
structure Delivered (content : Bytes) (blksize : Nat) (transfer : WriteTransfer) (index : Nat) : Prop where
  within : index < chunkCount blksize content
  ahead : index ≤ transfer.written.length + 32768
  behind : transfer.written.length ≤ index + 32768

namespace WriteInv

variable {content : Bytes} {opts : ValidatedOptions} {transfer : WriteTransfer}

/-- A piece that is written and acknowledged. -/
theorem acknowledged {session : TransferSession} (usable : opts.Usable) (inv : WriteInv content opts transfer)
    (now : Nat) (done : Bool) (direction : session.direction = .write) (empty : session.outbound = [])
    (within : transfer.written.length + 1 ≤ chunkCount opts.blksize content)
    (phase : Positioned content opts session (transfer.written.length + 1) (transfer.written.length + 1) ∧
        session.phase = .receiving ∨
      session.phase = .done ∧ transfer.written.length + 1 = chunkCount opts.blksize content) :
    WriteInv content opts (transfer.deliver now (session, {
      send := [encodeAck (serial (transfer.written.length + 1))]
      write := some (chunk opts.blksize content transfer.written.length), done := done })) := by
  have len : (transfer.written ++ [chunk opts.blksize content transfer.written.length]).length =
      transfer.written.length + 1 := by simp
  have some := usable.windowsize
  have answers : ∀ packet ∈ [encodeAck (serial (transfer.written.length + 1))],
      Answering (transfer.written.length + 1) (transfer.written.length + 1) packet := by
    intro packet mem
    rw [List.mem_singleton.mp mem]
    exact .ack le_rfl
  have queue : Queued (transfer.written.length + 1) (transfer.written.length + 1) session.outbound := by
    rw [empty]
    exact nofun
  refine ⟨direction, ?_, ?_, ?_, ?_, ?_, ?_, ?_⟩
  · show transfer.written ++ [_] = chunks _ _ (transfer.written ++ [_]).length
    rw [len, chunks_succ, ← inv.written]
  · show (transfer.written ++ [_]).length ≤ _
    rw [len]
    exact within
  · exact le_rfl
  · exact Nat.lt_add_of_pos_right some
  · show Queued (transfer.written ++ [_]).length (transfer.written ++ [_]).length _
    rw [len]
    exact queue.recordOutbound now answers
  · intro packet mem
    show Answering (transfer.written ++ [_]).length (transfer.written ++ [_]).length packet
    rw [len]
    exact answers packet mem
  · show Positioned _ _ _ (transfer.written ++ [_]).length (transfer.written ++ [_]).length ∧ _ ∨
      _ ∧ (transfer.written ++ [_]).length = _ ∨ _
    rw [len]
    rcases phase with ⟨positioned, phase⟩ | ended
    · exact .inl ⟨positioned.recordOutbound now _, .inl phase⟩
    · exact .inr (.inl ended)

/-- A piece that is written before its window closes. -/
theorem pending {session : TransferSession} (inv : WriteInv content opts transfer)
    (now : Nat) (direction : session.direction = .write)
    (queue : Queued transfer.written.length transfer.acked session.outbound)
    (positioned : Positioned content opts session (transfer.written.length + 1) transfer.acked)
    (phase : session.phase = .receiving) :
    WriteInv content opts (transfer.deliver now (session, {
      write := some (chunk opts.blksize content transfer.written.length) })) := by
  have len : (transfer.written ++ [chunk opts.blksize content transfer.written.length]).length =
      transfer.written.length + 1 := by simp
  have window := positioned.window
  have ordered := positioned.ordered
  refine ⟨direction, ?_, ?_, ?_, ?_, ?_, nofun, ?_⟩
  · show transfer.written ++ [_] = chunks _ _ (transfer.written ++ [_]).length
    rw [len, chunks_succ, ← inv.written]
  · show (transfer.written ++ [_]).length ≤ _
    rw [len]
    exact positioned.more.le
  · show transfer.acked ≤ (transfer.written ++ [_]).length
    rw [len]
    exact ordered
  · show (transfer.written ++ [_]).length < transfer.acked + _
    rw [len]
    exact window
  · show Queued (transfer.written ++ [_]).length transfer.acked _
    rw [len]
    intro entry mem
    obtain ⟨packet, shape, answering⟩ := queue entry mem
    exact ⟨packet, shape, answering.mono (Nat.le_succ _)⟩
  · show Positioned _ _ _ (transfer.written ++ [_]).length transfer.acked ∧ _ ∨ _
    rw [len]
    exact .inl ⟨positioned, .inl phase⟩

/-- An answer that writes nothing. -/
theorem answered {session : TransferSession} (inv : WriteInv content opts transfer) (now : Nat) {packet : Bytes}
    (done : Bool) (direction : session.direction = .write)
    (queue : Queued transfer.written.length transfer.acked session.outbound)
    (answering : Answering transfer.written.length transfer.acked packet)
    (phase : Positioned content opts session transfer.written.length transfer.acked ∧ session.phase = .receiving ∨
      session.phase = .error) :
    WriteInv content opts (transfer.deliver now (session, { send := [packet], done := done })) := by
  have answers : ∀ other ∈ [packet], Answering transfer.written.length transfer.acked other := by
    intro other mem
    rw [List.mem_singleton.mp mem]
    exact answering
  have same : (transfer.deliver now (session, { send := [packet], done := done })).written = transfer.written :=
    List.append_nil _
  refine ⟨direction, ?_, ?_, ?_, ?_, ?_, ?_, ?_⟩
  all_goals rw [same]
  · exact inv.written
  · exact inv.within
  · exact inv.ordered
  · exact inv.window
  · exact queue.recordOutbound now answers
  · exact answers
  · rcases phase with ⟨positioned, phase⟩ | failed
    · exact .inl ⟨positioned.recordOutbound now _, .inl phase⟩
    · exact .inr (.inr failed)

theorem deliver (usable : opts.Usable) (inv : WriteInv content opts transfer) {index : Nat} (now : Nat)
    (delivered : Delivered content opts.blksize transfer index) (live : transfer.session.phase.isTerminal = false) :
    WriteInv content opts (transfer.step content opts.blksize (.data now index)) ∧
      ((transfer.step content opts.blksize (.data now index)).session.phase = .error ↔
        ¬ Acceptable opts.windowsize transfer.written.length transfer.acked index) := by
  have open_ : Positioned content opts transfer.session transfer.written.length transfer.acked ∧
      (transfer.session.phase = .receiving ∨ transfer.session.phase = .recvInitialAck ∨
        transfer.session.phase = .sendOack) := by
    rcases inv.phase with open_ | ⟨phase, -⟩ | phase
    · exact open_
    all_goals
      rw [phase] at live
      cases live
  obtain ⟨opened, positioned, phase, direction, kept, same⟩ := open_.1.handleData inv.direction open_.2
  obtain ⟨touched, positioned, samePhase, sameDirection, outbound, answer⟩ :=
    positioned.receiveData usable delivered.ahead delivered.behind now
  have queue : Queued transfer.written.length transfer.acked touched.outbound :=
    fun entry mem => inv.queue entry (kept (outbound ▸ mem))
  have half := usable.halfSpace
  unfold blockSpace at half
  have ordered := inv.ordered
  have window := inv.window
  have writing : touched.direction = .write := sameDirection.trans direction
  have receiving : touched.phase = .receiving := samePhase.trans phase
  unfold WriteTransfer.step
  rw [if_neg (by rw [live]; exact Bool.false_ne_true)]
  dsimp only
  rw [same, answer]
  split
  · rename_i expected
    subst expected
    have taken : Acceptable opts.windowsize transfer.written.length transfer.acked transfer.written.length := by
      unfold Acceptable
      split <;> omega
    have spec := positioned.acceptData usable
    have cleared := queue.cleared (by omega)
    have more := positioned.more
    dsimp only at spec
    generalize touched.acceptData _ = res at spec ⊢
    obtain ⟨session', outcome⟩ := res
    obtain ⟨same, ⟨last, done, left, rfl⟩ | ⟨after, still, left, rfl⟩ | ⟨after, still, left, rfl⟩⟩ :=
      spec
    · refine ⟨inv.acknowledged usable now true (same.trans writing) (left.trans cleared) more
        (.inr ⟨done, last⟩), ?_⟩
      refine iff_of_false ?_ (not_not_intro taken)
      show session'.phase ≠ .error
      rw [done]
      exact nofun
    · refine ⟨inv.acknowledged usable now false (same.trans writing) (left.trans cleared) more
        (.inl ⟨after, still.trans receiving⟩), ?_⟩
      refine iff_of_false ?_ (not_not_intro taken)
      show session'.phase ≠ .error
      rw [still, receiving]
      exact nofun
    · refine ⟨inv.pending now (same.trans writing) (left ▸ queue) after (still.trans receiving), ?_⟩
      refine iff_of_false ?_ (not_not_intro taken)
      show session'.phase ≠ .error
      rw [still, receiving]
      exact nofun
  split
  · rename_i retained
    refine ⟨inv.answered now false writing queue (.ack ordered) (.inl ⟨positioned, receiving⟩), ?_⟩
    refine iff_of_false ?_ (not_not_intro retained)
    show touched.phase ≠ .error
    rw [receiving]
    exact nofun
  · rename_i refused
    refine ⟨inv.answered now true writing queue (.inl (packetBlock_errorPacket _)) (.inr rfl), ?_⟩
    exact iff_of_true rfl refused

/-- A tick keeps the invariant. -/
theorem retransmit (inv : WriteInv content opts transfer) (now : Nat) :
    WriteInv content opts (transfer.step content opts.blksize (.retransmit now)) := by
  have queue := inv.queue
  unfold WriteTransfer.step
  split
  · exact { inv with queue := queue, answers := nofun }
  dsimp only
  unfold TransferSession.consumeRetransmission
  split
  · exact { inv with queue := queue, answers := nofun }
  dsimp only
  split
  · exact { inv with queue := queue, answers := nofun, phase := .inr (.inr rfl) }
  · refine { inv with queue := queue, answers := ?_, phase := ?_ }
    · intro packet mem
      obtain ⟨entry, held, rfl⟩ := List.mem_map.mp mem
      obtain ⟨packet, rfl, answering⟩ := queue entry held
      exact answering
    · rcases inv.phase with ⟨positioned, phase⟩ | ended
      · exact .inl ⟨{ positioned with }, phase⟩
      · exact .inr ended

theorem start {init : TransferInit} (write : init.direction = .write) (content : Bytes) (now : Nat) :
    WriteInv content (TransferSession.new init now).opts (WriteTransfer.start init now) := by
  have usable := new_usable init now
  have empty := new_outbound init now
  have writing : (TransferSession.new init now).direction = .write := (new_direction init now).trans write
  unfold WriteTransfer.start TransferSession.initForWrite
  generalize TransferSession.new init now = session at usable empty writing ⊢
  have positioned (phase : Phase) : Positioned content session.opts
      { session with
        bytesTransferred := 0, block := 1, lastAcked := 0, ackedWindowStart := 1
        tsizeAtStart := session.opts.tsize, phase := phase } 0 0 :=
    ⟨rfl, rfl, (Nat.zero_mul _).symm, rfl, rfl, le_rfl, by simpa using usable.windowsize, Nat.succ_pos _⟩
  have queue : Queued 0 0 session.outbound := by
    rw [empty]
    exact nofun
  dsimp only
  split
  · have answers : ∀ packet ∈ [encodeAck 0], Answering 0 0 packet := by
      intro packet mem
      rw [List.mem_singleton.mp mem]
      exact .ack le_rfl
    exact ⟨writing, rfl, Nat.zero_le _, le_rfl, by simpa using usable.windowsize, queue.recordOutbound now answers,
      answers, .inl ⟨(positioned .recvInitialAck).recordOutbound now _, .inr (.inl rfl)⟩⟩
  · have answers : ∀ packet ∈ [encodeOack (validatedToRaw session.opts)], Answering 0 0 packet := by
      intro packet mem
      rw [List.mem_singleton.mp mem]
      exact .inl (packetBlock_encodeOack _)
    exact ⟨writing, rfl, Nat.zero_le _, le_rfl, by simpa using usable.windowsize, queue.recordOutbound now answers,
      answers, .inl ⟨(positioned .sendOack).recordOutbound now _, .inr (.inr rfl)⟩⟩

end WriteInv

/-- A property of every delivery of a run, in the state it arrives in. -/
def Deliveries (content : Bytes) (blksize : Nat) (Holds : WriteTransfer → Nat → Nat → Prop) :
    WriteTransfer → List WriteInput → Prop
  | _, [] => True
  | transfer, .data now index :: rest =>
    Holds transfer now index ∧ Deliveries content blksize Holds (transfer.step content blksize (.data now index)) rest
  | transfer, .retransmit now :: rest =>
    Deliveries content blksize Holds (transfer.step content blksize (.retransmit now)) rest

/-- Any loss, repetition and reordering of the pieces that stays near the expected one. -/
def Carried (content : Bytes) (blksize : Nat) : WriteTransfer → List WriteInput → Prop :=
  Deliveries content blksize fun transfer _ index =>
    transfer.session.phase.isTerminal = false → Delivered content blksize transfer index

/-- No DATA packet of the run moves its upload to an error. -/
def Unaborted (content : Bytes) (blksize : Nat) : WriteTransfer → List WriteInput → Prop :=
  Deliveries content blksize fun transfer now index =>
    transfer.session.phase ≠ .error → (transfer.step content blksize (.data now index)).session.phase ≠ .error

def AllAcceptable (content : Bytes) (blksize windowsize : Nat) : WriteTransfer → List WriteInput → Prop :=
  Deliveries content blksize fun transfer _ index =>
    transfer.session.phase.isTerminal = false → Acceptable windowsize transfer.written.length transfer.acked index

section Runs

variable {content : Bytes} {opts : ValidatedOptions} {transfer : WriteTransfer}

theorem step_terminal {input : WriteInput} (ended : transfer.session.phase.isTerminal = true) (blksize : Nat) :
    transfer.step content blksize input = { transfer with answers := [] } :=
  if_pos ended

theorem WriteInv.step_data (usable : opts.Usable) (inv : WriteInv content opts transfer) {now index : Nat}
    (delivered : transfer.session.phase.isTerminal = false → Delivered content opts.blksize transfer index) :
    WriteInv content opts (transfer.step content opts.blksize (.data now index)) := by
  cases live : transfer.session.phase.isTerminal with
  | false => exact (inv.deliver usable now (delivered live) live).1
  | true =>
    rw [step_terminal live]
    exact { inv with answers := nofun }

theorem WriteInv.run (usable : opts.Usable) (inv : WriteInv content opts transfer) {inputs : List WriteInput}
    (carried : Carried content opts.blksize transfer inputs) :
    WriteInv content opts (transfer.run content opts.blksize inputs) := by
  induction inputs generalizing transfer with
  | nil => exact inv
  | cons input inputs ih =>
    cases input with
    | data now index => exact ih (inv.step_data usable carried.1) carried.2
    | retransmit now => exact ih (inv.retransmit now) carried

theorem WriteInv.unaborted_step_iff (usable : opts.Usable) (inv : WriteInv content opts transfer) {now index : Nat}
    (delivered : transfer.session.phase.isTerminal = false → Delivered content opts.blksize transfer index) :
    (transfer.session.phase ≠ .error →
        (transfer.step content opts.blksize (.data now index)).session.phase ≠ .error) ↔
      (transfer.session.phase.isTerminal = false →
        Acceptable opts.windowsize transfer.written.length transfer.acked index) := by
  cases live : transfer.session.phase.isTerminal with
  | false =>
    have failed := (inv.deliver usable now (delivered live) live).2
    have running : transfer.session.phase ≠ .error := by
      intro phase
      rw [phase] at live
      cases live
    constructor
    · intro kept _
      by_contra refused
      exact kept running (failed.mpr refused)
    · intro taken _ phase
      exact failed.mp phase (taken rfl)
  | true =>
    rw [step_terminal live]
    exact iff_of_true id nofun

theorem WriteInv.unaborted_iff (usable : opts.Usable) (inv : WriteInv content opts transfer)
    {inputs : List WriteInput} (carried : Carried content opts.blksize transfer inputs) :
    Unaborted content opts.blksize transfer inputs ↔
      AllAcceptable content opts.blksize opts.windowsize transfer inputs := by
  induction inputs generalizing transfer with
  | nil => exact Iff.rfl
  | cons input inputs ih =>
    cases input with
    | data now index =>
      exact and_congr (inv.unaborted_step_iff usable carried.1) (ih (inv.step_data usable carried.1) carried.2)
    | retransmit now => exact ih (inv.retransmit now) carried

end Runs

/-- An upload survives exactly the deliveries of which every piece is acceptable when it arrives. -/
theorem upload_unaborted_iff {init : TransferInit} (write : init.direction = .write) (content : Bytes) (now : Nat)
    (inputs : List WriteInput)
    (carried : Carried content (TransferSession.new init now).opts.blksize (WriteTransfer.start init now) inputs) :
    Unaborted content (TransferSession.new init now).opts.blksize (WriteTransfer.start init now) inputs ↔
      AllAcceptable content (TransferSession.new init now).opts.blksize
        (TransferSession.new init now).opts.windowsize (WriteTransfer.start init now) inputs :=
  (WriteInv.start write content now).unaborted_iff (new_usable init now) carried

theorem upload_unaborted_iff_repeated :
    let init : TransferInit :=
      { peer := { ip := "192.0.2.9".toList, port := 3069 }, direction := .write, filename := "running.cfg".toList
        absPath := "/srv/tftp/running.cfg".toList
        rawOptions := { blksize := some "8".toList, windowsize := some "2".toList } }
    let inputs : List WriteInput := [.data 1 0, .retransmit 2, .data 3 0, .data 4 1, .data 5 0, .data 6 2]
    let opts := (TransferSession.new init 0).opts
    Unaborted (List.replicate 20 7) opts.blksize (WriteTransfer.start init 0) inputs ↔
      AllAcceptable (List.replicate 20 7) opts.blksize opts.windowsize (WriteTransfer.start init 0) inputs :=
  upload_unaborted_iff rfl (List.replicate 20 7) 0 _
    ⟨fun _ => ⟨by decide, by decide, by decide⟩,
      fun _ => ⟨by decide, by decide, by decide⟩,
      fun _ => ⟨by decide, by decide +kernel, by decide +kernel⟩,
      fun _ => ⟨by decide, by decide +kernel, by decide +kernel⟩,
      fun _ => ⟨by decide, by decide +kernel, by decide +kernel⟩, trivial⟩

/-- The network loses the first piece of a window: the second one fails the upload. -/
theorem lost_piece_aborts_upload :
    let init : TransferInit :=
      { peer := { ip := "192.0.2.9".toList, port := 3069 }, direction := .write, filename := "running.cfg".toList
        absPath := "/srv/tftp/running.cfg".toList
        rawOptions := { blksize := some "8".toList, windowsize := some "2".toList } }
    let transfer := WriteTransfer.start init 0
    1 < transfer.acked + (TransferSession.new init 0).opts.windowsize ∧
      Carried (List.replicate 20 7) (TransferSession.new init 0).opts.blksize transfer [.data 1 1] ∧
      ¬ Unaborted (List.replicate 20 7) (TransferSession.new init 0).opts.blksize transfer [.data 1 1] := by
  refine ⟨by decide, ⟨fun _ => ⟨by decide, by decide, by decide⟩, trivial⟩, ?_⟩
  intro unaborted
  exact unaborted.1 (by decide) (by decide)

/-- What an upload has written and acknowledged, in terms of the file. -/
structure WriteTransfer.Exact (content : Bytes) (opts : ValidatedOptions) (transfer : WriteTransfer) : Prop where
  /-- The first pieces of the file, each once and in order. -/
  written : transfer.written = chunks opts.blksize content transfer.written.length
  bytes : transfer.written.flatten <+: content
  /-- An ACK names a written piece, less than a window behind the last. -/
  acknowledged : ∀ block, encodeAck block ∈ transfer.answers →
    ∃ count ≤ transfer.written.length, transfer.written.length < count + opts.windowsize ∧ block = serial count
  completed : transfer.session.phase = .done → transfer.written.flatten = content

theorem WriteInv.exact {content : Bytes} {opts : ValidatedOptions} {transfer : WriteTransfer} (usable : opts.Usable)
    (inv : WriteInv content opts transfer) : transfer.Exact content opts := by
  refine ⟨inv.written, ?_, fun block sent => ?_, fun done => ?_⟩
  · rw [inv.written, flatten_chunks]
    exact List.take_prefix _ _
  · rcases inv.answers _ sent with none | ⟨count, above, below, shape⟩
    · cases none
    · have same := congrArg TransferSession.packetBlock shape
      rw [packetBlock_encodeAck, packetBlock_encodeAck] at same
      have window := inv.window
      exact ⟨count, below, by omega, Option.some.inj same⟩
  · rcases inv.phase with ⟨-, other⟩ | ⟨-, whole⟩ | other
    · rcases other with other | other | other <;> rw [done] at other <;> cases other
    · rw [inv.written, whole]
      exact flatten_all_chunks usable.blksize
    · rw [done] at other
      cases other

/-- An upload writes its file exactly, whatever the network loses, repeats and reorders. -/
theorem upload_exact {init : TransferInit} (write : init.direction = .write) (content : Bytes) (now : Nat)
    (inputs : List WriteInput)
    (carried : Carried content (TransferSession.new init now).opts.blksize (WriteTransfer.start init now) inputs) :
    ((WriteTransfer.start init now).run content (TransferSession.new init now).opts.blksize inputs).Exact content
      (TransferSession.new init now).opts := by
  have usable := new_usable init now
  exact ((WriteInv.start write content now).run usable carried).exact usable

theorem upload_exact_repeated :
    let init : TransferInit :=
      { peer := { ip := "192.0.2.9".toList, port := 3069 }, direction := .write, filename := "running.cfg".toList
        absPath := "/srv/tftp/running.cfg".toList
        rawOptions := { blksize := some "8".toList, windowsize := some "2".toList } }
    let inputs : List WriteInput := [.data 1 0, .data 2 1, .retransmit 3, .data 4 1, .data 5 0, .data 6 2, .data 7 2]
    let opts := (TransferSession.new init 0).opts
    ((WriteTransfer.start init 0).run (List.replicate 20 7) opts.blksize inputs).Exact (List.replicate 20 7) opts :=
  upload_exact rfl (List.replicate 20 7) 0 _
    ⟨fun _ => ⟨by decide, by decide, by decide⟩,
      fun _ => ⟨by decide, by decide, by decide⟩,
      fun _ => ⟨by decide, by decide, by decide⟩,
      fun _ => ⟨by decide, by decide +kernel, by decide +kernel⟩,
      fun _ => ⟨by decide, by decide +kernel, by decide +kernel⟩,
      fun _ => ⟨by decide, by decide +kernel, by decide +kernel⟩, trivial⟩

end NexTerminal.Tftp
