import Mathlib.Data.List.TakeWhile
import NexTerminal.Library.Sequences
import NexTerminal.Tftp.Session

namespace NexTerminal.Tftp

open Library

/-- The DATA packet of a piece of the file; the first is numbered one. -/
def dataPacket (content : Bytes) (blksize index : Nat) : Bytes :=
  encodeData (serial (index + 1)) (chunk blksize content index)

def dataPackets (content : Bytes) (blksize count : Nat) : List Bytes :=
  (List.range count).map (dataPacket content blksize)

def filePackets (content : Bytes) (blksize : Nat) : List Bytes :=
  dataPackets content blksize (chunkCount blksize content)

variable {content : Bytes}

@[simp] theorem length_dataPackets (content : Bytes) (blksize count : Nat) :
    (dataPackets content blksize count).length = count := by
  simp [dataPackets]

theorem dataPackets_take {blksize count total : Nat} (within : count ≤ total) :
    (dataPackets content blksize total).take count = dataPackets content blksize count := by
  rw [dataPackets, ← List.map_take, List.take_range, Nat.min_eq_left within]
  rfl

def packetsBeyond (content : Bytes) (blksize acked sent : Nat) : List Bytes :=
  (dataPackets content blksize sent).drop acked

theorem packetsBeyond_eq (content : Bytes) (blksize acked sent : Nat) :
    packetsBeyond content blksize acked sent =
      (List.range' acked (sent - acked)).map (dataPacket content blksize) := by
  rw [packetsBeyond, dataPackets, ← List.map_drop, List.range_eq_range', List.drop_range']
  simp

theorem mem_packetsBeyond {blksize acked sent : Nat} {packet : Bytes} :
    packet ∈ packetsBeyond content blksize acked sent ↔
      ∃ index, acked ≤ index ∧ index < sent ∧ packet = dataPacket content blksize index := by
  rw [packetsBeyond_eq, List.mem_map]
  constructor
  · rintro ⟨index, mem, rfl⟩
    rw [List.mem_range'_1] at mem
    exact ⟨index, mem.1, by omega, rfl⟩
  · rintro ⟨index, above, below, rfl⟩
    exact ⟨index, List.mem_range'_1.mpr ⟨above, by omega⟩, rfl⟩

theorem packetsBeyond_append (content : Bytes) (blksize : Nat) {acked sent sent' : Nat} (first : acked ≤ sent)
    (second : sent ≤ sent') :
    packetsBeyond content blksize acked sent ++ packetsBeyond content blksize sent sent' =
      packetsBeyond content blksize acked sent' := by
  rw [packetsBeyond_eq, packetsBeyond_eq, packetsBeyond_eq, ← List.map_append]
  congr 1
  have shift : sent = acked + (sent - acked) := by omega
  conv_lhs => rw [shift]
  rw [show acked + (sent - acked) - acked = sent - acked by omega, List.range'_append_1]
  congr 1
  omega

@[simp] theorem length_packetsBeyond (content : Bytes) (blksize acked sent : Nat) :
    (packetsBeyond content blksize acked sent).length = sent - acked := by
  simp [packetsBeyond]

def readFile (content : Bytes) (offset length : Nat) : Except Empty Bytes := .ok ((content.drop offset).take length)

structure ReadTransfer where
  session : TransferSession
  fresh : List Bytes := []
  /-- The blocks the peer has acknowledged, counted from the first. -/
  acked : Nat := 0

inductive ReadInput
  | ack (now : Nat) (block : UInt16)
  | retransmit (now : Nat)

namespace ReadTransfer

/-- The sent block beyond the acknowledged ones that an ACK names. -/
def namedBlock (sent acked : Nat) (block : UInt16) : Option Nat :=
  (List.range' (acked + 1) (sent - acked)).find? fun position => serial position == block

def fillWindow (content : Bytes) (now : Nat) (transfer : ReadTransfer) : ReadTransfer :=
  match transfer.session.produceNextSendPackets (readFile content) with
  | (session, .ok packets) =>
    if packets.isEmpty then { transfer with session := session }
    else { transfer with session := session.recordOutbound now packets, fresh := transfer.fresh ++ packets }
  | (session, .error _) => { transfer with session := session }

def start (init : TransferInit) (content : Bytes) (fileSize now : Nat) : ReadTransfer :=
  let (session, initial) := (TransferSession.new init now).initForRead fileSize
  let session := if initial.isEmpty then session else session.recordOutbound now initial
  let transfer : ReadTransfer := { session := session }
  if session.phase = .sending then transfer.fillWindow content now else transfer

/-- One ACK or one retransmission; a finished session is gone. -/
def step (content : Bytes) (transfer : ReadTransfer) (input : ReadInput) : ReadTransfer :=
  if transfer.session.phase.isTerminal then transfer
  else match input with
    | .ack now block =>
      let (session, outcome) := transfer.session.handleAck now block
      let transfer := { transfer with
        session := session
        acked := (namedBlock transfer.fresh.length transfer.acked block).getD transfer.acked }
      if outcome.produceMore then transfer.fillWindow content now else transfer
    | .retransmit now => { transfer with session := (transfer.session.consumeRetransmission now).1 }

def run (content : Bytes) (transfer : ReadTransfer) (inputs : List ReadInput) : ReadTransfer :=
  inputs.foldl (step content) transfer

end ReadTransfer

/-- A session that has sent and been acknowledged so many blocks of the file. -/
structure Sending (content : Bytes) (opts : ValidatedOptions) (session : TransferSession) (sent acked : Nat) :
    Prop where
  direction : session.direction = .read
  blksize : session.opts.blksize = opts.blksize
  windowsize : session.opts.windowsize = opts.windowsize
  block : session.block = serial sent
  lastAcked : session.lastAcked = serial acked
  ordered : acked ≤ sent
  bounded : sent ≤ acked + opts.windowsize
  offset : session.fileOffset = min content.length (sent * opts.blksize)
  phase : session.phase = .sending ∧ sent < chunkCount opts.blksize content ∨
    session.phase = .sentLast ∧ sent = chunkCount opts.blksize content ∧ acked < sent ∨
    session.phase = .done ∧ sent = chunkCount opts.blksize content ∧ acked = sent ∨
    session.phase = .error ∧ sent ≤ chunkCount opts.blksize content ∧ session.maxRetries < session.retries

section Window

variable {content : Bytes} {opts : ValidatedOptions} {session : TransferSession} {sent acked : Nat}

theorem Sending.within (sending : Sending content opts session sent acked) :
    sent ≤ chunkCount opts.blksize content := by
  rcases sending.phase with ⟨-, open_⟩ | ⟨-, last, -⟩ | ⟨-, last, -⟩ | ⟨-, bound, -⟩
  · exact open_.le
  · exact last.le
  · exact last.le
  · exact bound

theorem Sending.distance (usable : opts.Usable) (sending : Sending content opts session sent acked) :
    blockDistance session.lastAcked session.block = sent - acked := by
  have ordered := sending.ordered
  have bounded := sending.bounded
  have half := usable.halfSpace
  unfold blockSpace at half
  rw [sending.block, sending.lastAcked, blockDistance_forward ordered (by omega)]

theorem Sending.next (usable : opts.Usable) (sending : Sending content opts session sent acked)
    (phase : session.phase = .sending) (room : sent - acked < opts.windowsize) :
    ∃ buffer, readFile content session.fileOffset session.opts.blksize = .ok buffer ∧
      (session.produceNextPacket buffer).2 = dataPacket content opts.blksize sent ∧
      Sending content opts (session.produceNextPacket buffer).1 (sent + 1) acked ∧
      (session.produceNextPacket buffer).1.outbound = session.outbound := by
  have ordered := sending.ordered
  have open_ : sent < chunkCount opts.blksize content := by
    rcases sending.phase with ⟨-, open_⟩ | ⟨other, -⟩ | ⟨other, -⟩ | ⟨other, -⟩
    · exact open_
    all_goals
      rw [phase] at other
      cases other
  have start : sent * opts.blksize ≤ content.length :=
    Nat.le_trans (Nat.mul_le_mul_right _ (Nat.le_of_lt_succ open_)) (Nat.div_mul_le_self _ _)
  have off : session.fileOffset = sent * opts.blksize := by
    rw [sending.offset, Nat.min_eq_right start]
  refine ⟨chunk opts.blksize content sent, ?_, ?_, ?_, rfl⟩
  · rw [readFile, off, sending.blksize]
    rfl
  · show encodeData (nextBlock session.block) _ = _
    rw [sending.block, nextBlock_serial]
    rfl
  · refine ⟨sending.direction, sending.blksize, sending.windowsize, ?_, sending.lastAcked, by omega, by omega,
      ?_, ?_⟩
    · show nextBlock session.block = _
      rw [sending.block, nextBlock_serial]
    · show session.fileOffset + (chunk opts.blksize content sent).length = _
      rw [off, length_chunk, Nat.succ_mul]
      omega
    · show (if (chunk opts.blksize content sent).length < session.opts.blksize then _ else _) = _ ∧ _ ∨
        (if (chunk opts.blksize content sent).length < session.opts.blksize then _ else _) = _ ∧ _ ∨ _ ∨ _
      rw [sending.blksize, phase]
      have short := chunk_short_iff usable.blksize open_
      by_cases last : (chunk opts.blksize content sent).length < opts.blksize
      · rw [if_pos last]
        exact .inr (.inl ⟨rfl, short.mp last, by omega⟩)
      · rw [if_neg last]
        exact .inl ⟨rfl, by omega⟩

theorem Sending.produceLoop (usable : opts.Usable) (rounds : Nat) (out : List Bytes)
    (sending : Sending content opts session sent acked) :
    ∃ session' sent', TransferSession.produceLoop (readFile content) rounds session out =
        (session', .ok (out ++ packetsBeyond content opts.blksize sent sent')) ∧
      Sending content opts session' sent' acked ∧ session'.outbound = session.outbound ∧ sent ≤ sent' ∧
      (opts.windowsize ≤ rounds + (sent - acked) → session'.phase = .sending →
        sent' = acked + opts.windowsize) := by
  have bounded := sending.bounded
  have ordered := sending.ordered
  have nothing : packetsBeyond content opts.blksize sent sent = [] := by simp [packetsBeyond]
  induction rounds generalizing session sent out with
  | zero =>
    refine ⟨session, sent, ?_, sending, rfl, le_rfl, by omega⟩
    rw [nothing, List.append_nil]
    rfl
  | succ rounds ih =>
    unfold TransferSession.produceLoop
    rw [sending.distance usable, sending.windowsize]
    split
    · rename_i room
      obtain ⟨buffer, read, packet, next, outbound⟩ := sending.next usable room.1 room.2
      rw [read]
      dsimp only
      obtain ⟨session', sent', run, after, same, grown, full⟩ :=
        ih (out ++ [(session.produceNextPacket buffer).2]) next (by omega) (by omega) (by simp [packetsBeyond])
      refine ⟨session', sent', ?_, after, same.trans outbound, by omega, fun enough => full (by omega)⟩
      rw [run, packet, List.append_assoc, packetsBeyond_eq, packetsBeyond_eq]
      have first : sent' - sent = (sent' - (sent + 1)) + 1 := by omega
      rw [first, List.range'_succ, List.map_cons, List.singleton_append]
    · rename_i stopped
      refine ⟨session, sent, ?_, sending, rfl, le_rfl, fun _ phase => ?_⟩
      · rw [nothing, List.append_nil]
      · have full : ¬ sent - acked < opts.windowsize := fun room => stopped ⟨phase, room⟩
        omega

variable {block : UInt16}

theorem namedBlock_eq_some {position : Nat} (near : sent < acked + 65536) :
    ReadTransfer.namedBlock sent acked block = some position ↔
      acked < position ∧ position ≤ sent ∧ block = serial position := by
  unfold ReadTransfer.namedBlock
  constructor
  · intro hit
    have mem := List.mem_of_find?_eq_some hit
    have named := List.find?_some hit
    rw [List.mem_range'_1] at mem
    rw [beq_iff_eq] at named
    exact ⟨by omega, by omega, named.symm⟩
  · rintro ⟨beyond, within, rfl⟩
    cases hit : (List.range' (acked + 1) (sent - acked)).find? fun other =>
        serial other == serial position with
    | none =>
      have miss := List.find?_eq_none.mp hit position (List.mem_range'_1.mpr ⟨beyond, by omega⟩)
      simp at miss
    | some other =>
      have mem := List.mem_of_find?_eq_some hit
      have named := List.find?_some hit
      rw [List.mem_range'_1] at mem
      rw [beq_iff_eq] at named
      exact congrArg some ((serial_eq_iff (by omega) (by omega)).mp named)

theorem Sending.ackIsForSentData (usable : opts.Usable) (sending : Sending content opts session sent acked)
    (phase : session.phase = .sending ∨ session.phase = .sentLast) (block : UInt16) :
    session.ackIsForSentData block = true ↔
      ∃ position, ReadTransfer.namedBlock sent acked block = some position := by
  have ordered := sending.ordered
  have bounded := sending.bounded
  have half := usable.halfSpace
  unfold blockSpace at half
  have shape : session.ackIsForSentData block =
      (block != serial acked && blockAtOrAfter (serial acked) block
        && blockAtOrAfter block (serial sent)) := by
    unfold TransferSession.ackIsForSentData
    rcases phase with phase | phase <;> rw [phase, sending.lastAcked, sending.block]
  rw [shape]
  obtain ⟨position, above, below, rfl⟩ := exists_serial block acked
  simp only [Bool.and_eq_true, bne_iff_ne, ne_eq, namedBlock_eq_some (show sent < acked + 65536 by omega)]
  rw [blockAtOrAfter_forward above below, serial_eq_iff below (by omega)]
  constructor
  · rintro ⟨⟨fresh, ahead⟩, behind⟩
    refine ⟨position, by omega, ?_, rfl⟩
    by_contra beyond
    rw [blockAtOrAfter_backward (by omega) (by omega)] at behind
    cases behind
  · rintro ⟨other, beyond, within, same⟩
    have equal := (serial_eq_iff (by omega) (by omega)).mp same
    subst equal
    exact ⟨⟨by omega, by omega⟩, (blockAtOrAfter_forward within (by omega)).mpr (by omega)⟩

theorem dropWhile_of_take {α : Type} {confirmed : α → Bool} {items : List α} {count : Nat}
    (first : ∀ item ∈ items.take count, confirmed item = true)
    (rest : ∀ item ∈ items.drop count, confirmed item = false) : items.dropWhile confirmed = items.drop count := by
  conv_lhs => rw [← List.take_append_drop count items]
  rw [List.dropWhile_append_of_pos first]
  cases shape : items.drop count with
  | nil => rfl
  | cons item tail =>
    simpa using rest item (shape ▸ List.mem_cons_self)

theorem clearOutbound_packets {blksize position : Nat} (beyond : acked ≤ position) (within : position ≤ sent)
    (near : sent < acked + 32768) :
    ((packetsBeyond content blksize acked sent).map TransferSession.queued).dropWhile
        (TransferSession.isConfirmed (serial position)) =
      (packetsBeyond content blksize position sent).map TransferSession.queued := by
  have blocks : ∀ idx, TransferSession.isConfirmed (serial position)
      (TransferSession.queued (dataPacket content blksize idx)) =
        blockAtOrAfter (serial (idx + 1)) (serial position) := by
    intro idx
    unfold TransferSession.isConfirmed TransferSession.queued dataPacket
    rw [packetBlock_encodeData]
  have split : packetsBeyond content blksize position sent =
      (packetsBeyond content blksize acked sent).drop (position - acked) := by
    rw [packetsBeyond, packetsBeyond, List.drop_drop]
    congr 1
    omega
  have front : (packetsBeyond content blksize acked sent).take (position - acked) =
      packetsBeyond content blksize acked position := by
    rw [packetsBeyond_eq, packetsBeyond_eq, ← List.map_take, List.take_range'_of_length_ge (by omega)]
  rw [split, List.map_drop]
  refine dropWhile_of_take ?_ ?_
  · rw [← List.map_take, front]
    intro item mem
    obtain ⟨packet, listed, rfl⟩ := List.mem_map.mp mem
    obtain ⟨idx, above, below, rfl⟩ := mem_packetsBeyond.mp listed
    rw [blocks]
    exact (blockAtOrAfter_forward (by omega) (by omega)).mpr (by omega)
  · rw [← List.map_drop, ← split]
    intro item mem
    obtain ⟨packet, listed, rfl⟩ := List.mem_map.mp mem
    obtain ⟨idx, above, below, rfl⟩ := mem_packetsBeyond.mp listed
    rw [blocks]
    exact blockAtOrAfter_backward (by omega) (by omega)

structure Opening (opts : ValidatedOptions) (session : TransferSession) : Prop where
  direction : session.direction = .read
  blksize : session.opts.blksize = opts.blksize
  windowsize : session.opts.windowsize = opts.windowsize
  block : session.block = 0
  lastAcked : session.lastAcked = 0
  offset : session.fileOffset = 0
  outbound : ∀ entry ∈ session.outbound, entry.block = none
  phase : session.phase = .sendOack ∨ session.phase = .error ∧ session.maxRetries < session.retries

/-- A transfer that keeps the blocks it has sent and that are not acknowledged. -/
structure Draining (content : Bytes) (opts : ValidatedOptions) (transfer : ReadTransfer) : Prop where
  sending : Sending content opts transfer.session transfer.fresh.length transfer.acked
  fresh : transfer.fresh = dataPackets content opts.blksize transfer.fresh.length
  outbound : transfer.session.outbound =
    (packetsBeyond content opts.blksize transfer.acked transfer.fresh.length).map TransferSession.queued

structure Flowing (content : Bytes) (opts : ValidatedOptions) (transfer : ReadTransfer) : Prop
    extends Draining content opts transfer where
  full : transfer.session.phase = .sending → transfer.fresh.length = transfer.acked + opts.windowsize

/-- Every transfer either waits for its options to be confirmed, or flows. -/
def ReadInv (content : Bytes) (opts : ValidatedOptions) (transfer : ReadTransfer) : Prop :=
  Opening opts transfer.session ∧ transfer.fresh = [] ∧ transfer.acked = 0 ∨ Flowing content opts transfer

theorem Draining.fillWindow {transfer : ReadTransfer} (usable : opts.Usable)
    (draining : Draining content opts transfer) (now : Nat) :
    Flowing content opts (transfer.fillWindow content now) := by
  obtain ⟨session', sent', run, after, outbound, grown, full⟩ :=
    draining.sending.produceLoop usable opts.windowsize []
  have enough := full (by omega)
  have bounded := after.bounded
  unfold ReadTransfer.fillWindow TransferSession.produceNextSendPackets
  rw [draining.sending.windowsize, run, List.nil_append]
  dsimp only
  split
  · rename_i nothing
    rw [List.isEmpty_iff] at nothing
    have none := congrArg List.length nothing
    rw [length_packetsBeyond, List.length_nil] at none
    have same : sent' = transfer.fresh.length := by omega
    subst same
    exact ⟨⟨after, draining.fresh, outbound.trans draining.outbound⟩, enough⟩
  · have total : transfer.fresh.length + (sent' - transfer.fresh.length) = sent' := by omega
    have ordered := draining.sending.ordered
    have sent : (transfer.fresh ++ packetsBeyond content opts.blksize transfer.fresh.length sent').length =
        sent' := by
      rw [List.length_append, length_packetsBeyond, total]
    have queue : (session'.recordOutbound now
        (packetsBeyond content opts.blksize transfer.fresh.length sent')).outbound =
          (packetsBeyond content opts.blksize transfer.acked sent').map TransferSession.queued := by
      rw [recordOutbound_outbound, outbound, draining.outbound, ← List.map_append,
        packetsBeyond_append content opts.blksize ordered grown]
      rw [outbound, draining.outbound, List.length_map, length_packetsBeyond, length_packetsBeyond,
        after.windowsize]
      omega
    have pieces : transfer.fresh ++ packetsBeyond content opts.blksize transfer.fresh.length sent' =
        dataPackets content opts.blksize sent' := by
      have whole := packetsBeyond_append content opts.blksize (Nat.zero_le _) grown
      calc
        _ = dataPackets content opts.blksize transfer.fresh.length ++
            packetsBeyond content opts.blksize transfer.fresh.length sent' :=
          congrArg (· ++ _) draining.fresh
        _ = _ := whole
    refine ⟨⟨?_, ?_, ?_⟩, ?_⟩
    · rw [sent]
      exact { after with }
    · rw [sent]
      exact pieces
    · rw [sent]
      exact queue
    · rw [sent]
      exact enough

theorem Sending.handleAck_other (usable : opts.Usable) (sending : Sending content opts session sent acked)
    (live : session.phase.isTerminal = false) (unnamed : ReadTransfer.namedBlock sent acked block = none) (now : Nat) :
    session.handleAck now block = (session, {}) := by
  refine if_pos ?_
  rw [Bool.not_eq_true']
  rcases sending.phase with ⟨phase, -⟩ | ⟨phase, -⟩ | ⟨phase, -⟩ | ⟨phase, -⟩
  · rw [← Bool.not_eq_true, sending.ackIsForSentData usable (.inl phase) block, unnamed]
    exact nofun
  · rw [← Bool.not_eq_true, sending.ackIsForSentData usable (.inr phase) block, unnamed]
    exact nofun
  · rw [phase] at live
    cases live
  · rw [phase] at live
    cases live

theorem Sending.handleAck_named (usable : opts.Usable) (sending : Sending content opts session sent acked)
    (live : session.phase.isTerminal = false) {pos : Nat}
    (named : ReadTransfer.namedBlock sent acked block = some pos) (now : Nat) :
    Sending content opts (session.handleAck now block).1 sent pos ∧
      (session.handleAck now block).1.outbound = session.outbound.dropWhile (TransferSession.isConfirmed block) ∧
      ((session.handleAck now block).2.produceMore = true ↔ (session.handleAck now block).1.phase = .sending) := by
  have bounded := sending.bounded
  have half := usable.halfSpace
  unfold blockSpace at half
  obtain ⟨beyond, within, rfl⟩ := (namedBlock_eq_some (by omega)).mp named
  rcases sending.phase with ⟨phase, open_⟩ | ⟨phase, last, -⟩ | ⟨phase, -⟩ | ⟨phase, -⟩
  · have taken := (sending.ackIsForSentData usable (.inl phase) _).mpr ⟨pos, named⟩
    have ahead : blockAtOrAfter session.lastAcked (serial pos) = true := by
      rw [sending.lastAcked]
      exact (blockAtOrAfter_forward (by omega) (by omega)).mpr (by omega)
    have room : blockDistance (serial pos) session.block < session.opts.windowsize := by
      rw [sending.block, sending.windowsize, blockDistance_forward within (by omega)]
      omega
    unfold TransferSession.handleAck
    rw [if_neg (by simp [taken])]
    simp only [TransferSession.touch, TransferSession.clearOutboundUpTo, phase, ahead, room, if_true, or_true,
      Bool.not_true, Bool.false_eq_true, if_false]
    refine ⟨{ sending with
      lastAcked := rfl, ordered := within, bounded := by omega, phase := .inl ⟨rfl, open_⟩ }, trivial, by simp⟩
  · have taken := (sending.ackIsForSentData usable (.inr phase) _).mpr ⟨pos, named⟩
    unfold TransferSession.handleAck
    rw [if_neg (by simp [taken])]
    simp only [TransferSession.touch, TransferSession.clearOutboundUpTo, phase, if_true, or_true, true_or]
    have done : serial pos = session.block ↔ pos = sent := by
      rw [sending.block, serial_eq_iff (by omega) (by omega)]
    split
    · rename_i whole
      rw [done] at whole
      refine ⟨{ sending with lastAcked := rfl, ordered := within, bounded := by omega, phase := ?_ }, rfl, by simp⟩
      exact .inr (.inr (.inl ⟨rfl, last, whole⟩))
    · rename_i partial_
      rw [done] at partial_
      refine ⟨{ sending with lastAcked := rfl, ordered := within, bounded := by omega, phase := ?_ }, rfl, by simp⟩
      exact .inr (.inl ⟨rfl, last, by omega⟩)
  · rw [phase] at live
    cases live
  · rw [phase] at live
    cases live

theorem Sending.consumeRetransmission (sending : Sending content opts session sent acked) (now : Nat) :
    Sending content opts (session.consumeRetransmission now).1 sent acked ∧
      (session.consumeRetransmission now).1.outbound = session.outbound ∧
      ((session.consumeRetransmission now).1.phase = .sending → session.phase = .sending) := by
  unfold TransferSession.consumeRetransmission
  split
  · exact ⟨sending, rfl, id⟩
  · dsimp only
    split
    · rename_i spent
      refine ⟨{ sending with phase := ?_ }, rfl, nofun⟩
      exact .inr (.inr (.inr ⟨rfl, sending.within, spent⟩))
    · refine ⟨{ sending with phase := ?_ }, rfl, id⟩
      exact sending.phase.imp_right (.imp_right (.imp_right (.imp_right (.imp_right Nat.lt_succ_of_lt))))

theorem Opening.start {transfer : ReadTransfer} (usable : opts.Usable) (opening : Opening opts transfer.session)
    (fresh : transfer.fresh = []) (acked : transfer.acked = 0) {session : TransferSession}
    (same : session = { transfer.session with
      phase := .sending, outbound := [], retries := session.retries, lastActivity := session.lastActivity,
      retxBackoff := session.retxBackoff }) (now : Nat) :
    Flowing content opts (ReadTransfer.fillWindow content now { transfer with session := session }) := by
  refine Draining.fillWindow usable ⟨?_, ?_, ?_⟩ now
  · rw [same, fresh, acked]
    refine { opening with
      ordered := le_rfl, bounded := Nat.zero_le _, offset := ?_, phase := .inl ⟨rfl, Nat.succ_pos _⟩ }
    dsimp only [List.length_nil]
    rw [opening.offset, Nat.zero_mul, Nat.min_zero]
  · rw [fresh]
    rfl
  · rw [same, fresh, acked]
    rfl

theorem Opening.handleAck_other (opening : Opening opts session) (ne : block ≠ 0) (now : Nat) :
    session.handleAck now block = (session, {}) := by
  unfold TransferSession.handleAck TransferSession.ackIsForSentData
  rcases opening.phase with phase | phase <;> simp [phase, ne]

theorem Opening.handleAck_zero (opening : Opening opts session) (phase : session.phase = .sendOack) (now : Nat) :
    session.handleAck now 0 =
      ({ session with
          phase := .sending, outbound := [], retries := 0, lastActivity := now, retxBackoff := session.timeout },
        { produceMore := true }) := by
  have cleared : session.outbound.dropWhile (TransferSession.isConfirmed 0) = [] := by
    rw [List.dropWhile_eq_nil_iff]
    intro entry mem
    unfold TransferSession.isConfirmed
    rw [opening.outbound entry mem]
  unfold TransferSession.handleAck TransferSession.ackIsForSentData
  simp [phase, TransferSession.touch, TransferSession.clearOutboundUpTo, cleared, opening.direction]

theorem produceLoop_live (rounds : Nat) (out : List Bytes) (live : session.phase ≠ .error) :
    (TransferSession.produceLoop (readFile content) rounds session out).1.phase ≠ .error := by
  induction rounds generalizing session out with
  | zero => exact live
  | succ rounds ih =>
    unfold TransferSession.produceLoop
    split
    · refine ih _ ?_
      dsimp only
      split
      · decide
      · exact live
    · exact live

theorem fillWindow_live {transfer : ReadTransfer} (now : Nat) (live : transfer.session.phase ≠ .error) :
    (transfer.fillWindow content now).session.phase ≠ .error := by
  have produced := @produceLoop_live content transfer.session transfer.session.opts.windowsize [] live
  unfold ReadTransfer.fillWindow TransferSession.produceNextSendPackets
  split
  · rename_i made
    rw [made] at produced
    split
    · exact produced
    · exact produced
  · rename_i made
    rw [made] at produced
    exact produced

theorem fillWindow_acked (content : Bytes) (transfer : ReadTransfer) (now : Nat) :
    (transfer.fillWindow content now).acked = transfer.acked := by
  unfold ReadTransfer.fillWindow
  split
  · split <;> rfl
  · rfl

theorem Opening.confirmed {transfer : ReadTransfer} (usable : opts.Usable) (opening : Opening opts transfer.session)
    (phase : transfer.session.phase = .sendOack) (fresh : transfer.fresh = []) (acked : transfer.acked = 0)
    (now : Nat) : (transfer.step content (.ack now 0)).session.phase ∈ [.sending, .sentLast] := by
  have start : (transfer.session.handleAck now 0).1.phase = .sending := by rw [opening.handleAck_zero phase now]
  have flowing := @Opening.start content opts transfer usable opening fresh acked
    (transfer.session.handleAck now 0).1 (by rw [opening.handleAck_zero phase now]) now
  have live := @fillWindow_live content { transfer with session := (transfer.session.handleAck now 0).1 } now
    (by rw [start]; decide)
  have kept := fillWindow_acked content { transfer with session := (transfer.session.handleAck now 0).1 } now
  have stepped : transfer.step content (.ack now 0) =
      ReadTransfer.fillWindow content now { transfer with session := (transfer.session.handleAck now 0).1 } := by
    have unnamed : ReadTransfer.namedBlock transfer.fresh.length transfer.acked 0 = none := by
      rw [fresh, acked]
      rfl
    unfold ReadTransfer.step
    rw [if_neg (by simp [phase, Phase.isTerminal])]
    simp only [unnamed, Option.getD_none, opening.handleAck_zero phase now, if_true]
  rw [stepped]
  rcases flowing.sending.phase with ⟨phase, -⟩ | ⟨phase, -⟩ | ⟨-, last, done⟩ | ⟨phase, -⟩
  · simp [phase]
  · simp [phase]
  · rw [← done, kept, acked] at last
    exact absurd last (Nat.succ_ne_zero _).symm
  · exact absurd phase live

theorem Opening.consumeRetransmission (opening : Opening opts session) (now : Nat) :
    Opening opts (session.consumeRetransmission now).1 := by
  unfold TransferSession.consumeRetransmission
  split
  · exact opening
  · dsimp only
    split
    · rename_i spent
      exact { opening with phase := .inr ⟨rfl, spent⟩ }
    · exact { opening with phase := opening.phase.imp_right (.imp_right Nat.lt_succ_of_lt) }

namespace ReadInv

variable {transfer : ReadTransfer}

theorem step (usable : opts.Usable) (inv : ReadInv content opts transfer) (input : ReadInput) :
    ReadInv content opts (transfer.step content input) := by
  unfold ReadTransfer.step
  split
  · exact inv
  rename_i live
  rw [Bool.not_eq_true] at live
  rcases inv with ⟨opening, fresh, acked⟩ | flowing
  · cases input with
    | retransmit now => exact .inl ⟨opening.consumeRetransmission now, fresh, acked⟩
    | ack now block =>
      dsimp only
      have unnamed : ReadTransfer.namedBlock transfer.fresh.length transfer.acked block = none := by
        rw [fresh, acked]
        rfl
      rw [unnamed, Option.getD_none]
      by_cases zero : block = 0
      · subst zero
        have phase : transfer.session.phase = .sendOack := by
          rcases opening.phase with phase | ⟨phase, -⟩
          · exact phase
          · rw [phase] at live
            cases live
        rw [opening.handleAck_zero phase now]
        exact .inr (opening.start usable fresh acked rfl now)
      · rw [opening.handleAck_other zero now]
        exact .inl ⟨opening, fresh, acked⟩
  · have sending := flowing.sending
    cases input with
    | retransmit now =>
      obtain ⟨after, outbound, phase⟩ := sending.consumeRetransmission now
      exact .inr ⟨⟨after, flowing.fresh, outbound.trans flowing.outbound⟩,
        fun open_ => flowing.full (phase open_)⟩
    | ack now block =>
      dsimp only
      cases named : ReadTransfer.namedBlock transfer.fresh.length transfer.acked block with
      | none =>
        rw [sending.handleAck_other usable live named now]
        exact .inr flowing
      | some pos =>
        have bounded := sending.bounded
        have half := usable.halfSpace
        unfold blockSpace at half
        obtain ⟨beyond, within, shape⟩ := (namedBlock_eq_some (by omega)).mp named
        obtain ⟨after, outbound, more⟩ := sending.handleAck_named usable live named now
        have queue := flowing.outbound
        have cleared : ((transfer.session.handleAck now block).1).outbound =
            (packetsBeyond content opts.blksize pos transfer.fresh.length).map TransferSession.queued := by
          rw [outbound, queue, shape]
          exact clearOutbound_packets beyond.le within (by omega)
        have draining : Draining content opts { transfer with
            session := (transfer.session.handleAck now block).1, acked := pos } :=
          ⟨after, flowing.fresh, cleared⟩
        split
        · exact .inr (draining.fillWindow usable now)
        · rename_i still
          exact .inr ⟨draining, fun open_ => absurd (more.mpr open_) still⟩

theorem run (usable : opts.Usable) (inv : ReadInv content opts transfer) (inputs : List ReadInput) :
    ReadInv content opts (transfer.run content inputs) := by
  induction inputs generalizing transfer with
  | nil => exact inv
  | cons input inputs ih => exact ih (inv.step usable input)

end ReadInv

end Window

theorem initForRead_cases (session : TransferSession) (fileSize : Nat) :
    ∃ opened : TransferSession,
      (session.initForRead fileSize = (opened, []) ∧ opened.phase = .sending ∨
        ∃ opts, session.initForRead fileSize = (opened, [encodeOack opts]) ∧ opened.phase = .sendOack) ∧
      opened.direction = session.direction ∧ opened.opts.blksize = session.opts.blksize ∧
      opened.opts.windowsize = session.opts.windowsize ∧ opened.block = 0 ∧ opened.lastAcked = 0 ∧
      opened.fileOffset = 0 ∧ opened.outbound = session.outbound := by
  generalize res : session.initForRead fileSize = opening
  unfold TransferSession.initForRead at res
  dsimp only at res
  generalize (if session.opts.tsize = some 0 then some fileSize else session.opts.tsize) = tsize at res
  split at res
  · subst res
    exact ⟨_, .inl ⟨rfl, rfl⟩, rfl, rfl, rfl, rfl, rfl, rfl, rfl⟩
  · subst res
    exact ⟨_, .inr ⟨_, rfl, rfl⟩, rfl, rfl, rfl, rfl, rfl, rfl, rfl⟩

theorem ReadInv.start {init : TransferInit} (read : init.direction = .read) (content : Bytes) (fileSize now : Nat) :
    ReadInv content (TransferSession.new init now).opts (ReadTransfer.start init content fileSize now) := by
  have usable := new_usable init now
  have empty := new_outbound init now
  have reading : (TransferSession.new init now).direction = .read := (new_direction init now).trans read
  unfold ReadTransfer.start
  generalize TransferSession.new init now = session at usable empty reading ⊢
  obtain ⟨opened, opening, direction, blksize, windowsize, block, lastAcked, off, outbound⟩ :=
    initForRead_cases session fileSize
  rcases opening with ⟨res, phase⟩ | ⟨opts, res, phase⟩
  · rw [res]
    simp only [List.isEmpty_nil, if_true, phase]
    refine .inr (Draining.fillWindow usable ⟨?_, rfl, outbound.trans empty⟩ now)
    refine ⟨direction.trans reading, blksize, windowsize, block, lastAcked, le_rfl, Nat.zero_le _, ?_,
      .inl ⟨phase, Nat.succ_pos _⟩⟩
    dsimp only [List.length_nil]
    rw [off, Nat.zero_mul, Nat.min_zero]
  · rw [res]
    simp only [List.isEmpty_cons, Bool.false_eq_true, if_false]
    have waiting : (opened.recordOutbound now [encodeOack opts]).phase = .sendOack := phase
    rw [if_neg (by rw [waiting]; exact nofun)]
    refine .inl ⟨⟨direction.trans reading, blksize, windowsize, block, lastAcked, off, ?_,
      .inl waiting⟩, rfl, rfl⟩
    intro entry mem
    rw [recordOutbound_outbound (by rw [outbound, empty]; simp), outbound, empty, List.nil_append,
      List.map_singleton, List.mem_singleton] at mem
    rw [mem]
    exact packetBlock_encodeOack opts

/-- What a download has done, in terms of the file and of the acknowledged blocks. -/
structure ReadTransfer.Exact (content : Bytes) (opts : ValidatedOptions) (transfer : ReadTransfer) : Prop where
  begun : transfer.session.phase ∈ [.sendOack, .sending, .sentLast, .done, .error]
  /-- Only peers that let all retries pass are given up. -/
  failed : transfer.session.phase = .error → transfer.session.maxRetries < transfer.session.retries
  /-- Block zero confirms the options, and the blocks of the file go out. -/
  confirmed : transfer.session.phase = .sendOack →
    ∀ now, (transfer.step content (.ack now 0)).session.phase ∈ [.sending, .sentLast]
  pieces : transfer.fresh <+: filePackets content opts.blksize
  acknowledged : transfer.acked ≤ transfer.fresh.length
  window : transfer.fresh.length - transfer.acked ≤ opts.windowsize
  position : transfer.session.lastAcked = serial transfer.acked
  /-- The queue holds the OACK, and from the first DATA packet on the unacknowledged ones. -/
  queue : transfer.fresh = [] ∧ (∀ entry ∈ transfer.session.outbound, entry.block = none) ∨
    transfer.session.outbound = (transfer.fresh.drop transfer.acked).map TransferSession.queued
  full : transfer.session.phase = .sending → transfer.fresh.length = transfer.acked + opts.windowsize
  last : transfer.session.phase = .sentLast → transfer.fresh = filePackets content opts.blksize
  completed : transfer.session.phase = .done →
    transfer.fresh = filePackets content opts.blksize ∧ transfer.acked = transfer.fresh.length
  /-- An ACK that names no unacknowledged packet changes nothing; the OACK is confirmed by block zero. -/
  unmoved : ∀ now block, ReadTransfer.namedBlock transfer.fresh.length transfer.acked block = none →
    (transfer.session.phase = .sendOack → block ≠ 0) → transfer.step content (.ack now block) = transfer

theorem ReadInv.exact {opts : ValidatedOptions} {transfer : ReadTransfer} (usable : opts.Usable)
    (inv : ReadInv content opts transfer) : transfer.Exact content opts := by
  rcases inv with ⟨opening, fresh, acked⟩ | flowing
  · have waiting : transfer.session.phase ∉ [.sending, .sentLast, .done] := by
      rcases opening.phase with phase | ⟨phase, -⟩ <;> rw [phase] <;> decide
    refine ⟨?_, fun phase => ?_, fun phase now => ?_, ?_, ?_, ?_, ?_, .inl ⟨fresh, opening.outbound⟩,
      fun phase => absurd (by simp [phase]) waiting, fun phase => absurd (by simp [phase]) waiting,
      fun phase => absurd (by simp [phase]) waiting, fun now block unnamed other => ?_⟩
    · rcases opening.phase with phase | ⟨phase, -⟩ <;> rw [phase] <;> decide
    · exact (opening.phase.resolve_left fun other => by cases other.symm.trans phase).2
    · exact opening.confirmed usable phase fresh acked now
    · rw [fresh]
      exact List.nil_prefix
    · rw [fresh, acked]
      exact le_rfl
    · rw [fresh, acked]
      exact Nat.zero_le _
    · rw [opening.lastAcked, acked]
      rfl
    · unfold ReadTransfer.step
      split
      · rfl
      rename_i live
      have phase : transfer.session.phase = .sendOack := by
        rcases opening.phase with phase | ⟨phase, -⟩
        · exact phase
        · rw [phase] at live
          exact absurd rfl live
      dsimp only
      rw [opening.handleAck_other (other phase) now, unnamed]
      rfl
  · have sending := flowing.sending
    have bounded := sending.bounded
    refine ⟨?_, fun phase => ?_, fun phase => ?_, ?_, sending.ordered, by omega, sending.lastAcked, .inr ?_,
      flowing.full, fun phase => ?_, fun phase => ?_, fun now block unnamed other => ?_⟩
    · rcases sending.phase with ⟨phase, -⟩ | ⟨phase, -⟩ | ⟨phase, -⟩ | ⟨phase, -⟩ <;> simp [phase]
    · rcases sending.phase with ⟨other, -⟩ | ⟨other, -⟩ | ⟨other, -⟩ | ⟨-, -, spent⟩
      case inr.inr.inr => exact spent
      all_goals cases other.symm.trans phase
    · rcases sending.phase with ⟨other, -⟩ | ⟨other, -⟩ | ⟨other, -⟩ |
        ⟨other, -⟩ <;> cases other.symm.trans phase
    · rw [filePackets, flowing.fresh, ← dataPackets_take sending.within]
      exact List.take_prefix _ _
    · rw [flowing.outbound, packetsBeyond, ← flowing.fresh]
    · rcases sending.phase with ⟨other, -⟩ | ⟨-, last, -⟩ | ⟨other, -⟩ | ⟨other, -⟩
      case inr.inl =>
        rw [filePackets, ← last]
        exact flowing.fresh
      all_goals cases other.symm.trans phase
    · rcases sending.phase with ⟨other, -⟩ | ⟨other, -⟩ | ⟨-, last, done⟩ | ⟨other, -⟩
      case inr.inr.inl =>
        refine ⟨?_, done⟩
        rw [filePackets, ← last]
        exact flowing.fresh
      all_goals
        rw [phase] at other
        cases other
    · unfold ReadTransfer.step
      split
      · rfl
      rename_i live
      rw [Bool.not_eq_true] at live
      dsimp only
      rw [sending.handleAck_other usable live unnamed now, unnamed]
      rfl

end NexTerminal.Tftp
