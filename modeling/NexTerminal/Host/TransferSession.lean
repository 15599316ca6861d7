import NexTerminal.Tftp.Session

/-! A read served by the extension host's own TFTP session (`TransferSession.ts`). Times are in
milliseconds, and packets stand for what they encode. -/

namespace NexTerminal.Host.Transfer

open Tftp (Bytes Direction Phase ValidatedOptions ErrorCode)

def defaultTimeoutMs : Nat := 5000
def defaultMaxRetries : Nat := 5
def maxBackoffMs : Nat := 60000
def maxRetransmissionPackets : Nat := 256

def blockSpace : Nat := 0x10000

def blockDistance (start stop : UInt16) : Nat := (stop.toNat + blockSpace - start.toNat) % blockSpace

def blockAtOrAfter (earlier later : UInt16) : Bool := blockDistance earlier later < blockSpace / 2

/-- The number after the last one is 1: no DATA block is ever numbered 0. -/
def nextBlock (blockNum : UInt16) : UInt16 := if blockNum ≥ 65535 then 1 else blockNum + 1

inductive Packet
  | oack (opts : ValidatedOptions)
  | data (blockNum : UInt16) (chunk : Bytes)
deriving DecidableEq

structure OutboundPacket where
  blockNum : Option UInt16
  buffer : Packet
deriving DecidableEq

structure TransferSession where
  opcode : Direction
  opts : ValidatedOptions := {}
  phase : Phase := .idle
  error : Option (ErrorCode × String) := none
  blockNum : UInt16 := 0
  lastAcked : UInt16 := 0
  fileSize : Nat := 0
  bytesTransferred : Nat := 0
  lastActivity : Nat
  retries : Nat := 0
  timeoutMs : Nat := defaultTimeoutMs
  tsizeAtStart : Option Nat := none
  fileOffset : Nat := 0
  outboundQueue : List OutboundPacket := []
  outboundSentLast : Nat
  retxBackoffMs : Nat := defaultTimeoutMs
deriving DecidableEq

structure AckResult where
  produceMore : Bool := false
  done : Bool := false
deriving DecidableEq

namespace TransferSession

def new (opcode : Direction) (opts : ValidatedOptions) (now : Nat) : TransferSession :=
  let timeoutMs := match opts.timeout with
    | some seconds => seconds * 1000
    | none => defaultTimeoutMs
  { opcode := opcode, opts := opts, lastActivity := now, outboundSentLast := now, timeoutMs := timeoutMs
    retxBackoffMs := timeoutMs }

def touch (session : TransferSession) (now : Nat) : TransferSession :=
  { session with lastActivity := now, retxBackoffMs := session.timeoutMs }

def setError (session : TransferSession) (code : ErrorCode) (message : String) : TransferSession :=
  { session with phase := .error, error := some (code, message) }

def outbound : Packet → OutboundPacket
  | .oack opts => { blockNum := none, buffer := .oack opts }
  | .data blockNum chunk => { blockNum := some blockNum, buffer := .data blockNum chunk }

def recordOutbound (session : TransferSession) (now : Nat) (packets : List Packet) : TransferSession :=
  let queue := session.outboundQueue ++ packets.map outbound
  { session with outboundQueue := queue.drop (queue.length - maxRetransmissionPackets), outboundSentLast := now }

def isConfirmed (ack : UInt16) (packet : OutboundPacket) : Bool :=
  match packet.blockNum with
  | none => true
  | some blockNum => ack != 0 && blockAtOrAfter blockNum ack

def clearOutboundUpToAck (session : TransferSession) (ack : UInt16) : TransferSession :=
  { session with
    outboundQueue := session.outboundQueue.dropWhile (isConfirmed ack), retxBackoffMs := session.timeoutMs }

def timeForRetransmission (session : TransferSession) (now : Nat) : Bool :=
  !session.outboundQueue.isEmpty && now - session.outboundSentLast ≥ session.retxBackoffMs

/-- The packets to send again, or nothing once the attempts are spent. -/
def consumeRetransmission (session : TransferSession) (now : Nat) : TransferSession × Option (List Packet) :=
  if session.outboundQueue.isEmpty then (session, none)
  else
    let session := { session with retries := session.retries + 1 }
    if session.retries > defaultMaxRetries then (session.setError .notDefined "Max retries exceeded", none)
    else
      ({ session with
          retxBackoffMs := min (session.retxBackoffMs * 2) maxBackoffMs
          outboundSentLast := now, lastActivity := now },
        some (session.outboundQueue.map OutboundPacket.buffer))

def initForRRQ (session : TransferSession) (hasOptions : Bool) (fileSize : Nat) : TransferSession × List Packet :=
  let session := { session with
    fileSize := fileSize, bytesTransferred := 0, blockNum := 0, lastAcked := 0, fileOffset := 0
    opts := { session.opts with
      tsize := if session.opts.tsize = some 0 then some fileSize else session.opts.tsize }
    tsizeAtStart := some fileSize }
  if hasOptions then ({ session with phase := .sendOack }, [.oack session.opts])
  else ({ session with phase := .sending }, [])

def handleACK (session : TransferSession) (now : Nat) (ack : UInt16) : TransferSession × AckResult :=
  if session.phase = .sendOack then
    if ack ≠ 0 then (session, {})
    else
      let session := { session.touch now with retries := 0 }.clearOutboundUpToAck ack
      match session.opcode with
      | .read => ({ session with phase := .sending }, { produceMore := true })
      | .write => ({ session with phase := .receiving }, {})
  else
    let session := { session.touch now with retries := 0 }
    if session.phase = .sentLast then
      let session := session.clearOutboundUpToAck ack
      -- an ACK of the OACK is taken for one of the last block
      if ack = session.blockNum ∨ ack = 0 then ({ session with phase := .done }, { done := true })
      else (session, {})
    else if session.phase = .sending then
      let session := session.clearOutboundUpToAck ack
      if ack = 0 ∧ session.blockNum = 0 then (session, { produceMore := true })
      else if !blockAtOrAfter session.lastAcked ack then (session, {})
      else
        let session := { session with lastAcked := ack }
        (session, { produceMore := blockDistance session.lastAcked session.blockNum < session.opts.windowsize })
    else (session, {})

/-- The condition of the loop in `produceNextSendPackets`. -/
def roomToSend (session : TransferSession) : Bool :=
  session.phase == .sending && blockDistance session.lastAcked session.blockNum < session.opts.windowsize

/-- One round of the loop. The read fills at most one block. -/
def produceNext (session : TransferSession) (bytesRead : Bytes) : TransferSession × List Packet :=
  if !session.roomToSend then (session, [])
  else
    let chunk := bytesRead.take session.opts.blksize
    let blockNum := nextBlock session.blockNum
    ({ session with
        fileOffset := session.fileOffset + chunk.length
        blockNum := blockNum
        phase := if chunk.length < session.opts.blksize then .sentLast else session.phase
        bytesTransferred := session.bytesTransferred + chunk.length },
      [.data blockNum chunk])

end TransferSession

open TransferSession

/-- A read with the numbers of what it has put on the wire; an OACK goes by 0. -/
structure ReadRun where
  session : TransferSession
  sent : List UInt16 := []

inductive ReadEvent
  | ack (now : Nat) (ack : UInt16)
  /-- A round of sending, with what was read from the file. -/
  | produce (now : Nat) (bytesRead : Bytes)
  | tick (now : Nat)
deriving DecidableEq

def Packet.number : Packet → UInt16
  | .oack _ => 0
  | .data blockNum _ => blockNum

namespace ReadRun

def send (run : ReadRun) (now : Nat) (next : TransferSession × List Packet) : ReadRun where
  session := if next.2.isEmpty then next.1 else next.1.recordOutbound now next.2
  sent := run.sent ++ next.2.map Packet.number

def opened (opts : ValidatedOptions) (hasOptions : Bool) (fileSize now : Nat) : ReadRun :=
  let session := TransferSession.new .read opts now
  send { session := session } now (session.initForRRQ hasOptions fileSize)

def step (run : ReadRun) : ReadEvent → ReadRun
  | .ack now ack => { run with session := (run.session.handleACK now ack).1 }
  | .produce now bytesRead => run.send now (run.session.produceNext bytesRead)
  | .tick now =>
    if run.session.phase ≠ .error ∧ run.session.phase ≠ .done ∧ run.session.timeForRetransmission now then
      { run with session := (run.session.consumeRetransmission now).1 }
    else run

/-- An ACK of nothing that has been sent. Numbers come round again: one ahead of the block sent
last is that of a block still to be sent. -/
def Unsent (run : ReadRun) (ack : UInt16) : Prop :=
  ack ∉ run.sent ∨ blockAtOrAfter run.session.lastAcked ack = true ∧
    blockDistance run.session.lastAcked run.session.blockNum < blockDistance run.session.lastAcked ack

instance (run : ReadRun) (ack : UInt16) : Decidable (run.Unsent ack) := inferInstanceAs (Decidable (_ ∨ _ ∧ _))

/-- What an event may do: only an ACK of the final block completes the read, and an ACK of
nothing sent changes nothing of the window, the activity or the queue. -/
structure Keeps (run : ReadRun) (event : ReadEvent) : Prop where
  completes : (run.step event).session.phase = .done → run.session.phase = .done ∨
    ∃ now ack, event = .ack now ack ∧ run.session.phase = .sentLast ∧ ack = run.session.blockNum
  ignores : ∀ now ack, event = .ack now ack → run.Unsent ack →
    (run.step event).session.lastAcked = run.session.lastAcked ∧
      (run.session.handleACK now ack).2.produceMore = false ∧
      (run.step event).session.lastActivity = run.session.lastActivity ∧
      (run.step event).session.outboundQueue = run.session.outboundQueue

/-- The ACK names something that was sent, or comes while only the OACK waits for one; and it is
not 0 once the last block is out. -/
def Meets (run : ReadRun) : ReadEvent → Prop
  | .ack _ ack => (¬ run.Unsent ack ∨ run.session.phase = .sendOack) ∧
    ¬ (run.session.phase = .sentLast ∧ ack = 0)
  | _ => True

/-- Later than anything the session has taken for activity. -/
def Later (run : ReadRun) : ReadEvent → Prop
  | .ack now _ => run.session.lastActivity < now
  | _ => True

def Always (holds : ReadRun → ReadEvent → Prop) (run : ReadRun) : List ReadEvent → Prop
  | [] => True
  | event :: rest => holds run event ∧ Always holds (run.step event) rest

end ReadRun

open ReadRun

variable {run : ReadRun}

theorem nextBlock_ne_zero (blockNum : UInt16) : nextBlock blockNum ≠ 0 := by
  unfold nextBlock
  split
  · decide
  · rename_i below
    intro zero
    have num : (blockNum + 1).toNat = 0 := congrArg UInt16.toNat zero
    change ¬ 65535 ≤ blockNum.toNat at below
    change (blockNum.toNat + 1) % 65536 = 0 at num
    omega

/-- While the OACK waits, it is all that was sent; the last block of a file has a number. -/
structure Ordered (run : ReadRun) : Prop where
  opcode : run.session.opcode = .read
  waiting : run.session.phase = .sendOack → 0 ∈ run.sent ∧ run.session.lastAcked = 0 ∧ run.session.blockNum = 0
  numbered : run.session.phase = .sentLast → run.session.blockNum ≠ 0

theorem opened_ordered (opts : ValidatedOptions) (hasOptions : Bool) (fileSize now : Nat) :
    Ordered (opened opts hasOptions fileSize now) := by
  cases hasOptions with
  | false => exact ⟨rfl, nofun, nofun⟩
  | true => exact ⟨rfl, fun _ => ⟨List.mem_cons_self, rfl, rfl⟩, nofun⟩

def heard (session : TransferSession) (now : Nat) (ack : UInt16) : TransferSession :=
  { session.touch now with retries := 0 }.clearOutboundUpToAck ack

inductive Answered (session : TransferSession) (now : Nat) (ack : UInt16) : TransferSession × AckResult → Prop
  | early (waiting : session.phase = .sendOack) (other : ack ≠ 0) : Answered session now ack (session, {})
  | begun (waiting : session.phase = .sendOack) (zero : ack = 0) :
      Answered session now ack ({ heard session now ack with phase := .sending }, { produceMore := true })
  | completed (last : session.phase = .sentLast) (final : ack = session.blockNum ∨ ack = 0) :
      Answered session now ack ({ heard session now ack with phase := .done }, { done := true })
  | partly (last : session.phase = .sentLast) : Answered session now ack (heard session now ack, {})
  | moved (sending : session.phase = .sending) (lastAcked : UInt16) (produceMore : Bool) :
      Answered session now ack ({ heard session now ack with lastAcked := lastAcked }, { produceMore := produceMore })
  | noise (waiting : session.phase ≠ .sendOack) (last : session.phase ≠ .sentLast) :
      Answered session now ack ({ session.touch now with retries := 0 }, {})

theorem handleACK_answered {session : TransferSession} (read : session.opcode = .read) (now : Nat) (ack : UInt16) :
    Answered session now ack (session.handleACK now ack) := by
  unfold TransferSession.handleACK
  by_cases waiting : session.phase = .sendOack
  · rw [if_pos waiting]
    by_cases other : ack ≠ 0
    · rw [if_pos other]
      exact .early waiting other
    · rw [if_neg other]
      have begun : Answered session now ack _ := .begun waiting (not_not.mp other)
      dsimp only [TransferSession.touch]
      rw [read]
      rw [heard, clearOutboundUpToAck, TransferSession.touch, read] at begun
      exact begun
  · rw [if_neg waiting]
    by_cases last : session.phase = .sentLast
    · have same : ({ session.touch now with retries := 0 } : TransferSession).phase = .sentLast := last
      dsimp only
      rw [if_pos same]
      split
      · rename_i final
        exact .completed last final
      · exact .partly last
    · have same : ¬ ({ session.touch now with retries := 0 } : TransferSession).phase = .sentLast := last
      dsimp only
      rw [if_neg same]
      by_cases sending : session.phase = .sending
      · have same : ({ session.touch now with retries := 0 } : TransferSession).phase = .sending := sending
        rw [if_pos same]
        split
        · exact .moved sending session.lastAcked true
        · split
          · exact .moved sending session.lastAcked false
          · exact .moved sending ack _
      · have same : ¬ ({ session.touch now with retries := 0 } : TransferSession).phase = .sending := sending
        rw [if_neg same]
        exact .noise waiting last

inductive Produced (session : TransferSession) : TransferSession × List Packet → Prop
  | full : Produced session (session, [])
  | block {next : TransferSession} {chunk : Bytes} (number : next.blockNum = nextBlock session.blockNum)
      (opcode : next.opcode = session.opcode) (phase : next.phase = .sentLast ∨ next.phase = .sending) :
      Produced session (next, [.data (nextBlock session.blockNum) chunk])

theorem produceNext_produced (session : TransferSession) (bytesRead : Bytes) :
    Produced session (session.produceNext bytesRead) := by
  unfold TransferSession.produceNext
  split
  · exact .full
  · rename_i room
    have sending : session.phase = .sending := by
      simp only [roomToSend, Bool.not_eq_true', Bool.not_eq_false, Bool.and_eq_true, beq_iff_eq] at room
      exact room.1
    refine .block rfl rfl ?_
    split
    · exact .inl rfl
    · exact .inr sending

theorem send_packet (run : ReadRun) (now : Nat) (next : TransferSession) (packet : Packet) :
    (run.send now (next, [packet])).session = next.recordOutbound now [packet] := rfl

theorem recordOutbound_keeps (session : TransferSession) (now : Nat) (packets : List Packet) :
    (session.recordOutbound now packets).opcode = session.opcode ∧
      (session.recordOutbound now packets).blockNum = session.blockNum ∧
      (session.recordOutbound now packets).phase = session.phase := by
  simp [TransferSession.recordOutbound]

theorem consumeRetransmission_spec (session : TransferSession) (now : Nat) :
    (session.consumeRetransmission now).1.opcode = session.opcode ∧
      (session.consumeRetransmission now).1.blockNum = session.blockNum ∧
      (session.consumeRetransmission now).1.lastAcked = session.lastAcked ∧
      ((session.consumeRetransmission now).1.phase = .error ∨
        (session.consumeRetransmission now).1.phase = session.phase) := by
  unfold TransferSession.consumeRetransmission
  split
  · exact ⟨rfl, rfl, rfl, .inr rfl⟩
  · dsimp only
    split
    · exact ⟨rfl, rfl, rfl, .inl rfl⟩
    · exact ⟨rfl, rfl, rfl, .inr rfl⟩

section

variable (ordered : Ordered run)
include ordered

theorem Ordered.ack (now : Nat) (ack : UInt16) : Ordered (run.step (.ack now ack)) := by
  have answered := handleACK_answered ordered.opcode now ack
  change Ordered { run with session := (run.session.handleACK now ack).1 }
  generalize run.session.handleACK now ack = res at answered ⊢
  cases answered with
  | early waiting other => exact ordered
  | begun waiting zero | completed last final => exact ⟨ordered.opcode, nofun, nofun⟩
  | partly last =>
    exact ⟨ordered.opcode, fun waiting => (nomatch last.symm.trans waiting), fun _ => ordered.numbered last⟩
  | moved sending lastAcked produceMore =>
    exact ⟨ordered.opcode, fun waiting => (nomatch sending.symm.trans waiting),
      fun last => (nomatch sending.symm.trans last)⟩
  | noise waiting last => exact ⟨ordered.opcode, fun again => absurd again waiting, fun again => absurd again last⟩

theorem Ordered.step (event : ReadEvent) : Ordered (run.step event) := by
  cases event with
  | ack now ack => exact ordered.ack now ack
  | produce now bytesRead =>
    change Ordered (run.send now (run.session.produceNext bytesRead))
    have produced := produceNext_produced run.session bytesRead
    generalize run.session.produceNext bytesRead = res at produced ⊢
    cases produced with
    | full => exact ⟨ordered.opcode, by simpa [ReadRun.send] using ordered.waiting, ordered.numbered⟩
    | @block next chunk num opcode phase =>
      obtain ⟨opcode', number', phase'⟩ :=
        recordOutbound_keeps next now [.data (nextBlock run.session.blockNum) chunk]
      refine ⟨?_, fun waiting => ?_, fun _ zero => ?_⟩
      · rw [send_packet, opcode', opcode, ordered.opcode]
      · rw [send_packet, phase'] at waiting
        rcases phase with last | sending
        · exact nomatch last.symm.trans waiting
        · exact nomatch sending.symm.trans waiting
      · rw [send_packet, number', num] at zero
        exact nextBlock_ne_zero _ zero
  | tick now =>
    simp only [ReadRun.step]
    split
    · obtain ⟨opcode, num, acked, phase⟩ := consumeRetransmission_spec run.session now
      refine ⟨opcode.trans ordered.opcode, fun waiting => ?_, fun last => ?_⟩
      · rcases phase with failed | same
        · exact nomatch failed.symm.trans waiting
        · obtain ⟨sent, first, none_⟩ := ordered.waiting (same.symm.trans waiting)
          exact ⟨sent, acked.trans first, num.trans none_⟩
      · rcases phase with failed | same
        · exact nomatch failed.symm.trans last
        · exact fun zero => ordered.numbered (same.symm.trans last) (num.symm.trans zero)
    · exact ordered

theorem Ordered.sent_zero (waiting : run.session.phase = .sendOack) : ¬ run.Unsent 0 := by
  obtain ⟨sent, acked, num⟩ := ordered.waiting waiting
  rintro (absent | ⟨_, beyond⟩)
  · exact absent sent
  · rw [acked, num] at beyond
    exact absurd beyond (lt_irrefl _)

theorem keeps_of_meets {event : ReadEvent} (meets : Meets run event) : Keeps run event := by
  cases event with
  | ack now ack =>
    obtain ⟨known, notOack⟩ := meets
    have answered := handleACK_answered ordered.opcode now ack
    have ignored : run.session.phase ≠ .sendOack → ¬ run.Unsent ack := fun other => known.resolve_right other
    have next : (run.step (.ack now ack)).session = (run.session.handleACK now ack).1 := rfl
    refine ⟨fun done => ?_, fun now' ack' same unsent => ?_⟩
    · rw [next] at done
      generalize run.session.handleACK now ack = res at answered done
      cases answered with
      | early waiting other => exact .inl done
      | begun waiting zero => cases done
      | completed last final =>
        have covers : ack = run.session.blockNum := final.resolve_right fun zero => notOack ⟨last, zero⟩
        exact .inr ⟨now, ack, rfl, last, covers⟩
      | partly last => exact nomatch last.symm.trans done
      | moved sending lastAcked produceMore => exact nomatch sending.symm.trans done
      | noise waiting last => exact .inl done
    · cases same
      rw [next]
      by_cases waiting : run.session.phase = .sendOack
      · have other : ack ≠ 0 := by
          rintro rfl
          exact ordered.sent_zero waiting unsent
        have unchanged : run.session.handleACK now ack = (run.session, {}) := by
          rw [TransferSession.handleACK, if_pos waiting, if_pos other]
        rw [unchanged]
        exact ⟨rfl, rfl, rfl, rfl⟩
      · exact absurd unsent (ignored waiting)
  | produce now bytesRead =>
    refine ⟨fun done => .inl ?_, nofun⟩
    change (run.send now (run.session.produceNext bytesRead)).session.phase = .done at done
    have produced := produceNext_produced run.session bytesRead
    generalize run.session.produceNext bytesRead = res at produced done
    cases produced with
    | full => exact done
    | @block next chunk num opcode phase =>
      rw [send_packet, (recordOutbound_keeps next now _).2.2] at done
      rcases phase with last | sending
      · exact nomatch last.symm.trans done
      · exact nomatch sending.symm.trans done
  | tick now =>
    refine ⟨fun done => .inl ?_, nofun⟩
    simp only [ReadRun.step] at done
    split at done
    · rcases (consumeRetransmission_spec run.session now).2.2.2 with failed | same
      · exact nomatch failed.symm.trans done
      · exact same.symm.trans done
    · exact done

theorem meets_of_keeps {event : ReadEvent} (later : Later run event) (keeps : Keeps run event) : Meets run event := by
  cases event with
  | produce now bytesRead | tick now => trivial
  | ack now ack =>
    have answered := handleACK_answered ordered.opcode now ack
    have next : (run.step (.ack now ack)).session = (run.session.handleACK now ack).1 := rfl
    refine ⟨?_, ?_⟩
    · by_cases waiting : run.session.phase = .sendOack
      · exact .inr waiting
      · refine .inl fun unsent => ?_
        obtain ⟨_, _, activity, _⟩ := keeps.ignores now ack rfl unsent
        have touched : (run.session.handleACK now ack).1.lastActivity = now := by
          generalize run.session.handleACK now ack = res at answered
          cases answered with
          | early again other | begun again zero => exact absurd again waiting
          | completed last final | partly last | moved sending lastAcked produceMore | noise other last => rfl
        have refreshed : run.session.lastActivity < now := later
        rw [next, touched] at activity
        exact absurd activity.symm (ne_of_lt refreshed)
    · rintro ⟨last, rfl⟩
      have done : (run.step (.ack now 0)).session.phase = .done := by
        rw [next, TransferSession.handleACK, if_neg (by rw [last]; decide)]
        rw [if_pos (by exact last), if_pos (.inr rfl)]
      rcases keeps.completes done with pre | ⟨_, _, same, _, covers⟩
      · exact nomatch last.symm.trans pre
      · cases same
        exact ordered.numbered last covers.symm

end

variable {holds other : ReadRun → ReadEvent → Prop}

theorem always_congr
    (each : ∀ run, Ordered run → ∀ event, holds run event → other run event) (ordered : Ordered run)
    {events : List ReadEvent} (all : Always holds run events) : Always other run events := by
  induction events generalizing run with
  | nil => trivial
  | cons event rest ih => exact ⟨each run ordered event all.1, ih (ordered.step event) all.2⟩

theorem always_and {events : List ReadEvent}
    (first : Always holds run events) (second : Always other run events) :
    Always (fun run event => holds run event ∧ other run event) run events := by
  induction events generalizing run with
  | nil => trivial
  | cons event rest ih => exact ⟨⟨first.1, second.1⟩, ih first.2 second.2⟩

/-- A read that is only sent ACKs of what it has sent keeps to them, and no other does. -/
theorem reads_keep_iff (opts : ValidatedOptions) (hasOptions : Bool) (fileSize now : Nat) (events : List ReadEvent) :
    (Always Meets (opened opts hasOptions fileSize now) events →
        Always Keeps (opened opts hasOptions fileSize now) events) ∧
      (Always Later (opened opts hasOptions fileSize now) events →
        (Always Keeps (opened opts hasOptions fileSize now) events ↔
          Always Meets (opened opts hasOptions fileSize now) events)) := by
  have ordered := opened_ordered opts hasOptions fileSize now
  have enough : Always Meets (opened opts hasOptions fileSize now) events →
      Always Keeps (opened opts hasOptions fileSize now) events :=
    always_congr (fun _ ordered _ => keeps_of_meets ordered) ordered
  refine ⟨enough, fun later => ⟨fun keeps => ?_, enough⟩⟩
  exact always_congr (fun _ ordered _ both => meets_of_keeps ordered both.1 both.2) ordered (always_and later keeps)

def lostBlock : List ReadEvent := [.ack 1 0, .produce 2 [7], .ack 3 0]

/-- The read completes all the same. -/
theorem lostBlock_not_kept : ¬ Always Keeps (opened { blksize := 8 } true 1 0) lostBlock := by
  rintro ⟨_, _, keeps, _⟩
  rcases keeps.completes (by decide) with before | ⟨now, ack, same, _, covers⟩
  · revert before
    decide
  · cases same
    revert covers
    decide

end NexTerminal.Host.Transfer
