import NexTerminal.Library.Numbers
import NexTerminal.Tftp.Protocol

/-! The state machine of one transfer (`session.rs`). Clock readings and durations
are in milliseconds. -/

namespace NexTerminal.Tftp

open Dhcp (Text)
open Library

def defaultTimeout : Nat := 5000
def defaultMaxRetries : Nat := 5
def maxBackoff : Nat := 60000

def blockDistance (start stop : UInt16) : Nat := serialDistance start stop

def blockAtOrAfter (earlier later : UInt16) : Bool := blockDistance earlier later < blockSpace / 2

def nextBlock (block : UInt16) : UInt16 := block + 1

structure SocketAddr where
  ip : Text
  port : UInt16
deriving DecidableEq

def SocketAddr.toText (peer : SocketAddr) : Text :=
  let ip := if peer.ip.contains ':' then ['['] ++ peer.ip ++ [']'] else peer.ip
  ip ++ [':'] ++ Nat.toDigits 10 peer.port.toNat

inductive Direction
  | read | write
deriving DecidableEq

def Direction.asStr : Direction → String
  | .read => "rrq"
  | .write => "wrq"

inductive Phase
  | idle | sendOack | sending | sentLast | recvInitialAck | receiving | error | done
deriving DecidableEq

def Phase.isTerminal (phase : Phase) : Bool := phase == .error || phase == .done

abbrev Path := Text

structure TransferInit where
  peer : SocketAddr
  direction : Direction
  filename : Text
  absPath : Path
  rawOptions : RawOptions

/-- A packet held for retransmission; an OACK carries no block number. -/
structure Outbound where
  block : Option UInt16
  bytes : Bytes
deriving DecidableEq

structure AckOutcome where
  produceMore : Bool := false
  done : Bool := false
deriving DecidableEq

structure DataOutcome where
  send : List Bytes := []
  write : Option Bytes := none
  done : Bool := false
deriving DecidableEq

structure TransferSession where
  peer : SocketAddr
  direction : Direction
  filename : Text
  absPath : Path
  opts : ValidatedOptions := {}
  phase : Phase := .idle
  error : Option (ErrorCode × String) := none
  block : UInt16 := 0
  lastAcked : UInt16 := 0
  /-- First block of the window that the last cumulative ACK closed. -/
  ackedWindowStart : UInt16 := 1
  fileSize : Nat := 0
  bytesTransferred : Nat := 0
  tsizeAtStart : Option Nat := none
  lastActivity : Nat
  retries : Nat := 0
  maxRetries : Nat := defaultMaxRetries
  timeout : Nat := defaultTimeout
  retxBackoff : Nat := defaultTimeout
  outbound : List Outbound := []
  outboundSentLast : Nat
  fileOffset : Nat := 0
deriving DecidableEq

namespace TransferSession

def setError (session : TransferSession) (code : ErrorCode) (message : String) : TransferSession :=
  { session with phase := .error, error := some (code, message) }

/-- A failed negotiation leaves a session in the error phase. -/
def new (init : TransferInit) (now : Nat) : TransferSession :=
  let session : TransferSession :=
    { peer := init.peer, direction := init.direction, filename := init.filename, absPath := init.absPath
      lastActivity := now, outboundSentLast := now }
  let session := match validateOptions init.rawOptions {} with
    | .ok opts => { session with opts := opts }
    | .error message => session.setError .optionNegotiation message
  let timeout := match session.opts.timeout with
    | some seconds => seconds * 1000
    | none => session.timeout
  { session with timeout := timeout, retxBackoff := timeout }

def errorPacket (session : TransferSession) : Bytes :=
  match session.error with
  | some (code, message) => encodeError code (some message)
  | none => encodeError .notDefined none

def touch (session : TransferSession) (now : Nat) : TransferSession :=
  { session with lastActivity := now, retxBackoff := session.timeout }

def isTimedOut (session : TransferSession) (now : Nat) : Bool :=
  now - session.lastActivity > session.timeout * (session.retries + 1)

def packetBlock : Bytes → Option UInt16
  | 0 :: kind :: hi :: lo :: _ => if kind = 3 ∨ kind = 4 then some (u16FromBytes hi lo) else none
  | _ => none

def queued (packet : Bytes) : Outbound := { block := packetBlock packet, bytes := packet }

def recordOutbound (session : TransferSession) (now : Nat) (packets : List Bytes) : TransferSession :=
  let outbound := session.outbound ++ packets.map queued
  let cap := session.opts.windowsize + 8
  { session with outbound := outbound.drop (outbound.length - cap), outboundSentLast := now }

def isConfirmed (ack : UInt16) (entry : Outbound) : Bool :=
  match entry.block with
  | none => true
  | some block => blockAtOrAfter block ack

def clearOutboundUpTo (session : TransferSession) (ack : UInt16) : TransferSession :=
  { session with outbound := session.outbound.dropWhile (isConfirmed ack), retxBackoff := session.timeout }

def timeForRetransmission (session : TransferSession) (now : Nat) : Bool :=
  !session.outbound.isEmpty && now - session.outboundSentLast ≥ session.retxBackoff

/-- The queue to send again, or nothing once the attempts are spent. -/
def consumeRetransmission (session : TransferSession) (now : Nat) : TransferSession × Option (List Bytes) :=
  if session.outbound.isEmpty then (session, none)
  else
    let session := { session with retries := session.retries + 1 }
    if session.retries > session.maxRetries then
      (session.setError .notDefined "Max retries exceeded", none)
    else
      let backoff :=
        if session.opts.timeout.isNone then min (session.retxBackoff * 2) maxBackoff
        else session.retxBackoff
      ({ session with retxBackoff := backoff, outboundSentLast := now, lastActivity := now },
        some (session.outbound.map Outbound.bytes))

def initForRead (session : TransferSession) (fileSize : Nat) : TransferSession × List Bytes :=
  let session := { session with
    fileSize := fileSize, bytesTransferred := 0, block := 0, lastAcked := 0, ackedWindowStart := 1
    fileOffset := 0
    opts := { session.opts with
      tsize := if session.opts.tsize = some 0 then some fileSize else session.opts.tsize }
    tsizeAtStart := some fileSize }
  let raw := validatedToRaw session.opts
  if raw.isEmpty then ({ session with phase := .sending }, [])
  else ({ session with phase := .sendOack }, [encodeOack raw])

def initForWrite (session : TransferSession) : TransferSession × List Bytes :=
  let session := { session with
    bytesTransferred := 0, block := 1, lastAcked := 0, ackedWindowStart := 1
    tsizeAtStart := session.opts.tsize }
  let raw := validatedToRaw session.opts
  if raw.isEmpty then ({ session with phase := .recvInitialAck }, [encodeAck 0])
  else ({ session with phase := .sendOack }, [encodeOack raw])

/-- Whether an ACK names a block this session has put on the wire. -/
def ackIsForSentData (session : TransferSession) (ack : UInt16) : Bool :=
  match session.phase with
  | .sendOack => ack == 0
  | .sending | .sentLast =>
    ack != session.lastAcked && blockAtOrAfter session.lastAcked ack && blockAtOrAfter ack session.block
  | _ => false

def handleAck (session : TransferSession) (now : Nat) (ack : UInt16) : TransferSession × AckOutcome :=
  if !session.ackIsForSentData ack then (session, {})
  else
    let session := { session.touch now with retries := 0 }
    let session :=
      if session.phase = .sendOack ∨ session.phase = .sentLast ∨ session.phase = .sending then
        session.clearOutboundUpTo ack
      else session
    match session.phase with
    | .sentLast =>
      let session := { session with lastAcked := ack }
      if ack = session.block then ({ session with phase := .done }, { done := true })
      else (session, {})
    | .sendOack =>
      if ack ≠ 0 then (session, {})
      else match session.direction with
        | .read => ({ session with phase := .sending }, { produceMore := true })
        | .write => ({ session with phase := .receiving }, {})
    | .sending =>
      if !blockAtOrAfter session.lastAcked ack then (session, {})
      else
        let session := { session with lastAcked := ack }
        (session, { produceMore := blockDistance session.lastAcked session.block < session.opts.windowsize })
    | _ => (session, {})

def reack (ack : UInt16) : DataOutcome := { send := [encodeAck ack] }

def refuseData (session : TransferSession) (message : String) : TransferSession × DataOutcome :=
  let session := session.setError .illegalOperation message
  (session, { send := [session.errorPacket], done := true })

def acceptData (session : TransferSession) (data : Bytes) : TransferSession × DataOutcome :=
  let isLast := data.length < session.opts.blksize
  let current := session.block
  let session := { session with
    bytesTransferred := session.bytesTransferred + data.length
    block := if isLast then session.block else nextBlock session.block }
  let shouldAck := isLast || blockDistance session.lastAcked current ≥ session.opts.windowsize
  if shouldAck then
    let session := { session with
      ackedWindowStart := nextBlock session.lastAcked
      lastAcked := current
      phase := if isLast then .done else session.phase }
    (session.clearOutboundUpTo current,
      { send := [encodeAck current], write := some data, done := isLast })
  else (session, { write := some data })

def receiveData (session : TransferSession) (now : Nat) (block : UInt16) (data : Bytes) :
    TransferSession × DataOutcome :=
  let session := { session.touch now with retries := 0 }
  let previous := session.block - 1
  if block = previous then (session, reack previous)
  else
    let receivedThrough := blockDistance session.lastAcked previous
    let offset := blockDistance session.lastAcked block
    if session.bytesTransferred > 0 ∧ offset ≥ 1 ∧ offset ≤ receivedThrough then
      (session, reack previous)
    else if session.bytesTransferred > 0 ∧ session.block = nextBlock session.lastAcked
        ∧ blockDistance block session.lastAcked < session.opts.windowsize then
      (session, reack session.lastAcked)
    else if block ≠ session.block then
      session.refuseData s!"Block {block.toNat} received, expected {session.block.toNat}"
    else if data.length > session.opts.blksize then
      session.refuseData "DATA exceeds negotiated blksize"
    else session.acceptData data

def handleData (session : TransferSession) (now : Nat) (block : UInt16) (data : Bytes) :
    TransferSession × DataOutcome :=
  -- the first DATA of a write confirms the OACK
  let session :=
    if session.phase = .recvInitialAck ∨ session.phase = .sendOack ∧ session.direction = .write then
      { session.clearOutboundUpTo 0 with phase := .receiving }
    else session
  if session.phase ≠ .receiving then (session, {})
  else session.receiveData now block data

def produceNextPacket (session : TransferSession) (buffer : Bytes) : TransferSession × Bytes :=
  let session := { session with
    fileOffset := session.fileOffset + buffer.length
    block := nextBlock session.block
    phase := if buffer.length < session.opts.blksize then .sentLast else session.phase
    bytesTransferred := session.bytesTransferred + buffer.length }
  (session, encodeData session.block buffer)

/-- The loop of `produceNextSendPackets`; each round takes one block of the window. -/
def produceLoop {E : Type} (readFullAt : Nat → Nat → Except E Bytes) :
    Nat → TransferSession → List Bytes → TransferSession × Except E (List Bytes)
  | 0, session, out => (session, .ok out)
  | rounds + 1, session, out =>
    if session.phase = .sending ∧ blockDistance session.lastAcked session.block < session.opts.windowsize then
      match readFullAt session.fileOffset session.opts.blksize with
      | .error error => (session, .error error)
      | .ok buffer =>
        let (session, packet) := session.produceNextPacket buffer
        produceLoop readFullAt rounds session (out ++ [packet])
    else (session, .ok out)

/-- Fills the send window. The source file is opened and read through `readFullAt`,
given an offset and a length. -/
def produceNextSendPackets {E : Type} (session : TransferSession)
    (readFullAt : Nat → Nat → Except E Bytes) : TransferSession × Except E (List Bytes) :=
  produceLoop readFullAt session.opts.windowsize session []

def totalBytes (session : TransferSession) : Option Nat :=
  match session.direction with
  | .read => some session.fileSize
  | .write => session.tsizeAtStart

end TransferSession

variable {a b : Nat}

/-- Block numbers wrap; over less than a lap their distance is the true one. -/
theorem blockDistance_forward (ordered : a ≤ b) (near : b < a + 65536) :
    blockDistance (serial a) (serial b) = b - a := serialDistance_forward ordered near

theorem blockDistance_backward (behind : b < a) (near : a < b + 65536) :
    blockDistance (serial a) (serial b) = 65536 - (a - b) := by
  rw [blockDistance, serialDistance_backward behind near.le]
  omega

@[simp] theorem nextBlock_serial (pos : Nat) : nextBlock (serial pos) = serial (pos + 1) :=
  serial_succ pos

theorem blockAtOrAfter_forward (ordered : a ≤ b) (near : b < a + 65536) :
    blockAtOrAfter (serial a) (serial b) = true ↔ b - a < 32768 := by
  rw [blockAtOrAfter, blockDistance_forward ordered near, decide_eq_true_eq]
  rfl

theorem blockAtOrAfter_backward (behind : b < a) (near : a < b + 32768) :
    blockAtOrAfter (serial a) (serial b) = false := by
  rw [blockAtOrAfter, blockDistance_backward behind (by omega), decide_eq_false_iff_not]
  unfold blockSpace
  omega

theorem u16_round_trip (value : UInt16) :
    u16FromBytes (.ofNat (value.toNat / 256)) (.ofNat (value.toNat % 256)) = value := by
  have bound := value.toNat_lt
  apply UInt16.toNat_inj.mp
  unfold u16FromBytes
  rw [UInt16.toNat_ofNat', UInt8.toNat_ofNat', UInt8.toNat_ofNat']
  omega

@[simp] theorem packetBlock_encodeData (block : UInt16) (data : Bytes) :
    TransferSession.packetBlock (encodeData block data) = some block :=
  congrArg some (u16_round_trip block)

@[simp] theorem packetBlock_encodeAck (block : UInt16) : TransferSession.packetBlock (encodeAck block) = some block :=
  congrArg some (u16_round_trip block)

theorem packetBlock_errorPacket (session : TransferSession) :
    TransferSession.packetBlock session.errorPacket = none := by
  unfold TransferSession.errorPacket
  cases session.error <;> rfl

theorem packetBlock_encodeOack (opts : RawOptions) : TransferSession.packetBlock (encodeOack opts) = none := by
  unfold encodeOack
  generalize (opts.pairs.flatMap fun pair => nulString pair.1 ++ nulString pair.2) = rest
  cases rest with
  | nil => rfl
  | cons hi rest => cases rest <;> rfl

theorem recordOutbound_outbound {session : TransferSession} {now : Nat} {packets : List Bytes}
    (fits : session.outbound.length + packets.length ≤ session.opts.windowsize + 8) :
    (session.recordOutbound now packets).outbound = session.outbound ++ packets.map TransferSession.queued := by
  unfold TransferSession.recordOutbound
  dsimp only
  rw [List.length_append, List.length_map, Nat.sub_eq_zero_of_le fits, List.drop_zero]

theorem new_usable (init : TransferInit) (now : Nat) : (TransferSession.new init now).opts.Usable := by
  unfold TransferSession.new
  cases validated : validateOptions init.rawOptions {} with
  | error msg =>
    have defaults : ({} : ValidatedOptions).Usable := ⟨by decide, by decide, by decide⟩
    exact defaults
  | ok opts => exact validateOptions_usable validated

theorem new_outbound (init : TransferInit) (now : Nat) : (TransferSession.new init now).outbound = [] := by
  unfold TransferSession.new
  cases validateOptions init.rawOptions {} <;> rfl

theorem new_peer (init : TransferInit) (now : Nat) : (TransferSession.new init now).peer = init.peer := by
  unfold TransferSession.new
  cases validateOptions init.rawOptions {} <;> rfl

theorem new_direction (init : TransferInit) (now : Nat) :
    (TransferSession.new init now).direction = init.direction := by
  unfold TransferSession.new
  cases validateOptions init.rawOptions {} <;> rfl

end NexTerminal.Tftp
