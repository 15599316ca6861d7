import Mathlib.Data.List.MinMax
import NexTerminal.Library.SeqMap
import NexTerminal.Tftp.Session

/-! The protocol core of the TFTP service (`engine.rs`): session table, upload files
and events. One call reads the clock once. Log lines and the transfer rates are left out. -/

namespace NexTerminal.Tftp

open Dhcp (Text)
open Library

def maxEchoedText : Nat := 200

inductive IoErrorKind
  | notFound | permissionDenied | alreadyExists | other
deriving DecidableEq

structure IoError where
  kind : IoErrorKind
  rawOsError : Option Nat := none
  message : String := ""
deriving DecidableEq

inductive GuardError
  | pathViolation (name : Text)
  | notAFile (name : Text)
  | fileAlreadyExists (name : Text)
  | io (error : IoError)
deriving DecidableEq

structure StatResult where
  size : Nat
  absPath : Path

/-- ENOSPC on Unix; handle-disk-full and disk-full on Windows. -/
def isOutOfSpace (windows : Bool) (error : IoError) : Bool :=
  match error.rawOsError with
  | some code => if windows then code == 39 || code == 112 else code == 28
  | none => false

def wireErrorForIo (windows : Bool) (error : IoError) : ErrorCode × Option String :=
  if isOutOfSpace windows error then (.diskFull, some "Disk full or allocation exceeded")
  else match error.kind with
    | .notFound => (.fileNotFound, none)
    | .permissionDenied => (.accessViolation, none)
    | .alreadyExists => (.fileAlreadyExists, none)
    | .other => (.notDefined, some error.message)

def wireErrorForGuard (windows : Bool) : GuardError → ErrorCode × Option String
  | .pathViolation _ => (.accessViolation, none)
  | .notAFile _ => (.fileNotFound, some "Not a file")
  | .fileAlreadyExists _ => (.fileAlreadyExists, none)
  | .io error => wireErrorForIo windows error

/-- `char::is_control`. -/
def isControl (c : Char) : Bool := c.toNat < 0x20 || (0x7F ≤ c.toNat && c.toNat < 0xA0)

def truncateForLog (text : Text) : Text :=
  let cleaned := (text.take maxEchoedText).map fun c => if isControl c then '\uFFFD' else c
  if text.length > maxEchoedText then cleaned ++ ['…'] else cleaned

structure TransferInfo where
  id : Text
  peerAddress : Text
  peerPort : UInt16
  direction : Direction
  filename : Text
  bytes : Nat
  totalBytes : Option Nat
  blockSize : Nat
  windowSize : Nat
deriving DecidableEq

def infoOf (session : TransferSession) : TransferInfo where
  id := session.peer.toText
  peerAddress := session.peer.ip
  peerPort := session.peer.port
  direction := session.direction
  filename := truncateForLog session.filename
  bytes := session.bytesTransferred
  totalBytes := session.totalBytes
  blockSize := session.opts.blksize
  windowSize := session.opts.windowsize

inductive EngineEvent
  | transferStart (info : TransferInfo)
  | transferProgress (info : TransferInfo)
  | transferComplete (info : TransferInfo)
  | transferError (info : TransferInfo) (error : String) (code : Option String)
deriving DecidableEq

/-- What a call does to the outside: a datagram, an event, or a `remove_file` and whether it worked. -/
inductive Effect
  | send (peer : SocketAddr) (packet : Bytes)
  | emit (event : EngineEvent)
  | removeFile (path : Path) (removed : Bool)
deriving DecidableEq

structure Admission where
  max : Nat
  reserved : Nat := 0
deriving DecidableEq

/-- Counts the registered sessions and the slots handed out. -/
def Admission.tryReserve (admission : Admission) (registered : Nat) : Admission × Bool :=
  if registered + admission.reserved ≥ admission.max then (admission, false)
  else ({ admission with reserved := admission.reserved + 1 }, true)

def Admission.release (admission : Admission) : Admission :=
  { admission with reserved := admission.reserved - 1 }

/-- The tail of a finished upload: the first and the last block of the window its ACK stood for. -/
structure CompletedWrite where
  windowStart : UInt16
  finalBlock : UInt16
  ack : Bytes
  dally : Nat
  expiresAt : Nat
deriving DecidableEq

def CompletedWrite.covers (completed : CompletedWrite) (block : UInt16) : Bool :=
  blockDistance block completed.finalBlock ≤ blockDistance completed.windowStart completed.finalBlock

/-- What a call finds outside: the clock, the sandboxed file system and how it answers,
the iteration order of the hash maps and `String::from_utf8_lossy`. -/
structure Env where
  now : Nat
  statFile : Text → Except GuardError StatResult
  ensureWritableNew : Text → Except GuardError Path
  createNew : Path → Except IoError Unit
  writeAll : Path → Bytes → Except IoError Unit
  readFullAt : Path → Nat → Nat → Except IoError Bytes
  removes : Path → Bool
  order : List SocketAddr → List SocketAddr
  perm : ∀ keys, (order keys).Perm keys
  lossy : Bytes → Text

structure TftpCore where
  windows : Bool := false
  allowWrite : Bool
  admission : Admission
  transfers : SeqMap SocketAddr TransferSession := .empty
  writeHandles : SeqMap SocketAddr Path := .empty
  writePaths : SeqMap SocketAddr Path := .empty
  completedWrites : SeqMap SocketAddr CompletedWrite := .empty
  /-- The files that uploads have created and that exist. -/
  files : List Path := []
  /-- What the current call has done so far, oldest first. -/
  effects : List Effect := []

namespace TftpCore

def new (windows allowWrite : Bool) (maxTransfers : Nat) : TftpCore :=
  { windows := windows, allowWrite := allowWrite, admission := { max := maxTransfers } }

def sendRaw (core : TftpCore) (peer : SocketAddr) (packets : List Bytes) : TftpCore :=
  { core with effects := core.effects ++ packets.map (.send peer) }

def emit (core : TftpCore) (event : EngineEvent) : TftpCore :=
  { core with effects := core.effects ++ [.emit event] }

def putSession (core : TftpCore) (peer : SocketAddr) (session : TransferSession) : TftpCore :=
  { core with transfers := core.transfers.set peer session }

/-- Registers the packets of a session for retransmission, then sends them. -/
def sendForTransfer (core : TftpCore) (env : Env) (peer : SocketAddr) (session : TransferSession)
    (packets : List Bytes) : TftpCore :=
  if packets.isEmpty then core
  else (core.putSession peer (session.recordOutbound env.now packets)).sendRaw session.peer packets

def take (core : TftpCore) (peer : SocketAddr) : Option (TftpCore × TransferInfo × Option Path) :=
  match core.transfers.get? peer with
  | none => none
  | some session =>
    some ({ core with
        transfers := core.transfers.erase peer
        writeHandles := core.writeHandles.erase peer
        writePaths := core.writePaths.erase peer },
      infoOf session, core.writePaths.get? peer)

/-- The held record that expires first, in the order of iteration. -/
def soonest (env : Env) (held : SeqMap SocketAddr CompletedWrite) : Option SocketAddr :=
  (env.order held.keys).argmin fun address => ((held.get? address).map CompletedWrite.expiresAt).getD 0

/-- Makes room for the record of a peer; each round drops one. -/
def evict (env : Env) (limit : Nat) (peer : SocketAddr) :
    Nat → SeqMap SocketAddr CompletedWrite → SeqMap SocketAddr CompletedWrite
  | 0, held => held
  | rounds + 1, held =>
    if held.keys.length ≥ limit ∧ held.has peer = false then
      match soonest env held with
      | some address => evict env limit peer rounds (held.erase address)
      | none => held
    else held

def rememberCompletedWrite (core : TftpCore) (env : Env) (peer : SocketAddr) (completed : CompletedWrite) :
    TftpCore :=
  let held := core.completedWrites.filterValues fun held => held.expiresAt > env.now
  let held := evict env core.admission.max peer held.keys.length held
  { core with completedWrites := held.set peer completed }

def completedWrite (env : Env) (session : TransferSession) : CompletedWrite where
  windowStart := session.ackedWindowStart
  finalBlock := session.lastAcked
  ack := encodeAck session.lastAcked
  dally := session.timeout
  expiresAt := env.now + session.timeout

def finishDone (core : TftpCore) (env : Env) (peer : SocketAddr) : TftpCore :=
  let completed := (core.transfers.get? peer).bind fun session =>
    if session.direction = .write then some (completedWrite env session) else none
  match core.take peer with
  | none => core
  | some (core, info, _) =>
    let core := match completed with
      | some completed => core.rememberCompletedWrite env peer completed
      | none => core
    core.emit (.transferComplete info)

/-- `remove_file`; a failure is ignored. -/
def removeFile (core : TftpCore) (env : Env) (path : Path) : TftpCore :=
  { core with
    files := if env.removes path then core.files.filter (· ≠ path) else core.files
    effects := core.effects ++ [.removeFile path (env.removes path)] }

def discard (core : TftpCore) (env : Env) (direction : Direction) (writePath : Option Path) : TftpCore :=
  if direction = .write then
    match writePath with
    | some path => core.removeFile env path
    | none => core
  else core

def finishError (core : TftpCore) (env : Env) (peer : SocketAddr) (reason : String) (code : Option String) :
    TftpCore :=
  match core.take peer with
  | none => core
  | some (core, info, writePath) =>
    (core.discard env info.direction writePath).emit (.transferError info reason code)

def cancelReason : String := "Transfer cancelled by server"

def cancelTransfer (core : TftpCore) (env : Env) (transferId : Text) : TftpCore × Bool :=
  match (env.order core.transfers.keys).find? fun peer => peer.toText == transferId with
  | none => (core, false)
  | some peer =>
    match core.transfers.get? peer with
    | none => (core, false)
    | some session =>
      let session := session.setError .notDefined cancelReason
      let core := (core.putSession peer session).sendRaw peer [session.errorPacket]
      (core.finishError env peer cancelReason (some "Cancelled"), true)

/-- Releases every resource; the files of unfinished uploads go. -/
def shutdown (core : TftpCore) (env : Env) : TftpCore :=
  let paths := (env.order core.writePaths.keys).filterMap core.writePaths.get?
  let core := paths.foldl (fun core path => core.removeFile env path) core
  { core with transfers := .empty, writePaths := .empty, writeHandles := .empty, completedWrites := .empty }

/-- Sends what the window has room for. A read failure is answered and ends the transfer. -/
def produceMore (core : TftpCore) (env : Env) (peer : SocketAddr) (session : TransferSession) : TftpCore :=
  match session.produceNextSendPackets (env.readFullAt session.absPath) with
  | (session, .ok packets) =>
    if packets.isEmpty then core.putSession peer session
    else
      let core := (core.putSession peer session).sendForTransfer env peer session packets
      core.emit (.transferProgress (infoOf session))
  | (session, .error error) =>
    let (code, message) := wireErrorForIo core.windows error
    let text := message.getD code.defaultMessage
    ((core.putSession peer session).sendRaw peer [encodeError code (some text)]).finishError env peer text
      (some "ReadFailed")

def onAck (core : TftpCore) (env : Env) (peer : SocketAddr) (block : UInt16) : TftpCore :=
  match core.transfers.get? peer with
  | none => core
  | some session =>
    let (session, outcome) := session.handleAck env.now block
    let core := core.putSession peer session
    let core := if outcome.produceMore then core.produceMore env peer session else core
    let done := outcome.done || (core.transfers.get? peer).any fun session => session.phase == .done
    if done then core.finishDone env peer else core

/-- Appends a block to the destination file; a failure is answered and ends the transfer. -/
def appendWrite (core : TftpCore) (env : Env) (peer : SocketAddr) (data : Bytes) : TftpCore × Bool :=
  match core.writeHandles.get? peer with
  | none => (core, true)
  | some handle =>
    match env.writeAll handle data with
    | .ok () => (core, true)
    | .error error =>
      let (code, message) := wireErrorForIo core.windows error
      let text := message.getD code.defaultMessage
      ((core.sendRaw peer [encodeError code (some text)]).finishError env peer text (some "WriteFailed"), false)

/-- The part of `onData` after the payload is written. -/
def answerData (core : TftpCore) (env : Env) (peer : SocketAddr) (session : TransferSession)
    (outcome : DataOutcome) : TftpCore :=
  let core := if outcome.write.isSome then core.emit (.transferProgress (infoOf session)) else core
  let core := core.sendForTransfer env peer session outcome.send
  if session.phase.isTerminal then
    match session.error with
    | some (_, message) => core.finishError env peer message (some "ProtocolError")
    | none => core.finishDone env peer
  else core

def onData (core : TftpCore) (env : Env) (peer : SocketAddr) (block : UInt16) (data : Bytes) : TftpCore :=
  match core.transfers.get? peer with
  | none => core
  | some session =>
    let (session, outcome) := session.handleData env.now block data
    let core := core.putSession peer session
    match outcome.write with
    | some payload =>
      match core.appendWrite env peer payload with
      | (core, true) => core.answerData env peer session outcome
      | (core, false) => core
    | none => core.answerData env peer session outcome

def routeExisting (core : TftpCore) (env : Env) (msg : Bytes) (peer : SocketAddr) : TftpCore :=
  match parsePacket env.lossy msg with
  | .ok none => core
  | .error message =>
    (core.sendRaw peer [encodeError .illegalOperation (some message)]).finishError env peer message
      (some "ProtocolError")
  | .ok (some packet) =>
    match packet with
    | .ack block => core.onAck env peer block
    | .data block data => core.onData env peer block data
    | .error code message =>
      let text := String.ofList (truncateForLog message)
      let reason := if text.isEmpty then s!"Client error {code.toNat}" else s!"Client error: {text}"
      core.finishError env peer reason (some "ClientError")
    | .rrq _ | .wrq _ | .oack _ => core

def reject (core : TftpCore) (peer : SocketAddr) (error : GuardError) : TftpCore :=
  let (code, message) := wireErrorForGuard core.windows error
  core.sendRaw peer [encodeError code message]

local instance : LawfulBEq Path := inferInstance

/-- `create_new`: an existing file is never opened. -/
def createNew (core : TftpCore) (env : Env) (path : Path) : Except IoError TftpCore :=
  if path ∈ core.files then .error { kind := .alreadyExists }
  else match env.createNew path with
    | .ok () => .ok { core with files := path :: core.files }
    | .error error => .error error

/-- The path a request may use, with the size of the file it reads. -/
def resolve (core : TftpCore) (env : Env) (direction : Direction) (request : Request) (peer : SocketAddr) :
    Except TftpCore (Path × Nat) :=
  match direction with
  | .read =>
    match env.statFile request.filename with
    | .ok stat => .ok (stat.absPath, stat.size)
    | .error error => .error (core.reject peer error)
  | .write =>
    if !core.allowWrite then
      .error (core.sendRaw peer [encodeError .accessViolation (some "Write not allowed")])
    else match env.ensureWritableNew request.filename with
      | .ok path => .ok (path, 0)
      | .error error => .error (core.reject peer error)

def register (core : TftpCore) (env : Env) (peer : SocketAddr) (session : TransferSession) (initial : List Bytes) :
    TftpCore :=
  let core := (core.putSession peer session).emit (.transferStart (infoOf session))
  let core := core.sendForTransfer env peer session initial
  let session := (core.transfers.get? peer).getD session
  if session.direction = .read ∧ session.phase = .sending then core.produceMore env peer session else core

def admitRequest (core : TftpCore) (env : Env) (direction : Direction) (request : Request) (peer : SocketAddr) :
    TftpCore :=
  match core.resolve env direction request peer with
  | .error core => core
  | .ok (absPath, fileSize) =>
    let session := TransferSession.new {
      peer := peer, direction := direction, filename := request.filename, absPath := absPath
      rawOptions := request.options } env.now
    if session.phase = .error then core.sendRaw peer [session.errorPacket]
    else match direction with
      | .read =>
        let (session, initial) := session.initForRead fileSize
        core.register env peer session initial
      | .write =>
        match core.createNew env absPath with
        | .error error =>
          let (code, message) := wireErrorForIo core.windows error
          core.sendRaw peer [encodeError code message]
        | .ok core =>
          let core := { core with
            writeHandles := core.writeHandles.set peer absPath
            writePaths := core.writePaths.set peer absPath }
          let (session, initial) := session.initForWrite
          core.register env peer session initial

def handleNewRequest (core : TftpCore) (env : Env) (msg : Bytes) (peer : SocketAddr) : TftpCore :=
  let request : Except ProtocolError (Option (Direction × Request)) :=
    match parsePacket env.lossy msg with
    | .ok (some (.rrq request)) => .ok (some (.read, request))
    | .ok (some (.wrq request)) => .ok (some (.write, request))
    | .ok _ => .ok none
    | .error message => .error message
  match request with
  | .ok none => core
  | .error message => core.sendRaw peer [encodeError .illegalOperation (some message)]
  | .ok (some (direction, request)) =>
    match core.admission.tryReserve core.transfers.keys.length with
    | (_, false) => core.sendRaw peer [encodeError .illegalOperation (some "Server busy")]
    | (admission, true) =>
      let core := ({ core with admission := admission }).admitRequest env direction request peer
      { core with admission := core.admission.release }

def reackCompletedWrite (core : TftpCore) (env : Env) (msg : Bytes) (peer : SocketAddr) : TftpCore × Bool :=
  match core.completedWrites.get? peer with
  | none => (core, false)
  | some completed =>
    if completed.expiresAt ≤ env.now then
      ({ core with completedWrites := core.completedWrites.erase peer }, false)
    else match parsePacket env.lossy msg with
      | .ok (some (.data block _)) =>
        if !completed.covers block then (core, false)
        else
          -- every answer restarts the clock
          let completed := { completed with expiresAt := env.now + completed.dally }
          (({ core with completedWrites := core.completedWrites.set peer completed }).sendRaw peer [completed.ack],
            true)
      | _ => (core, false)

def handleMessage (core : TftpCore) (env : Env) (msg : Bytes) (peer : SocketAddr) : TftpCore :=
  match peekOpcode msg with
  | none => core
  | some rawOpcode =>
    if core.transfers.has peer then core.routeExisting env msg peer
    else match core.reackCompletedWrite env msg peer with
      | (core, true) => core
      | (core, false) =>
        match Opcode.fromWire rawOpcode with
        | some .rrq | some .wrq => core.handleNewRequest env msg peer
        | _ => core.sendRaw peer [encodeError .unknownTransferId (some "No active transfer")]

def tickPeer (env : Env) (core : TftpCore) (peer : SocketAddr) : TftpCore :=
  match core.transfers.get? peer with
  | none => core
  | some session =>
    if session.phase = .done then core.finishDone env peer
    else
      let retransmission := if session.phase ≠ .error ∧ session.timeForRetransmission env.now then
          match session.consumeRetransmission env.now with
          | (session, none) => (session, some none)
          | (session, some packets) => (session, some (some packets))
        else (session, none)
      match retransmission with
      | (session, some none) =>
        let reason := (session.error.map Prod.snd).getD "Max retries exceeded"
        (core.putSession peer session).finishError env peer reason (some "MaxRetries")
      | (session, packets) =>
        let core := match packets with
          | some (some packets) => (core.putSession peer session).sendRaw peer packets
          | _ => core
        if session.isTimedOut env.now then
          core.finishError env peer "Transfer timed out with no response from the client" (some "Timeout")
        else core

def tick (core : TftpCore) (env : Env) : TftpCore :=
  let core := { core with
    completedWrites := core.completedWrites.filterValues fun completed => completed.expiresAt > env.now }
  (env.order core.transfers.keys).foldl (tickPeer env) core

end TftpCore

end NexTerminal.Tftp
