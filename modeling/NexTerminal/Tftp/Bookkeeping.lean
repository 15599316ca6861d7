import NexTerminal.Tftp.Engine

namespace NexTerminal.Tftp

namespace TransferSession

/-- The phases of a transfer that has neither failed nor finished. -/
def livePhases : Direction → List Phase
  | .read => [.sendOack, .sending, .sentLast]
  | .write => [.recvInitialAck, .sendOack, .receiving]

structure Live (session : TransferSession) : Prop where
  phase : session.phase ∈ livePhases session.direction
  error : session.error = none

structure Continues (session next : TransferSession) : Prop where
  peer : next.peer = session.peer
  direction : next.direction = session.direction

theorem Continues.refl (session : TransferSession) : session.Continues session := ⟨rfl, rfl⟩

theorem Continues.trans {session next last : TransferSession} (first : session.Continues next)
    (second : next.Continues last) : session.Continues last :=
  ⟨second.peer.trans first.peer, second.direction.trans first.direction⟩

variable {session : TransferSession}

theorem Live.not_terminal (live : session.Live) : session.phase.isTerminal = false := by
  have phase := live.phase
  cases direction : session.direction <;> rw [direction] at phase <;>
    simp only [livePhases, List.mem_cons, List.not_mem_nil, or_false] at phase <;>
    rcases phase with phase | phase | phase <;> rw [phase] <;> rfl

theorem Live.not_done (live : session.Live) : session.phase ≠ .done := by
  intro phase
  have open_ := live.not_terminal
  rw [phase] at open_
  cases open_

theorem handleAck_continues (session : TransferSession) (now : Nat) (ack : UInt16) :
    session.Continues (session.handleAck now ack).1 := by
  unfold handleAck
  dsimp only
  repeat' split
  all_goals exact ⟨rfl, rfl⟩

theorem handleAck_unsent {ack : UInt16} (unsent : ¬ session.ackIsForSentData ack = true) (now : Nat) :
    session.handleAck now ack = (session, {}) := by
  exact if_pos (by simpa using unsent)

theorem Live.handleAck (live : session.Live) (now : Nat) (ack : UInt16) :
    (session.handleAck now ack).1.Live ∧ (session.handleAck now ack).2.done = false ∧
        ((session.handleAck now ack).2.produceMore = true →
          session.direction = .read ∧ (session.handleAck now ack).1.phase = .sending) ∨
      session.direction = .read ∧ (session.handleAck now ack).1.phase = .done ∧
        (session.handleAck now ack).1.error = none ∧
        (session.handleAck now ack).2 = { done := true } := by
  by_cases sent : session.ackIsForSentData ack = true
  case neg =>
    rw [handleAck_unsent sent]
    exact .inl ⟨live, rfl, nofun⟩
  have phase := live.phase
  have error := live.error
  cases direction : session.direction with
  | read =>
    rw [direction] at phase
    simp only [livePhases, List.mem_cons, List.not_mem_nil, or_false] at phase
    rcases phase with phase | phase | phase
    · have zero : ack = 0 := by simpa [ackIsForSentData, phase] using sent
      subst zero
      simp [TransferSession.handleAck, sent, phase, direction, touch, clearOutboundUpTo]
      exact ⟨by simp [livePhases], error⟩
    · have ahead : blockAtOrAfter session.lastAcked ack = true := by
        simp [ackIsForSentData, phase] at sent
        exact sent.1.2
      simp [TransferSession.handleAck, sent, phase, ahead, touch, clearOutboundUpTo]
      exact ⟨by simp [livePhases, direction], error⟩
    · simp only [TransferSession.handleAck, sent, phase, touch, clearOutboundUpTo, Bool.not_true, Bool.false_eq_true,
        if_false, or_true, true_or, if_true]
      split
      · exact .inr ⟨trivial, rfl, error, rfl⟩
      · exact .inl ⟨⟨by simp [livePhases, direction], error⟩, rfl, nofun⟩
  | write =>
    rw [direction] at phase
    simp only [livePhases, List.mem_cons, List.not_mem_nil, or_false] at phase
    rcases phase with phase | phase | phase
    · simp [ackIsForSentData, phase] at sent
    · have zero : ack = 0 := by simpa [ackIsForSentData, phase] using sent
      subst zero
      simp [TransferSession.handleAck, sent, phase, direction, touch, clearOutboundUpTo]
      exact ⟨by simp [livePhases], error⟩
    · simp [ackIsForSentData, phase] at sent

theorem acceptData_cases (session : TransferSession) (data : Bytes) :
    session.Continues (session.acceptData data).1 ∧ (session.acceptData data).1.error = session.error ∧
      ((session.acceptData data).1.phase = session.phase ∨ (session.acceptData data).1.phase = .done) := by
  unfold acceptData
  dsimp only
  split
  · refine ⟨⟨rfl, rfl⟩, rfl, ?_⟩
    split
    · exact .inr rfl
    · exact .inl rfl
  · exact ⟨⟨rfl, rfl⟩, rfl, .inl rfl⟩

theorem receiveData_cases (session : TransferSession) (now : Nat) (block : UInt16) (data : Bytes) :
    session.Continues (session.receiveData now block data).1 ∧
      ((session.receiveData now block data).1.phase = session.phase ∧
          (session.receiveData now block data).1.error = session.error ∨
        (session.receiveData now block data).1.phase = .done ∧
          (session.receiveData now block data).1.error = session.error ∨
        (session.receiveData now block data).1.phase = .error ∧
          (session.receiveData now block data).1.error ≠ none ∧
          (session.receiveData now block data).2.write = none) := by
  unfold receiveData
  dsimp only
  split
  · exact ⟨⟨rfl, rfl⟩, .inl ⟨rfl, rfl⟩⟩
  split
  · exact ⟨⟨rfl, rfl⟩, .inl ⟨rfl, rfl⟩⟩
  split
  · exact ⟨⟨rfl, rfl⟩, .inl ⟨rfl, rfl⟩⟩
  split
  · exact ⟨⟨rfl, rfl⟩, .inr (.inr ⟨rfl, nofun, rfl⟩)⟩
  split
  · exact ⟨⟨rfl, rfl⟩, .inr (.inr ⟨rfl, nofun, rfl⟩)⟩
  · obtain ⟨same, error, phase⟩ := acceptData_cases { session.touch now with retries := 0 } data
    refine ⟨⟨same.peer, same.direction⟩, ?_⟩
    rcases phase with phase | phase
    · exact .inl ⟨phase, error⟩
    · exact .inr (.inl ⟨phase, error⟩)

theorem Live.handleData_read (live : session.Live) (read : session.direction = .read) (now : Nat) (block : UInt16)
    (data : Bytes) : session.handleData now block data = (session, {}) := by
  have phase := live.phase
  rw [read] at phase
  simp only [livePhases, List.mem_cons, List.not_mem_nil, or_false] at phase
  rcases phase with phase | phase | phase <;> simp [TransferSession.handleData, phase, read]

theorem Live.handleData_write (live : session.Live) (write : session.direction = .write) (now : Nat) (block : UInt16)
    (data : Bytes) :
    session.Continues (session.handleData now block data).1 ∧
      ((session.handleData now block data).1.Live ∨
        (session.handleData now block data).1.phase = .done ∧ (session.handleData now block data).1.error = none ∨
        (session.handleData now block data).1.phase = .error ∧
          (session.handleData now block data).1.error ≠ none ∧
          (session.handleData now block data).2.write = none) := by
  have opened : ∃ opened : TransferSession, session.Continues opened ∧ opened.phase = .receiving ∧
      opened.error = none ∧ session.handleData now block data = opened.receiveData now block data := by
    have phase := live.phase
    rw [write] at phase
    simp only [livePhases, List.mem_cons, List.not_mem_nil, or_false] at phase
    rcases phase with phase | phase | phase
    · refine ⟨{ session.clearOutboundUpTo 0 with phase := .receiving }, ⟨rfl, rfl⟩, rfl, live.error, ?_⟩
      simp [handleData, phase]
    · refine ⟨{ session.clearOutboundUpTo 0 with phase := .receiving }, ⟨rfl, rfl⟩, rfl, live.error, ?_⟩
      simp [handleData, phase, write]
    · refine ⟨session, .refl session, phase, live.error, ?_⟩
      simp [handleData, phase]
  obtain ⟨opened, first, receiving, clean, same⟩ := opened
  rw [same]
  obtain ⟨second, outcome⟩ := receiveData_cases opened now block data
  refine ⟨first.trans second, ?_⟩
  rcases outcome with ⟨phase, error⟩ | ⟨phase, error⟩ | failed
  · refine .inl ⟨?_, error.trans clean⟩
    rw [(first.trans second).direction, write, phase, receiving]
    simp [livePhases]
  · exact .inr (.inl ⟨phase, error.trans clean⟩)
  · exact .inr (.inr failed)

theorem Live.consumeRetransmission (live : session.Live) (now : Nat) :
    session.Continues (session.consumeRetransmission now).1 ∧
      ((session.consumeRetransmission now).1.Live ∨ (session.consumeRetransmission now).2 = none) := by
  unfold TransferSession.consumeRetransmission
  split
  · exact ⟨.refl session, .inl live⟩
  · dsimp only
    split
    · exact ⟨⟨rfl, rfl⟩, .inr rfl⟩
    · exact ⟨⟨rfl, rfl⟩, .inl ⟨live.phase, live.error⟩⟩

theorem Live.produceNextSendPackets {E : Type} (live : session.Live) (read : session.direction = .read)
    (readFullAt : Nat → Nat → Except E Bytes) :
    session.Continues (session.produceNextSendPackets readFullAt).1 ∧
      (session.produceNextSendPackets readFullAt).1.Live := by
  unfold TransferSession.produceNextSendPackets
  generalize session.opts.windowsize = rounds
  generalize ([] : List Bytes) = out
  induction rounds generalizing session out with
  | zero => exact ⟨.refl session, live⟩
  | succ rounds ih =>
    unfold produceLoop
    split
    · rename_i sending
      split
      · exact ⟨.refl session, live⟩
      · rename_i buffer _
        have next : (session.produceNextPacket buffer).1.Live := by
          refine ⟨?_, live.error⟩
          show (if _ then Phase.sentLast else session.phase) ∈ livePhases session.direction
          rw [read, sending.1]
          split <;> simp [livePhases]
        obtain ⟨second, after⟩ := ih next read (out ++ [(session.produceNextPacket buffer).2])
        exact ⟨⟨second.peer, second.direction⟩, after⟩
    · exact ⟨.refl session, live⟩

theorem initForRead_live (read : session.direction = .read) (clean : session.error = none) (fileSize : Nat) :
    session.Continues (session.initForRead fileSize).1 ∧ (session.initForRead fileSize).1.Live := by
  unfold initForRead
  generalize (if session.opts.tsize = some 0 then some fileSize else session.opts.tsize) = tsize
  dsimp only
  split
  all_goals exact ⟨⟨rfl, rfl⟩, by simp [livePhases, read], clean⟩

theorem initForWrite_live (write : session.direction = .write) (clean : session.error = none) :
    session.Continues session.initForWrite.1 ∧ session.initForWrite.1.Live := by
  unfold initForWrite
  dsimp only
  split
  all_goals exact ⟨⟨rfl, rfl⟩, by simp [livePhases, write], clean⟩

theorem new_clean {init : TransferInit} {now : Nat} (open_ : (TransferSession.new init now).phase ≠ .error) :
    (TransferSession.new init now).error = none := by
  unfold TransferSession.new at open_ ⊢
  cases validated : validateOptions init.rawOptions {} with
  | error msg =>
    rw [validated] at open_
    exact absurd rfl open_
  | ok opts => rfl

end TransferSession

open Dhcp (Text)
open Library

/-- The tables of the service and the upload files on disk. -/
structure Books where
  transfers : SeqMap SocketAddr TransferSession
  writeHandles : SeqMap SocketAddr Path
  writePaths : SeqMap SocketAddr Path
  completedWrites : SeqMap SocketAddr CompletedWrite
  files : List Path

def TftpCore.books (core : TftpCore) : Books :=
  { transfers := core.transfers, writeHandles := core.writeHandles, writePaths := core.writePaths
    completedWrites := core.completedWrites, files := core.files }

namespace Books

def register (books : Books) (peer : SocketAddr) (session : TransferSession) : Option Path → Books
  | none => { books with transfers := books.transfers.set peer session }
  | some path =>
    { books with
      transfers := books.transfers.set peer session
      writeHandles := books.writeHandles.set peer path
      writePaths := books.writePaths.set peer path
      files := path :: books.files }

def close (books : Books) (peer : SocketAddr) : Books :=
  { books with
    transfers := books.transfers.erase peer
    writeHandles := books.writeHandles.erase peer
    writePaths := books.writePaths.erase peer }

def remembered (env : Env) (limit : Nat) (peer : SocketAddr) (completed : CompletedWrite)
    (held : SeqMap SocketAddr CompletedWrite) : SeqMap SocketAddr CompletedWrite :=
  let held := held.filterValues fun held => held.expiresAt > env.now
  (TftpCore.evict env limit peer held.keys.length held).set peer completed

def complete (books : Books) (env : Env) (limit : Nat) (peer : SocketAddr) (session : TransferSession) : Books :=
  let closed := books.close peer
  if session.direction = .write then
    { closed with
      completedWrites := remembered env limit peer (TftpCore.completedWrite env session) books.completedWrites }
  else closed

/-- A failed upload leaves nothing, if its file can be removed. -/
def fail (books : Books) (env : Env) (peer : SocketAddr) : Option Path → Books
  | none => books.close peer
  | some path =>
    { books.close peer with
      files := if env.removes path then books.files.filter (· ≠ path) else books.files }

end Books

def Effect.isStart : Effect → Bool
  | .emit (.transferStart _) => true
  | _ => false

def Effect.isTerminal : Effect → Bool
  | .emit (.transferComplete _) | .emit (.transferError _ _ _) => true
  | _ => false

def Effect.isQuiet : Effect → Bool
  | .send _ _ | .emit (.transferProgress _) => true
  | _ => false

def Effect.IsRefusal (peer : SocketAddr) (effect : Effect) : Prop :=
  ∃ packet, effect = .send peer packet ∧ TransferSession.packetBlock packet = none

def Quiet (effects : List Effect) : Prop := ∀ effect ∈ effects, effect.isQuiet = true

theorem Quiet.nil : Quiet [] := nofun

theorem Quiet.append {first second : List Effect} (left : Quiet first) (right : Quiet second) :
    Quiet (first ++ second) := by
  intro effect listed
  rcases List.mem_append.mp listed with listed | listed
  · exact left effect listed
  · exact right effect listed

theorem Quiet.sends (peer : SocketAddr) (packets : List Bytes) : Quiet (packets.map (.send peer)) := by
  intro effect mem
  obtain ⟨-, -, rfl⟩ := List.mem_map.mp mem
  rfl

theorem Quiet.progress (info : TransferInfo) : Quiet [.emit (.transferProgress info)] := by
  intro effect mem
  rw [List.mem_singleton.mp mem]
  rfl

def removal (env : Env) : Option Path → List Effect
  | none => []
  | some path => [.removeFile path (env.removes path)]

/-- A DATA packet that finishes an upload, and the window its ACK closes. -/
structure FinishedBy (env : Env) (packet : Option Packet) (session final : TransferSession) : Prop where
  packet : ∃ block data, packet = some (.data block data) ∧
    (session.handleData env.now block data).1.phase = .done ∧
    final.ackedWindowStart = (session.handleData env.now block data).1.ackedWindowStart ∧
    final.lastAcked = (session.handleData env.now block data).1.lastAcked

def Asked (packet : Option Packet) : Prop := ∃ request, packet = some (.rrq request) ∨ packet = some (.wrq request)

/-- What one call can do for one peer, given the packet it carries, with the effects in order. -/
inductive Transition (env : Env) (limit : Nat) (packet : Option Packet) (peer : SocketAddr) (books : Books) :
    Books → List Effect → Prop
  | refused {effects : List Effect} (absent : books.transfers.get? peer = none)
      (refusals : ∀ effect ∈ effects, effect.IsRefusal peer) : Transition env limit packet peer books books effects
  /-- A peer without a transfer repeats a block of its completed upload. -/
  | reacked {completed : CompletedWrite} {block : UInt16} {data : Bytes} (carried : packet = some (.data block data))
      (absent : books.transfers.get? peer = none)
      (held : books.completedWrites.get? peer = some completed) (fresh : env.now < completed.expiresAt)
      (covers : completed.covers block = true) :
      Transition env limit packet peer books
        { books with
          completedWrites := books.completedWrites.set peer
            { completed with expiresAt := env.now + completed.dally } }
        [.send peer completed.ack]
  | started {session : TransferSession} {path : Option Path} {info : TransferInfo} {quiet : List Effect}
      (asked : Asked packet) (absent : books.transfers.get? peer = none) (room : books.transfers.keys.length < limit)
      (own : session.peer = peer) (live : session.Live) (upload : session.direction = .write ↔ path.isSome = true)
      (new : ∀ file, path = some file → file ∉ books.files) (named : info.id = peer.toText)
      (rest : Quiet quiet) :
      Transition env limit packet peer books (books.register peer session path) (.emit (.transferStart info) :: quiet)
  | broken {info last : TransferInfo} {quiet : List Effect} {reason : String} {code : Option String}
      (asked : Asked packet) (absent : books.transfers.get? peer = none) (named : info.id = peer.toText)
        (rest : Quiet quiet) :
      Transition env limit packet peer books books
        (.emit (.transferStart info) :: quiet ++ [.emit (.transferError last reason code)])
  | kept {session next : TransferSession} {quiet : List Effect} (held : books.transfers.get? peer = some session)
      (same : session.Continues next) (live : next.Live) (rest : Quiet quiet) :
      Transition env limit packet peer books { books with transfers := books.transfers.set peer next } quiet
  | completed {session next : TransferSession} {quiet : List Effect} (held : books.transfers.get? peer = some session)
      (same : session.Continues next)
      (last : session.direction = .write → FinishedBy env packet session next)
      (done : next.phase = .done) (rest : Quiet quiet) :
      Transition env limit packet peer books (books.complete env limit peer next)
        (quiet ++ [.emit (.transferComplete (infoOf next))])
  | failed {session next : TransferSession} {quiet : List Effect} {reason : String} {code : Option String}
      (held : books.transfers.get? peer = some session) (same : session.Continues next) (rest : Quiet quiet) :
      Transition env limit packet peer books (books.fail env peer (books.writePaths.get? peer))
        (quiet ++ removal env (books.writePaths.get? peer) ++ [.emit (.transferError (infoOf next) reason code)])

structure Booked (books : Books) : Prop where
  own : ∀ peer session, books.transfers.get? peer = some session → session.peer = peer
  live : ∀ peer session, books.transfers.get? peer = some session → session.Live
  handles : ∀ peer, (books.writeHandles.get? peer).isSome = true ↔
    ∃ session, books.transfers.get? peer = some session ∧ session.direction = .write
  paths : ∀ peer, (books.writePaths.get? peer).isSome = true ↔
    ∃ session, books.transfers.get? peer = some session ∧ session.direction = .write

theorem Booked.absent {books : Books} (booked : Booked books) {peer : SocketAddr}
    (absent : books.transfers.get? peer = none) :
    books.writeHandles.get? peer = none ∧ books.writePaths.get? peer = none := by
  have nobody : ¬ ∃ session, books.transfers.get? peer = some session ∧ session.direction = .write := by
    rintro ⟨session, held, -⟩
    rw [absent] at held
    cases held
  rw [← booked.handles, Option.not_isSome_iff_eq_none] at nobody
  refine ⟨nobody, ?_⟩
  rw [← Option.not_isSome_iff_eq_none, booked.paths, ← booked.handles, nobody]
  exact nofun

section Transitions

variable {env : Env} {limit : Nat} {packet : Option Packet} {peer : SocketAddr} {books next : Books}
  {effects : List Effect}

theorem get?_set_cases {V : Type} {map : SeqMap SocketAddr V} {value found : V} {other : SocketAddr}
    (held : (map.set peer value).get? other = some found) :
    other = peer ∧ found = value ∨ other ≠ peer ∧ map.get? other = some found := by
  rw [SeqMap.get?_set] at held
  split at held
  · rename_i own
    exact .inl ⟨own.symm, (Option.some.inj held).symm⟩
  · rename_i own
    exact .inr ⟨fun same => own same.symm, held⟩

theorem get?_erase_cases {V : Type} {map : SeqMap SocketAddr V} {found : V} {other : SocketAddr}
    (held : (map.erase peer).get? other = some found) : other ≠ peer ∧ map.get? other = some found := by
  rw [SeqMap.get?_erase] at held
  split at held
  · cases held
  · rename_i own
    exact ⟨fun same => own same.symm, held⟩

theorem Booked.close (booked : Booked books) (peer : SocketAddr) : Booked (books.close peer) := by
  refine ⟨fun other session held => booked.own other session (get?_erase_cases held).2,
    fun other session held => booked.live other session (get?_erase_cases held).2, fun other => ?_, fun other => ?_⟩
  · have handles := booked.handles other
    show ((books.writeHandles.erase peer).get? other).isSome = true ↔
      ∃ session, (books.transfers.erase peer).get? other = some session ∧ _
    rw [SeqMap.get?_erase, SeqMap.get?_erase]
    split
    · simp
    · exact handles
  · have paths := booked.paths other
    show ((books.writePaths.erase peer).get? other).isSome = true ↔
      ∃ session, (books.transfers.erase peer).get? other = some session ∧ _
    rw [SeqMap.get?_erase, SeqMap.get?_erase]
    split
    · simp
    · exact paths

/-- Every transition keeps handles and paths to the uploads under way. -/
theorem Transition.booked (transition : Transition env limit packet peer books next effects) (booked : Booked books) :
    Booked next := by
  cases transition with
  | refused | broken => exact booked
  | reacked => exact { booked with }
  | @started session path info quiet asked absent room own live upload new named rest =>
    have transfers : (books.register peer session path).transfers = books.transfers.set peer session := by
      cases path <;> rfl
    refine ⟨fun other hit held => ?_, fun other hit held => ?_, fun other => ?_, fun other => ?_⟩
    · rw [transfers] at held
      rcases get?_set_cases held with ⟨rfl, rfl⟩ | ⟨-, held⟩
      · exact own
      · exact booked.own other hit held
    · rw [transfers] at held
      rcases get?_set_cases held with ⟨rfl, rfl⟩ | ⟨-, held⟩
      · exact live
      · exact booked.live other hit held
    · rw [transfers, SeqMap.get?_set]
      by_cases same : peer = other
      · subst same
        cases path with
        | none => simpa [Books.register, (booked.absent absent).1] using upload
        | some path => simpa [Books.register, SeqMap.get?_set] using upload
      · rw [if_neg same, ← booked.handles other]
        cases path with
        | none => rfl
        | some path => simp [Books.register, SeqMap.get?_set, same]
    · rw [transfers, SeqMap.get?_set]
      by_cases same : peer = other
      · subst same
        cases path with
        | none => simpa [Books.register, (booked.absent absent).2] using upload
        | some path => simpa [Books.register, SeqMap.get?_set] using upload
      · rw [if_neg same, ← booked.paths other]
        cases path with
        | none => rfl
        | some path => simp [Books.register, SeqMap.get?_set, same]
  | @kept session next quiet held same live rest =>
    have uploads (other : SocketAddr) :
        (∃ hit, (books.transfers.set peer next).get? other = some hit ∧ hit.direction = .write) ↔
          ∃ hit, books.transfers.get? other = some hit ∧ hit.direction = .write := by
      rw [SeqMap.get?_set]
      split
      · rename_i own
        subst own
        rw [held]
        simp [same.direction]
      · exact Iff.rfl
    refine ⟨fun other hit there => ?_, fun other hit there => ?_, fun other => ?_, fun other => ?_⟩
    · rcases get?_set_cases there with ⟨rfl, rfl⟩ | ⟨-, there⟩
      · exact same.peer.trans (booked.own other session held)
      · exact booked.own other hit there
    · rcases get?_set_cases there with ⟨rfl, rfl⟩ | ⟨-, there⟩
      · exact live
      · exact booked.live other hit there
    · exact (booked.handles other).trans (uploads other).symm
    · exact (booked.paths other).trans (uploads other).symm
  | @completed session next quiet held same last done rest =>
    unfold Books.complete
    have closed := booked.close peer
    split
    · exact { closed with }
    · exact closed
  | failed held same rest =>
    have closed := booked.close peer
    unfold Books.fail
    split
    · exact closed
    · exact { closed with }

end Transitions

end NexTerminal.Tftp
