import NexTerminal.Library.Runs
import NexTerminal.Tftp.Bookkeeping

namespace NexTerminal.Tftp

open Dhcp (Text)
open Library

def Does (env : Env) (packet : Option Packet) (peer : SocketAddr) (core next : TftpCore) : Prop :=
  ∃ effects, next.effects = core.effects ++ effects ∧ next.admission = core.admission ∧
    Transition env core.admission.max packet peer core.books next.books effects

/-- A core in the middle of a call, which holds this session of the peer. -/
structure Underway (peer : SocketAddr) (start core : TftpCore) (session : TransferSession) : Prop where
  held : ∃ first, start.transfers.get? peer = some first ∧ first.Continues session
  books : core.books = { start.books with transfers := start.transfers.set peer session }
  effects : ∃ quiet, core.effects = start.effects ++ quiet ∧ Quiet quiet
  admission : core.admission = start.admission

namespace Underway

variable {env : Env} {packet : Option Packet} {peer : SocketAddr} {start core : TftpCore}
  {session next : TransferSession}

theorem begin (held : start.transfers.get? peer = some session) : Underway peer start start session := by
  refine ⟨⟨session, held, .refl session⟩, ?_, ⟨[], by simp, .nil⟩, rfl⟩
  rw [SeqMap.set_self held]
  rfl

section

variable (underway : Underway peer start core session)
include underway

theorem transfers : core.transfers = start.transfers.set peer session := congrArg Books.transfers underway.books

theorem get? : core.transfers.get? peer = some session := by
  rw [underway.transfers, SeqMap.get?_set, if_pos rfl]

theorem put (same : session.Continues next) : Underway peer start (core.putSession peer next) next := by
  obtain ⟨first, held, pre⟩ := underway.held
  refine ⟨⟨first, held, pre.trans same⟩, ?_, underway.effects, underway.admission⟩
  show { core.books with transfers := core.transfers.set peer next } = _
  rw [underway.books, underway.transfers, SeqMap.set_set]

theorem sendRaw (other : SocketAddr) (packets : List Bytes) :
    Underway peer start (core.sendRaw other packets) session := by
  obtain ⟨quiet, effects, rest⟩ := underway.effects
  refine ⟨underway.held, underway.books,
    ⟨quiet ++ packets.map (.send other), ?_, rest.append (.sends other packets)⟩, underway.admission⟩
  show core.effects ++ _ = _
  rw [effects, List.append_assoc]

theorem progress (info : TransferInfo) : Underway peer start (core.emit (.transferProgress info)) session := by
  obtain ⟨quiet, effects, rest⟩ := underway.effects
  refine ⟨underway.held, underway.books,
    ⟨quiet ++ [.emit (.transferProgress info)], ?_, rest.append (.progress info)⟩, underway.admission⟩
  show core.effects ++ _ = _
  rw [effects, List.append_assoc]

theorem sendForTransfer (env : Env) (packets : List Bytes) :
    ∃ outbound sentLast, Underway peer start (core.sendForTransfer env peer session packets)
      { session with outbound := outbound, outboundSentLast := sentLast } := by
  unfold TftpCore.sendForTransfer
  split
  · exact ⟨session.outbound, session.outboundSentLast, underway⟩
  · have after : Underway peer start (core.putSession peer (session.recordOutbound env.now packets))
        (session.recordOutbound env.now packets) := underway.put ⟨rfl, rfl⟩
    exact ⟨_, _, after.sendRaw _ _⟩

end

theorem kept (underway : Underway peer start core session) (live : session.Live) : Does env packet peer start core := by
  obtain ⟨first, held, same⟩ := underway.held
  obtain ⟨quiet, effects, rest⟩ := underway.effects
  refine ⟨quiet, effects, underway.admission, ?_⟩
  rw [underway.books]
  exact .kept held same live rest

theorem take (underway : Underway peer start core session) :
    ∃ closed, core.take peer = some (closed, infoOf session, start.writePaths.get? peer) ∧
      closed.books = start.books.close peer ∧ closed.effects = core.effects ∧
        closed.admission = core.admission := by
  have paths : core.writePaths = start.writePaths := congrArg Books.writePaths underway.books
  have handles : core.writeHandles = start.writeHandles := congrArg Books.writeHandles underway.books
  have completed : core.completedWrites = start.completedWrites := congrArg Books.completedWrites underway.books
  have files : core.files = start.files := congrArg Books.files underway.books
  unfold TftpCore.take
  rw [underway.get?]
  rw [paths]
  refine ⟨_, rfl, ?_, rfl, rfl⟩
  unfold Books.close TftpCore.books
  rw [underway.transfers, SeqMap.erase_set, handles, completed, files]

theorem discard (env : Env) {closed : TftpCore} (direction : Direction) (path : Option Path)
    (upload : path.isSome = true → direction = .write) (books : closed.books = start.books.close peer) :
    (closed.discard env direction path).books = start.books.fail env peer path ∧
      (closed.discard env direction path).effects = closed.effects ++ removal env path ∧
      (closed.discard env direction path).admission = closed.admission := by
  unfold TftpCore.discard
  cases path with
  | none =>
    rw [removal, List.append_nil]
    split <;> exact ⟨books, rfl, rfl⟩
  | some path =>
    rw [if_pos (upload rfl)]
    refine ⟨?_, rfl, rfl⟩
    have files : closed.files = start.files := congrArg Books.files books
    show { closed.books with files := if env.removes path then closed.files.filter (· ≠ path) else closed.files } = _
    rw [books, files]
    rfl

section

variable (underway : Underway peer start core session)
include underway

theorem finishError_outcome (upload : (start.writePaths.get? peer).isSome = true → session.direction = .write)
    (env : Env) (reason : String) (code : Option String) : ∃ quiet, Quiet quiet ∧
      (core.finishError env peer reason code).effects = start.effects ++ (quiet ++
        removal env (start.writePaths.get? peer) ++ [.emit (.transferError (infoOf session) reason code)]) ∧
      (core.finishError env peer reason code).books = start.books.fail env peer (start.writePaths.get? peer) ∧
      (core.finishError env peer reason code).admission = start.admission := by
  obtain ⟨quiet, effects, rest⟩ := underway.effects
  obtain ⟨closed, taken, books, still, admission⟩ := underway.take
  obtain ⟨after, outcome, steady⟩ :=
    discard env (infoOf session).direction (start.writePaths.get? peer) upload books
  unfold TftpCore.finishError
  rw [taken]
  refine ⟨quiet, rest, ?_, after, steady.trans (admission.trans underway.admission)⟩
  show (closed.discard _ _ _).effects ++ _ = _
  rw [outcome, still, effects, List.append_assoc, List.append_assoc, List.append_assoc]

theorem finishError (booked : Booked start.books) (reason : String) (code : Option String) :
    Does env packet peer start (core.finishError env peer reason code) := by
  obtain ⟨first, held, same⟩ := underway.held
  have upload : (start.writePaths.get? peer).isSome = true → session.direction = .write := by
    intro present
    obtain ⟨other, hit, write⟩ := (booked.paths peer).mp present
    rw [show start.books.transfers.get? peer = some first from held] at hit
    rw [same.direction, Option.some.inj hit]
    exact write
  obtain ⟨quiet, rest, effects, books, admission⟩ := underway.finishError_outcome upload env reason code
  refine ⟨_, effects, admission, ?_⟩
  rw [books]
  exact .failed held same rest

theorem finishDone (done : session.phase = .done)
    (last : ∀ first, start.transfers.get? peer = some first → first.direction = .write →
      FinishedBy env packet first session) : Does env packet peer start (core.finishDone env peer) := by
  obtain ⟨first, held, same⟩ := underway.held
  obtain ⟨quiet, effects, rest⟩ := underway.effects
  obtain ⟨closed, taken, books, still, admission⟩ := underway.take
  have completed : closed.completedWrites = start.completedWrites := congrArg Books.completedWrites books
  have limit : closed.admission.max = start.admission.max := by rw [admission, underway.admission]
  unfold TftpCore.finishDone
  rw [taken, underway.get?]
  dsimp only [Option.bind_some]
  have target : Transition env start.admission.max packet peer start.books
      (start.books.complete env start.admission.max peer session)
      (quiet ++ [.emit (.transferComplete (infoOf session))]) := .completed held same (last first held) done rest
  have whole : closed.effects ++ [.emit (.transferComplete (infoOf session))] =
      start.effects ++ (quiet ++ [.emit (.transferComplete (infoOf session))]) := by
    rw [still, effects, List.append_assoc]
  by_cases write : session.direction = .write
  · rw [if_pos write]
    refine ⟨_, whole, admission.trans underway.admission, ?_⟩
    rw [Books.complete, if_pos write] at target
    have res : (closed.rememberCompletedWrite env peer (TftpCore.completedWrite env session)).books =
        { start.books.close peer with
          completedWrites := Books.remembered env start.admission.max peer (TftpCore.completedWrite env session)
            start.books.completedWrites } := by
      show ({ closed.books with
        completedWrites := Books.remembered env closed.admission.max peer (TftpCore.completedWrite env session)
          closed.completedWrites } : Books) = _
      rw [books, completed, limit]
      rfl
    rw [← res] at target
    exact target
  · rw [if_neg write]
    refine ⟨_, whole, admission.trans underway.admission, ?_⟩
    rw [Books.complete, if_neg write, ← books] at target
    exact target

theorem finishError_absent (env : Env) (reason : String) (code : Option String) :
    (core.finishError env peer reason code).transfers.get? peer = none := by
  obtain ⟨closed, taken, books, -, -⟩ := underway.take
  have closing : closed.transfers.get? peer = none := by
    rw [show closed.transfers = start.transfers.erase peer from congrArg Books.transfers books,
      SeqMap.get?_erase, if_pos rfl]
  unfold TftpCore.finishError TftpCore.discard
  rw [taken]
  dsimp only
  repeat' split
  all_goals exact closing

theorem produceMore (env : Env) (live : session.Live) (read : session.direction = .read) :
    (∃ next, Underway peer start (core.produceMore env peer session) next ∧ next.Live) ∨
      ∃ middle next reason code, Underway peer start middle next ∧
        core.produceMore env peer session = middle.finishError env peer reason code := by
  obtain ⟨same, after⟩ := live.produceNextSendPackets read (env.readFullAt session.absPath)
  unfold TftpCore.produceMore
  generalize session.produceNextSendPackets (env.readFullAt session.absPath) = produced at same after ⊢
  obtain ⟨produced, error | packets⟩ := produced
  · exact .inr ⟨_, _, _, _, (underway.put same).sendRaw _ _, rfl⟩
  · dsimp only
    split
    · exact .inl ⟨produced, underway.put same, after⟩
    · obtain ⟨outbound, sentLast, sent⟩ := (underway.put same).sendForTransfer env packets
      exact .inl ⟨_, sent.progress _, after.phase, after.error⟩

end

end Underway

section Live

variable {env : Env} {packet : Option Packet} {peer : SocketAddr} {core : TftpCore} {session : TransferSession}

section

variable (booked : Booked core.books)
include booked

theorem onAck_does (held : core.transfers.get? peer = some session) (block : UInt16) :
    Does env packet peer core (core.onAck env peer block) := by
  have live := booked.live peer session held
  have same := session.handleAck_continues env.now block
  have put := (Underway.begin held).put same
  unfold TftpCore.onAck
  rw [held]
  rcases live.handleAck env.now block with ⟨after, undone, more⟩ | ⟨read, done, -, outcome⟩
  · dsimp only
    rw [undone]
    have kept : ∀ {res : TftpCore} {next : TransferSession}, Underway peer core res next → next.Live →
        Does env packet peer core
          (if (false || (res.transfers.get? peer).any fun session => session.phase == .done) = true
          then res.finishDone env peer else res) := by
      intro res next underway live
      have open_ : ¬ (false || (res.transfers.get? peer).any fun session => session.phase == .done) = true := by
        rw [underway.get?]
        simpa using live.not_done
      rw [if_neg open_]
      exact underway.kept live
    by_cases produce : (session.handleAck env.now block).2.produceMore = true
    · rw [if_pos produce]
      obtain ⟨read, -⟩ := more produce
      rcases put.produceMore env after (same.direction.trans read) with
        ⟨next, underway, live⟩ | ⟨middle, next, reason, code, underway, res⟩
      · exact kept underway live
      · rw [res, underway.finishError_absent]
        exact underway.finishError booked reason code
    · rw [if_neg produce]
      exact kept put after
  · dsimp only
    rw [outcome]
    refine put.finishDone done ?_
    intro first hit write
    rw [held] at hit
    rw [← Option.some.inj hit, read] at write
    cases write

theorem answerData_does {first : TransferSession} (held : core.transfers.get? peer = some first) {middle : TftpCore}
    (underway : Underway peer core middle session) (outcome : DataOutcome) (phase : session.Live ∨
      session.phase = .done ∧ session.error = none ∧
        (first.direction = .write → FinishedBy env packet first session) ∨
      session.phase = .error ∧ session.error ≠ none) :
    Does env packet peer core (middle.answerData env peer session outcome) := by
  unfold TftpCore.answerData
  have reported : Underway peer core
      (if outcome.write.isSome then middle.emit (.transferProgress (infoOf session)) else middle) session := by
    split
    · exact underway.progress _
    · exact underway
  obtain ⟨outbound, sentLast, sent⟩ := reported.sendForTransfer env outcome.send
  rcases phase with live | ⟨done, clean, last⟩ | ⟨failed, msg⟩
  · rw [live.not_terminal]
    exact sent.kept ⟨live.phase, live.error⟩
  · rw [done, clean]
    refine sent.finishDone done fun other hit write => ?_
    rw [held] at hit
    cases hit
    exact ⟨(last write).packet⟩
  · obtain ⟨failure, shape⟩ := Option.ne_none_iff_exists'.mp msg
    rw [failed, shape]
    exact sent.finishError booked _ _

theorem onData_does (held : core.transfers.get? peer = some session) {block : UInt16} {data : Bytes}
    (carried : packet = some (.data block data)) : Does env packet peer core (core.onData env peer block data) := by
  have live := booked.live peer session held
  unfold TftpCore.onData
  rw [held]
  dsimp only
  cases direction : session.direction with
  | read =>
    rw [live.handleData_read direction]
    exact answerData_does booked held ((Underway.begin held).put (.refl session)) {} (.inl live)
  | write =>
    obtain ⟨same, outcome⟩ := live.handleData_write direction env.now block data
    have put := (Underway.begin held).put same
    have last : (session.handleData env.now block data).1.phase = .done →
        FinishedBy env packet session (session.handleData env.now block data).1 :=
      fun done => ⟨block, data, carried, done, rfl, rfl⟩
    have answered (payload : DataOutcome) : Does env packet peer core
        ((core.putSession peer (session.handleData env.now block data).1).answerData env peer
          (session.handleData env.now block data).1 payload) := by
      refine answerData_does booked held put payload ?_
      rcases outcome with live | ⟨done, clean⟩ | ⟨failed, msg, -⟩
      · exact .inl live
      · exact .inr (.inl ⟨done, clean, fun _ => last done⟩)
      · exact .inr (.inr ⟨failed, msg⟩)
    split
    · rename_i payload _
      unfold TftpCore.appendWrite
      cases (core.putSession peer (session.handleData env.now block data).1).writeHandles.get? peer with
      | none => exact answered _
      | some handle =>
        dsimp only
        cases env.writeAll handle payload with
        | ok => exact answered _
        | error error => exact (put.sendRaw _ _).finishError booked _ _
    · exact answered _

theorem routeExisting_does (held : core.transfers.get? peer = some session) {msg : Bytes}
    (carried : packet = (parsePacket env.lossy msg).toOption.join) :
    Does env packet peer core (core.routeExisting env msg peer) := by
  have live := booked.live peer session held
  have underway := Underway.begin held
  unfold TftpCore.routeExisting
  cases parsed : parsePacket env.lossy msg with
  | error message => exact (underway.sendRaw _ _).finishError booked _ _
  | ok parsedPacket =>
    rw [parsed] at carried
    cases parsedPacket with
    | none => exact underway.kept live
    | some parsedPacket =>
      cases parsedPacket with
      | ack block => exact onAck_does booked held block
      | data block data => exact onData_does booked held carried
      | error code message => exact underway.finishError booked _ _
      | rrq | wrq | oack => exact underway.kept live

theorem cancelTransfer_does (env : Env) (transferId : Text) : (core.cancelTransfer env transferId).1 = core ∨
      ∃ peer, Does env none peer core (core.cancelTransfer env transferId).1 := by
  unfold TftpCore.cancelTransfer
  cases (env.order core.transfers.keys).find? fun peer => peer.toText == transferId with
  | none => exact .inl rfl
  | some peer =>
    cases held : core.transfers.get? peer with
    | none =>
      dsimp only
      rw [held]
      exact .inl rfl
    | some session =>
      dsimp only
      rw [held]
      refine .inr ⟨peer, ?_⟩
      have put : Underway peer core (core.putSession peer (session.setError .notDefined TftpCore.cancelReason))
          (session.setError .notDefined TftpCore.cancelReason) := (Underway.begin held).put ⟨rfl, rfl⟩
      exact (put.sendRaw _ _).finishError booked _ _

theorem tickPeer_does (env : Env) (held : core.transfers.get? peer = some session) :
    Does env none peer core (TftpCore.tickPeer env core peer) := by
  have live := booked.live peer session held
  have underway := Underway.begin held
  unfold TftpCore.tickPeer
  rw [held]
  dsimp only
  rw [if_neg live.not_done]
  have ended {middle : TftpCore} {next : TransferSession} (underway : Underway peer core middle next)
    (live : next.Live) :
      Does env none peer core (if next.isTimedOut env.now then
        middle.finishError env peer "Transfer timed out with no response from the client" (some "Timeout")
        else middle) := by
    split
    · exact underway.finishError booked _ _
    · exact underway.kept live
  obtain ⟨same, after⟩ := live.consumeRetransmission env.now
  split_ifs with due
  · generalize session.consumeRetransmission env.now = retransmission at same after ⊢
    obtain ⟨next, packets⟩ := retransmission
    cases packets with
    | none => exact (underway.put same).finishError booked _ _
    | some packets =>
      have live : next.Live := after.resolve_right nofun
      exact ended ((underway.put same).sendRaw peer packets) live
  · exact ended underway live

end

end Live

section New

variable {env : Env} {packet : Option Packet} {peer : SocketAddr} {core : TftpCore}

theorem packetBlock_encodeError (code : ErrorCode) (msg : Option String) :
    TransferSession.packetBlock (encodeError code msg) = none := rfl

theorem refused_does (absent : core.transfers.get? peer = none) {answer : Bytes}
    (refusal : TransferSession.packetBlock answer = none) :
    Does env packet peer core (core.sendRaw peer [answer]) := by
  refine ⟨_, rfl, rfl, .refused absent ?_⟩
  intro effect mem
  rw [List.map_singleton, List.mem_singleton] at mem
  exact ⟨answer, mem, refusal⟩

theorem ignored_does (absent : core.transfers.get? peer = none) : Does env packet peer core core :=
  ⟨[], (List.append_nil _).symm, rfl, .refused absent nofun⟩

def TftpCore.withFile (core : TftpCore) (peer : SocketAddr) : Option Path → TftpCore
  | none => core
  | some path =>
    { core with
      writeHandles := core.writeHandles.set peer path
      writePaths := core.writePaths.set peer path
      files := path :: core.files }

theorem register_does (booked : Booked core.books) (asked : Asked packet) (absent : core.transfers.get? peer = none)
    (room : core.transfers.keys.length < core.admission.max) {session : TransferSession} (own : session.peer = peer)
    (live : session.Live) {path : Option Path} (upload : session.direction = .write ↔ path.isSome = true)
    (new : ∀ file, path = some file → file ∉ core.files) (initial : List Bytes) :
    Does env packet peer core ((core.withFile peer path).register env peer session initial) := by
  unfold TftpCore.register
  dsimp only
  have opening : ∃ opened, opened = ((core.withFile peer path).putSession peer session).emit
      (.transferStart (infoOf session)) ∧
    opened.books = core.books.register peer session path ∧
    opened.effects = core.effects ++ [.emit (.transferStart (infoOf session))] ∧
    opened.admission = core.admission := by
    refine ⟨_, rfl, ?_, ?_, ?_⟩ <;> cases path <;> rfl
  obtain ⟨opened, shape, books, effects, admission⟩ := opening
  rw [← shape]
  have transfers : opened.transfers = core.transfers.set peer session := by
    rw [show opened.transfers = opened.books.transfers from rfl, books]
    cases path <;> rfl
  have held : opened.transfers.get? peer = some session := by
    rw [transfers, SeqMap.get?_set, if_pos rfl]
  have named : (infoOf session).id = peer.toText := congrArg SocketAddr.toText own
  have begun {result : TftpCore} {next : TransferSession} (underway : Underway peer opened result next)
      (live : next.Live) : Does env packet peer core result := by
    obtain ⟨first, hit, same⟩ := underway.held
    obtain ⟨quiet, more, rest⟩ := underway.effects
    rw [held] at hit
    cases hit
    have target : Transition env core.admission.max packet peer core.books (core.books.register peer next path)
        (.emit (.transferStart (infoOf session)) :: quiet) :=
      .started asked absent room (same.peer.trans own) live (by rw [same.direction]; exact upload) new named rest
    have registered : result.books = core.books.register peer next path := by
      rw [underway.books, books, transfers, SeqMap.set_set]
      cases path <;> rfl
    rw [← registered] at target
    refine ⟨_, ?_, underway.admission.trans admission, target⟩
    rw [more, effects, List.append_assoc]
    rfl
  obtain ⟨outbound, sentLast, sent⟩ := (Underway.begin held).sendForTransfer env initial
  rw [sent.get?, Option.getD_some]
  split
  · rename_i reading
    rcases sent.produceMore env ⟨live.phase, live.error⟩ reading.1 with
      ⟨next, underway, live⟩ | ⟨middle, next, reason, code, underway, result⟩
    · exact begun underway live
    · have download : path = none := by
        rw [← Option.not_isSome_iff_eq_none, ← upload]
        intro write
        rw [show session.direction = .read from reading.1] at write
        cases write
      subst download
      obtain ⟨noHandle, noPath⟩ := booked.absent absent
      have openedPath : opened.writePaths.get? peer = none := by
        rw [show opened.writePaths = opened.books.writePaths from rfl, books]
        exact noPath
      obtain ⟨quiet, rest, more, closed, steady⟩ :=
        underway.finishError_outcome (by rw [openedPath]; exact nofun) env reason code
      have restored : (middle.finishError env peer reason code).books = core.books := by
        rw [closed, openedPath, books]
        show ({ core.books with
          transfers := (core.transfers.set peer session).erase peer
          writeHandles := core.books.writeHandles.erase peer
          writePaths := core.books.writePaths.erase peer } : Books) = core.books
        rw [SeqMap.erase_set, SeqMap.erase_absent absent, SeqMap.erase_absent noHandle,
          SeqMap.erase_absent noPath]
        rfl
      have target : Transition env core.admission.max packet peer core.books core.books
          (.emit (.transferStart (infoOf session)) :: quiet ++ [.emit (.transferError (infoOf next) reason code)]) :=
        .broken asked absent named rest
      rw [result]
      refine ⟨.emit (.transferStart (infoOf session)) :: quiet ++ [.emit (.transferError (infoOf next) reason code)],
        ?_, steady.trans admission, by rw [restored]; exact target⟩
      rw [more, effects, openedPath, removal, List.append_nil, List.append_assoc]
      rfl
  · exact begun sent ⟨live.phase, live.error⟩

theorem new_open {init : TransferInit} {now : Nat} (open_ : (TransferSession.new init now).phase ≠ .error)
    (fileSize : Nat) :
    (init.direction = .read → (((TransferSession.new init now).initForRead fileSize).1.Live ∧
        (TransferSession.new init now).Continues ((TransferSession.new init now).initForRead fileSize).1)) ∧
      (init.direction = .write → (((TransferSession.new init now).initForWrite).1.Live ∧
        (TransferSession.new init now).Continues ((TransferSession.new init now).initForWrite).1)) := by
  have clean := TransferSession.new_clean open_
  have direction := new_direction init now
  constructor
  · intro read
    obtain ⟨same, live⟩ := TransferSession.initForRead_live (direction.trans read) clean fileSize
    exact ⟨live, same⟩
  · intro write
    obtain ⟨same, live⟩ := TransferSession.initForWrite_live (direction.trans write) clean
    exact ⟨live, same⟩

theorem admitRequest_does (booked : Booked core.books) (asked : Asked packet) (absent : core.transfers.get? peer = none)
    (room : core.transfers.keys.length < core.admission.max) (direction : Direction) (req : Request) :
    Does env packet peer core (core.admitRequest env direction req peer) := by
  unfold TftpCore.admitRequest
  cases direction with
  | read =>
    unfold TftpCore.resolve
    cases env.statFile req.filename with
    | error error => exact refused_does absent (packetBlock_encodeError _ _)
    | ok stat =>
      dsimp only
      split
      · exact refused_does absent (packetBlock_errorPacket _)
      · rename_i open_
        obtain ⟨live, same⟩ := (new_open open_ stat.size).1 rfl
        have own := same.peer.trans (new_peer _ _)
        have read := same.direction.trans (new_direction _ _)
        have download : (((TransferSession.new
            { peer := peer, direction := .read, filename := req.filename, absPath := stat.absPath
              rawOptions := req.options } env.now).initForRead stat.size).1.direction = .write ↔
            (none : Option Path).isSome = true) := by
          rw [read]
          exact ⟨nofun, nofun⟩
        exact register_does booked asked absent room own live download nofun _
  | write =>
    unfold TftpCore.resolve
    dsimp only
    split
    · rename_i refused
      split at refused
      · cases refused
        exact refused_does absent (packetBlock_encodeError _ _)
      · split at refused
        · cases refused
        · cases refused
          exact refused_does absent (packetBlock_encodeError _ _)
    · rename_i absPath fileSize _
      split
      · exact refused_does absent (packetBlock_errorPacket _)
      · rename_i open_
        obtain ⟨live, same⟩ := (new_open open_ 0).2 rfl
        have own := same.peer.trans (new_peer _ _)
        have write := same.direction.trans (new_direction _ _)
        have upload : (((TransferSession.new
            { peer := peer, direction := .write, filename := req.filename, absPath := absPath
              rawOptions := req.options } env.now).initForWrite).1.direction = .write ↔
            (some absPath).isSome = true) := by
          rw [write]
          exact ⟨fun _ => rfl, fun _ => rfl⟩
        unfold TftpCore.createNew
        by_cases taken : absPath ∈ core.files
        · rw [if_pos taken]
          exact refused_does absent (packetBlock_encodeError _ _)
        · rw [if_neg taken]
          cases env.createNew absPath with
          | error error => exact refused_does absent (packetBlock_encodeError _ _)
          | ok =>
            have new : ∀ file, some absPath = some file → file ∉ core.files := by
              intro file same
              rwa [← Option.some.inj same]
            exact register_does booked asked absent room own live upload new _

theorem handleNewRequest_does (booked : Booked core.books) (absent : core.transfers.get? peer = none)
    {msg : Bytes} (carried : packet = (parsePacket env.lossy msg).toOption.join) :
      Does env packet peer core (core.handleNewRequest env msg peer) := by
  unfold TftpCore.handleNewRequest
  dsimp only
  split
  · exact ignored_does absent
  · exact refused_does absent (packetBlock_encodeError _ _)
  · rename_i direction req res
    have asked : Asked packet := by
      rw [carried]
      split at res
      · rename_i asked parsed
        rw [parsed]
        exact ⟨asked, .inl rfl⟩
      · rename_i asked parsed
        rw [parsed]
        exact ⟨asked, .inr rfl⟩
      all_goals cases res
    unfold Admission.tryReserve
    by_cases full : core.transfers.keys.length + core.admission.reserved ≥ core.admission.max
    · rw [if_pos full]
      exact refused_does absent (packetBlock_encodeError _ _)
    · rw [if_neg full]
      have room : core.transfers.keys.length < core.admission.max := by omega
      have slot (held : TftpCore)
          (shape : held = { core with admission := { core.admission with reserved := core.admission.reserved + 1 } }) :
          Does env packet peer held (held.admitRequest env direction req peer) := by
        have still : Booked held.books := by rw [shape]; exact booked
        have alone : held.transfers.get? peer = none := by rw [shape]; exact absent
        have free : held.transfers.keys.length < held.admission.max := by rw [shape]; exact room
        exact admitRequest_does still asked alone free direction req
      obtain ⟨effects, more, admission, transition⟩ := slot _ rfl
      refine ⟨effects, more, ?_, transition⟩
      show Admission.release (TftpCore.admission _) = _
      rw [admission]
      rfl

structure Purged (env : Env) (books next : Books) : Prop where
  others : next = { books with completedWrites := next.completedWrites }
  records : ∀ peer, next.completedWrites.get? peer = books.completedWrites.get? peer ∨
    next.completedWrites.get? peer = none ∧
      ∃ completed, books.completedWrites.get? peer = some completed ∧ completed.expiresAt ≤ env.now
  fewer : next.completedWrites.keys.length ≤ books.completedWrites.keys.length

theorem Purged.refl (env : Env) (books : Books) : Purged env books books := ⟨rfl, fun _ => .inl rfl, le_rfl⟩

theorem handleMessage_does_absent (booked : Booked core.books) (absent : core.transfers.get? peer = none)
    {msg : Bytes} (carried : packet = (parsePacket env.lossy msg).toOption.join) :
    ∃ purged, Purged env core.books purged.books ∧ purged.effects = core.effects ∧
      purged.admission = core.admission ∧ Does env packet peer purged (core.handleMessage env msg peer) := by
  unfold TftpCore.handleMessage
  cases peekOpcode msg with
  | none => exact ⟨core, .refl env core.books, rfl, rfl, ignored_does absent⟩
  | some rawOpcode =>
    dsimp only
    have alone : core.transfers.has peer = false := by rw [SeqMap.has, absent]; rfl
    rw [alone, if_neg Bool.false_ne_true]
    have requested {purged after : TftpCore} (booked : Booked purged.books)
        (absent : purged.transfers.get? peer = none) (does : after = purged.handleNewRequest env msg peer ∨
          after = purged.sendRaw peer [encodeError .unknownTransferId (some "No active transfer")]) :
        Does env packet peer purged after := by
      obtain rfl | rfl := does
      · exact handleNewRequest_does booked absent carried
      · exact refused_does absent (packetBlock_encodeError _ _)
    unfold TftpCore.reackCompletedWrite
    cases held : core.completedWrites.get? peer with
    | none => exact ⟨core, .refl env core.books, rfl, rfl, requested booked absent (by dsimp only; split <;> simp)⟩
    | some completed =>
      dsimp only
      by_cases stale : completed.expiresAt ≤ env.now
      · rw [if_pos stale]
        refine ⟨{ core with completedWrites := core.completedWrites.erase peer }, ?_, rfl, rfl,
          requested ?_ absent (by dsimp only; split <;> simp)⟩
        · refine ⟨rfl, fun other => ?_, ?_⟩
          · by_cases own : peer = other
            · subst own
              refine .inr ⟨?_, completed, held, stale⟩
              show (core.completedWrites.erase peer).get? peer = none
              rw [SeqMap.get?_erase, if_pos rfl]
            · refine .inl ?_
              show (core.completedWrites.erase peer).get? other = core.completedWrites.get? other
              rw [SeqMap.get?_erase, if_neg own]
          · show (core.completedWrites.erase peer).keys.length ≤ core.completedWrites.keys.length
            rw [SeqMap.keys_erase]
            exact List.length_filter_le _ _
        · exact { booked with }
      · rw [if_neg stale]
        refine ⟨core, .refl env core.books, rfl, rfl, ?_⟩
        split
        · rename_i answered
          split at answered
          · rename_i block data parsed
            split at answered
            · cases answered
            · rename_i covers
              cases answered
              have data : packet = some (.data block data) := by
                rw [carried, parsed]
                rfl
              exact ⟨[.send peer completed.ack], rfl, rfl,
                .reacked data absent held (Nat.not_le.mp stale) (by simpa using covers)⟩
          · cases answered
        · rename_i passed
          split at passed
          · split at passed
            · cases passed
              exact requested booked absent (by split <;> simp)
            · cases passed
          · cases passed
            exact requested booked absent (by split <;> simp)

theorem handleMessage_does (booked : Booked core.books) (env : Env) {msg : Bytes}
    (carried : packet = (parsePacket env.lossy msg).toOption.join) (peer : SocketAddr) :
    ∃ purged, Purged env core.books purged.books ∧ purged.effects = core.effects ∧
      purged.admission = core.admission ∧ Does env packet peer purged (core.handleMessage env msg peer) := by
  cases held : core.transfers.get? peer with
  | none => exact handleMessage_does_absent booked held carried
  | some session =>
    refine ⟨core, .refl env core.books, rfl, rfl, ?_⟩
    have live := booked.live peer session held
    have known : core.transfers.has peer = true := by rw [SeqMap.has, held]; rfl
    unfold TftpCore.handleMessage
    cases peekOpcode msg with
    | none => exact (Underway.begin held).kept live
    | some rawOpcode =>
      dsimp only
      rw [known, if_pos rfl]
      exact routeExisting_does booked held carried

end New

inductive Input
  | message (env : Env) (msg : Bytes) (peer : SocketAddr)
  | tick (env : Env)
  | cancel (env : Env) (transferId : Text)

namespace Input

def env : Input → Env
  | .message env _ _ => env
  | .tick env => env
  | .cancel env _ => env

def now (input : Input) : Nat := input.env.now

def packet : Input → Option Packet
  | .message env msg _ => (parsePacket env.lossy msg).toOption.join
  | .tick _ | .cancel _ _ => none

end Input

def TftpCore.step (core : TftpCore) (input : Input) : TftpCore × List Effect :=
  let core := { core with effects := [] }
  let core := match input with
    | .message env msg peer => core.handleMessage env msg peer
    | .tick env => core.tick env
    | .cancel env transferId => (core.cancelTransfer env transferId).1
  (core, core.effects)

def service : TimedSystem TftpCore Input Effect where
  step := TftpCore.step
  clock := Input.now

inductive Transitions (env : Env) (limit : Nat) (packet : Option Packet) : Books → Books → List Effect → Prop
  | done (books : Books) : Transitions env limit packet books books []
  | next {books middle last : Books} {first rest : List Effect} {peer : SocketAddr}
      (transition : Transition env limit packet peer books middle first)
      (later : Transitions env limit packet middle last rest) :
      Transitions env limit packet books last (first ++ rest)

section Calls

variable {env : Env} {limit : Nat} {packet : Option Packet} {peer : SocketAddr} {books next : Books}
  {effects : List Effect}

theorem Transitions.one (transition : Transition env limit packet peer books next effects) :
    Transitions env limit packet books next effects := by
  have chain := Transitions.next transition (.done next)
  rwa [List.append_nil] at chain

theorem Purged.booked (purged : Purged env books next) (booked : Booked books) : Booked next := by
  rw [purged.others]
  exact { booked with }

variable {core : TftpCore}

theorem step_message (booked : Booked core.books) (env : Env) (msg : Bytes) (peer : SocketAddr) :
    (core.step (.message env msg peer)).1.admission = core.admission ∧
      ∃ purged, Purged env core.books purged ∧
        Transition env core.admission.max (Input.message env msg peer).packet peer purged
          (core.step (.message env msg peer)).1.books (core.step (.message env msg peer)).2 := by
  have cleared : Booked ({ core with effects := [] } : TftpCore).books := booked
  obtain ⟨purged, records, pre, slot, effects, more, admission, transition⟩ :=
    handleMessage_does cleared env (show (Input.message env msg peer).packet = _ from rfl) peer
  refine ⟨admission.trans slot, purged.books, records, ?_⟩
  rw [pre, List.nil_append] at more
  rw [slot] at transition
  rw [← more] at transition
  exact transition

theorem tickPeers_does (booked : Booked core.books) (env : Env) (peers : List SocketAddr) :
    ∃ effects, (peers.foldl (TftpCore.tickPeer env) core).effects = core.effects ++ effects ∧
      (peers.foldl (TftpCore.tickPeer env) core).admission = core.admission ∧
      Transitions env core.admission.max none core.books (peers.foldl (TftpCore.tickPeer env) core).books effects := by
  induction peers generalizing core with
  | nil => exact ⟨[], (List.append_nil _).symm, rfl, .done _⟩
  | cons peer peers ih =>
    rw [List.foldl_cons]
    cases held : core.transfers.get? peer with
    | none =>
      have same : TftpCore.tickPeer env core peer = core := by rw [TftpCore.tickPeer, held]
      rw [same]
      exact ih booked
    | some session =>
      obtain ⟨first, more, slot, transition⟩ := tickPeer_does booked env held
      obtain ⟨rest, later, slots, chain⟩ := ih (transition.booked booked)
      refine ⟨first ++ rest, by rw [later, more, List.append_assoc], slots.trans slot, ?_⟩
      rw [slot] at chain
      exact .next transition chain

/-- Each input of the engine is a run of transitions of the books. -/
theorem step_transitions (booked : Booked core.books) (input : Input) :
    (core.step input).1.admission = core.admission ∧
      ∃ purged, Purged input.env core.books purged ∧
        Transitions input.env core.admission.max input.packet purged (core.step input).1.books (core.step input).2 := by
  have cleared : Booked ({ core with effects := [] } : TftpCore).books := booked
  cases input with
  | message env msg peer =>
    obtain ⟨slot, purged, records, transition⟩ := step_message booked env msg peer
    exact ⟨slot, purged, records, .one transition⟩
  | cancel env transferId =>
    rcases cancelTransfer_does cleared env transferId with same | ⟨peer, effects, more, slot, transition⟩
    · unfold TftpCore.step
      dsimp only
      rw [same]
      exact ⟨rfl, core.books, .refl env core.books, .done _⟩
    · refine ⟨slot, core.books, .refl env core.books, ?_⟩
      rw [List.nil_append] at more
      rw [← more] at transition
      exact .one transition
  | tick env =>
    have records : Purged env core.books { core.books with
        completedWrites := core.completedWrites.filterValues fun completed => completed.expiresAt > env.now } := by
      refine ⟨rfl, fun peer => ?_, SeqMap.length_keys_filterValues _ _⟩
      show (core.completedWrites.filterValues _).get? peer = core.completedWrites.get? peer ∨
        (core.completedWrites.filterValues _).get? peer = none ∧ _
      rw [SeqMap.get?_filterValues]
      cases held : core.completedWrites.get? peer with
      | none => exact .inl rfl
      | some completed =>
        by_cases fresh : completed.expiresAt > env.now
        · exact .inl (Option.filter_some_pos (by simpa using fresh))
        · exact .inr ⟨Option.filter_some_neg (by simpa using fresh), completed, held, Nat.not_lt.mp fresh⟩
    have still : Booked ({ core with
        effects := []
        completedWrites := core.completedWrites.filterValues fun completed => completed.expiresAt > env.now } :
          TftpCore).books := records.booked booked
    obtain ⟨effects, more, slot, chain⟩ := tickPeers_does still env (env.order core.transfers.keys)
    refine ⟨slot, _, records, ?_⟩
    rw [List.nil_append] at more
    rw [← more] at chain
    exact chain

end Calls

end NexTerminal.Tftp
