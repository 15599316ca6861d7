import NexTerminal.Tftp.Accounts

namespace NexTerminal.Tftp

open Dhcp (Text)
open Library

def Admits (event : Event TftpCore Input) (peer : SocketAddr) : Prop :=
  (∃ env msg, event.input = .message env msg peer) ∧ ∃ info, .emit (.transferStart info) ∈ service.outputs event

structure CompletesUpload (event : Event TftpCore Input) (peer : SocketAddr) (final : TransferSession) : Prop where
  upload : ∃ session, event.before.transfers.get? peer = some session ∧ session.direction = .write ∧
    FinishedBy event.input.env event.input.packet session final
  announced : ∃ info, .emit (.transferComplete info) ∈ service.outputs event
  sender : ∃ env msg, event.input = .message env msg peer

/-- The transfer of a peer ends, or does not get further than its start. -/
def Ends (event : Event TftpCore Input) (peer : SocketAddr) : Prop :=
  (service.after event).transfers.get? peer = none ∧ (event.before.transfers.get? peer ≠ none ∨ Admits event peer)

/-- A transfer that ends otherwise than as a completed upload finds no record of an earlier upload
of its peer that is still held. -/
def Lapsed (event : Event TftpCore Input) : Prop :=
  ∀ peer completed, Ends event peer → (¬ ∃ final, CompletesUpload event peer final) →
    event.before.completedWrites.get? peer = some completed → completed.expiresAt ≤ event.input.now

/-- The upload that a peer completed last, and after which it was admitted no more. -/
def LatestUpload (events : List (Event TftpCore Input)) (peer : SocketAddr) (final : TransferSession) : Prop :=
  ∃ first done rest, events = first ++ done :: rest ∧ CompletesUpload done peer final ∧
    ∀ event ∈ rest, ¬ Admits event peer

/-- DATA of a peer without a transfer, answered with an ACK. -/
structure Reacknowledged (event : Event TftpCore Input) (peer : SocketAddr) (block acked : UInt16) : Prop where
  sender : ∃ env msg, event.input = .message env msg peer
  packet : ∃ data, event.input.packet = some (.data block data)
  absent : event.before.transfers.get? peer = none
  answer : .send peer (encodeAck acked) ∈ service.outputs event

section Records

variable {env : Env} {limit : Nat} {packet : Option Packet} {peer other : SocketAddr} {books next : Books}
  {effects : List Effect} {completed : CompletedWrite}

theorem Purged.record (purged : Purged env books next) (held : next.completedWrites.get? peer = some completed) :
    books.completedWrites.get? peer = some completed := by
  rcases purged.records peer with same | ⟨gone, -⟩
  · rw [← same]
    exact held
  · rw [gone] at held
    cases held

theorem remembered_get? {held : SeqMap SocketAddr CompletedWrite} {mine : CompletedWrite}
    (hit : (Books.remembered env limit peer mine held).get? other = some completed) :
    other = peer ∧ completed = mine ∨ other ≠ peer ∧ held.get? other = some completed := by
  rcases get?_set_cases hit with new | ⟨differ, old⟩
  · exact .inl new
  · have kept := (evict_spec env limit peer _ _ le_rfl).2.2 other completed old
    rw [SeqMap.get?_filterValues, Option.filter_eq_some_iff] at kept
    exact .inr ⟨differ, kept.1⟩

theorem Transition.record (transition : Transition env limit packet peer books next effects)
    (held : next.completedWrites.get? other = some completed) :
    books.completedWrites.get? other = some completed ∨
      other = peer ∧ (∃ block data, packet = some (.data block data)) ∧
        (books.transfers.get? peer = none ∧
            (∃ pre, books.completedWrites.get? peer = some pre ∧ env.now < pre.expiresAt ∧
              completed = { pre with expiresAt := env.now + pre.dally }) ∨
          ∃ session final, books.transfers.get? peer = some session ∧ session.direction = .write ∧
            FinishedBy env packet session final ∧ completed = TftpCore.completedWrite env final ∧
            ∃ info, .emit (.transferComplete info) ∈ effects) := by
  cases transition with
  | refused | broken | kept => exact .inl held
  | @reacked pre block data carried absent there fresh covers =>
    rcases get?_set_cases held with ⟨own, rfl⟩ | ⟨-, old⟩
    · exact .inr ⟨own, ⟨block, data, carried⟩, .inl ⟨absent, pre, there, fresh, rfl⟩⟩
    · exact .inl old
  | @started session path info quiet asked absent room own live upload new named rest =>
    cases path <;> exact .inl held
  | @completed session final quiet there same last done rest =>
    unfold Books.complete at held
    split at held
    · rename_i write
      rcases remembered_get? held with ⟨own, rfl⟩ | ⟨-, old⟩
      · have wrote : session.direction = .write := same.direction.symm.trans write
        have finished := last wrote
        obtain ⟨block, data, carried, -⟩ := finished.packet
        exact .inr ⟨own, ⟨block, data, carried⟩,
          .inr ⟨session, final, there, wrote, finished, rfl, infoOf final,
          List.mem_append_right _ (List.mem_singleton_self _)⟩⟩
      · exact .inl old
    · exact .inl held
  | failed there same rest =>
    unfold Books.fail at held
    split at held <;> exact .inl held

theorem Transitions.record (chain : Transitions env limit none books next effects)
    (held : next.completedWrites.get? peer = some completed) : books.completedWrites.get? peer = some completed := by
  induction chain with
  | done => exact held
  | next transition later ih =>
    rcases transition.record (ih held) with old | ⟨-, ⟨block, data, carried⟩, -⟩
    · exact old
    · cases carried

theorem Quiet.no_event (quiet : Quiet effects) {event : EngineEvent} (loud : (Effect.emit event).isQuiet = false) :
    .emit event ∉ effects := by
  intro mem
  rw [quiet _ mem] at loud
  cases loud

section

variable (transition : Transition env limit packet peer books next effects)
include transition

theorem Transition.asked {info : TransferInfo} (start : .emit (.transferStart info) ∈ effects) : Asked packet := by
  cases transition with
  | refused absent refusals =>
    obtain ⟨answer, shape, -⟩ := refusals _ start
    cases shape
  | reacked => simp at start
  | started asked | broken asked => exact asked
  | kept held same live rest => exact absurd start (rest.no_event rfl)
  | completed held same last done rest =>
    rcases List.mem_append.mp start with listed | listed
    · exact absurd listed (rest.no_event rfl)
    · simp at listed
  | failed held same rest =>
    rcases List.mem_append.mp start with listed | listed
    · rcases List.mem_append.mp listed with listed | listed
      · exact absurd listed (rest.no_event rfl)
      · cases path : books.writePaths.get? peer <;> rw [path] at listed <;> simp [removal] at listed
    · simp at listed

theorem Transition.completes {session : TransferSession} (live : books.transfers.get? peer = some session)
    (write : session.direction = .write) {info : TransferInfo}
    (announced : .emit (.transferComplete info) ∈ effects) :
    ∃ final, FinishedBy env packet session final ∧
      next.completedWrites.get? peer = some (TftpCore.completedWrite env final) := by
  cases transition with
  | refused absent | reacked _ absent | started _ absent | broken _ absent =>
    rw [live] at absent
    cases absent
  | kept held same live rest => exact absurd announced (rest.no_event rfl)
  | @completed first final quiet held same last done rest =>
    rw [live] at held
    cases held
    refine ⟨final, last write, ?_⟩
    unfold Books.complete
    rw [if_pos (same.direction.trans write)]
    exact (SeqMap.get?_set _ _ _ _).trans (if_pos rfl)
  | failed held same rest =>
    rcases List.mem_append.mp announced with listed | listed
    · rcases List.mem_append.mp listed with listed | listed
      · exact absurd listed (rest.no_event rfl)
      · cases path : books.writePaths.get? peer <;> rw [path] at listed <;> simp [removal] at listed
    · simp at listed

theorem Transition.answered (absent : books.transfers.get? peer = none) (unasked : ¬ Asked packet) {acked : UInt16}
    (answer : .send peer (encodeAck acked) ∈ effects) : ∃ completed block data, packet = some (.data block data) ∧
      books.completedWrites.get? peer = some completed ∧ env.now < completed.expiresAt ∧
      completed.covers block = true ∧ completed.ack = encodeAck acked := by
  cases transition with
  | refused _ refusals =>
    obtain ⟨refusal, shape, unnumbered⟩ := refusals _ answer
    cases shape
    cases unnumbered
  | @reacked completed block data carried _ held fresh covers =>
    have same := List.mem_singleton.mp answer
    rw [Effect.send.injEq] at same
    exact ⟨completed, block, data, carried, held, fresh, covers, same.2.symm⟩
  | started asked | broken asked => exact absurd asked unasked
  | kept held | completed held | failed held =>
    rw [absent] at held
    cases held

end

end Records

/-- A record of a peer without a transfer is that of its latest upload. -/
def Current (events : List (Event TftpCore Input)) (state : TftpCore) (time : Nat) : Prop :=
  ∀ peer completed, state.completedWrites.get? peer = some completed → time < completed.expiresAt →
    state.transfers.get? peer = none →
    ∃ final, LatestUpload events peer final ∧ completed.windowStart = final.ackedWindowStart ∧
      completed.finalBlock = final.lastAcked ∧ completed.ack = encodeAck final.lastAcked

section Runs

variable {events : List (Event TftpCore Input)} {event : Event TftpCore Input} {peer : SocketAddr}
  {final : TransferSession} {time : Nat}

theorem LatestUpload.next (latest : LatestUpload events peer final) (other : ¬ Admits event peer) :
    LatestUpload (events ++ [event]) peer final := by
  obtain ⟨first, done, rest, rfl, completes, silent⟩ := latest
  refine ⟨first, done, rest ++ [event], by rw [List.append_assoc, List.cons_append], completes,
    fun next listed => ?_⟩
  rcases List.mem_append.mp listed with listed | listed
  · exact silent next listed
  · rw [List.mem_singleton.mp listed]
    exact other

theorem CompletesUpload.latest (completes : CompletesUpload event peer final) :
    LatestUpload (events ++ [event]) peer final := ⟨events, event, [], rfl, completes, nofun⟩

theorem Current.unchanged (current : Current events event.before time) (later : time ≤ event.input.now)
    (lapsed : Lapsed event) {completed : CompletedWrite}
    (held : event.before.completedWrites.get? peer = some completed) (fresh : event.input.now < completed.expiresAt)
    (absent : (service.after event).transfers.get? peer = none)
    (incomplete : ¬ ∃ final, CompletesUpload event peer final) :
    ∃ final, LatestUpload (events ++ [event]) peer final ∧ completed.windowStart = final.ackedWindowStart ∧
      completed.finalBlock = final.lastAcked ∧ completed.ack = encodeAck final.lastAcked := by
  have unended : ¬ Ends event peer := fun ends =>
    absurd (lapsed peer completed ends incomplete held) (Nat.not_le.mpr fresh)
  have pre : event.before.transfers.get? peer = none := by
    by_contra live
    exact unended ⟨absent, .inl live⟩
  have unadmitted : ¬ Admits event peer := fun admits => unended ⟨absent, .inr admits⟩
  obtain ⟨final, latest, window⟩ := current peer completed held (later.trans_lt fresh) pre
  exact ⟨final, latest.next unadmitted, window⟩

theorem Current.step (kept : Kept event.before.admission.max event.before.books)
    (current : Current events event.before time) (later : time ≤ event.input.now) (lapsed : Lapsed event) :
    Current (events ++ [event]) (service.after event) event.input.now := by
  intro peer completed held fresh absent
  obtain ⟨pre, input⟩ := event
  have booked := kept.toBooked
  cases input with
  | tick env =>
    obtain ⟨-, purged, records, chain⟩ := step_transitions booked (.tick env)
    have old := records.record (chain.record held)
    exact current.unchanged later lapsed old fresh absent fun ⟨_, completes⟩ =>
      nomatch completes.sender.choose_spec.choose_spec
  | cancel env transferId =>
    obtain ⟨-, purged, records, chain⟩ := step_transitions booked (.cancel env transferId)
    have old := records.record (chain.record held)
    exact current.unchanged later lapsed old fresh absent fun ⟨_, completes⟩ =>
      nomatch completes.sender.choose_spec.choose_spec
  | message env msg sender =>
    obtain ⟨-, purged, records, transition⟩ := step_message booked env msg sender
    have transfers : purged.transfers = pre.transfers := congrArg Books.transfers records.others
    by_cases complete : ∃ final, CompletesUpload ⟨pre, .message env msg sender⟩ peer final
    · obtain ⟨-, ⟨session, live, write, -⟩, ⟨info, announced⟩, _, _, own⟩ := complete
      cases own
      have live' : purged.transfers.get? peer = some session := by
        rw [transfers]
        exact live
      obtain ⟨last, finished, record⟩ := transition.completes live' write announced
      have completes : CompletesUpload ⟨pre, .message env msg peer⟩ peer last :=
        ⟨⟨session, live, write, finished⟩, ⟨info, announced⟩, env, msg, rfl⟩
      rw [show (service.after ⟨pre, .message env msg peer⟩).completedWrites.get? peer = _ from record] at held
      cases held
      exact ⟨last, completes.latest, rfl, rfl, rfl⟩
    rcases transition.record held with old | ⟨rfl, ⟨block, data, carried⟩, renewed | fresh⟩
    · exact current.unchanged later lapsed (records.record old) fresh absent complete
    · obtain ⟨alone, first, there, unexpired, rfl⟩ := renewed
      rw [transfers] at alone
      obtain ⟨final, latest, window⟩ := current peer first (records.record there) (later.trans_lt unexpired) alone
      refine ⟨final, latest.next ?_, window⟩
      rintro ⟨-, info, start⟩
      obtain ⟨req, asked | asked⟩ := transition.asked start
      · rw [carried] at asked
        cases asked
      · rw [carried] at asked
        cases asked
    · obtain ⟨session, final, live, write, finished, rfl, info, announced⟩ := fresh
      rw [transfers] at live
      exact absurd ⟨final, ⟨session, live, write, finished⟩, ⟨info, announced⟩, env, msg, rfl⟩ complete

end Runs

variable {initial state : TftpCore} {since time : Nat} {events : List (Event TftpCore Input)}

theorem run_current (kept : Kept initial.admission.max initial.books)
    (none : ∀ peer, initial.completedWrites.get? peer = none) (run : service.Run initial since events state time)
    (lapsed : ∀ event ∈ events, Lapsed event) :
      Kept state.admission.max state.books ∧ Current events state time := by
  induction run with
  | start =>
    refine ⟨kept, fun peer completed held => ?_⟩
    rw [none peer] at held
    cases held
  | @next events state time input prev later ih =>
    obtain ⟨pre, current⟩ := ih fun event mem => lapsed event (List.mem_append_left _ mem)
    obtain ⟨slot, after, -⟩ := step_kept pre input
    have stepped : Current (events ++ [⟨state, input⟩]) (service.after ⟨state, input⟩) input.now :=
      current.step pre later (lapsed _ (by simp))
    refine ⟨?_, stepped⟩
    rw [show (service.step state input).1.admission = state.admission from slot]
    exact after

/-- Every answered retry is of the peer's latest upload, if no transfer lapsed while a record was held. -/
theorem reacknowledged_latest (windows allowWrite : Bool) (maxTransfers : Nat)
    (run : service.Run (TftpCore.new windows allowWrite maxTransfers) since events state time)
    (lapsed : ∀ event ∈ events, Lapsed event) :
    ∀ first event last, events = first ++ event :: last →
      ∀ peer block acked, Reacknowledged event peer block acked →
        ∃ final, LatestUpload first peer final ∧ acked = final.lastAcked ∧
          blockDistance block final.lastAcked ≤ blockDistance final.ackedWindowStart final.lastAcked := by
  rintro first event last rfl peer block acked ⟨⟨env, msg, shape⟩, ⟨data, carried⟩, absent, answer⟩
  obtain ⟨reached, before, later, -⟩ := run.split
  obtain ⟨kept, current⟩ := run_current (kept_new windows allowWrite maxTransfers)
    (fun peer => SeqMap.get?_empty peer) before fun event listed => lapsed event (List.mem_append_left _ listed)
  obtain ⟨state, input⟩ := event
  subst shape
  obtain ⟨-, purged, records, transition⟩ := step_message kept.toBooked env msg peer
  have transfers : purged.transfers = state.transfers := congrArg Books.transfers records.others
  have alone : purged.transfers.get? peer = none := by
    rw [transfers]
    exact absent
  have unasked : ¬ Asked (Input.message env msg peer).packet := by
    rintro ⟨request, asked | asked⟩ <;>
    · rw [show (Input.message env msg peer).packet = _ from carried] at asked
      cases asked
  obtain ⟨completed, number, payload, data', held, fresh, covers, ack⟩ := transition.answered alone unasked answer
  have same : some (Packet.data block data) = some (Packet.data number payload) := carried.symm.trans data'
  cases same
  obtain ⟨final, latest, start, stop, sent⟩ :=
    current peer completed (records.record held) (later.trans_lt fresh) absent
  refine ⟨final, latest, ?_, ?_⟩
  · have shape := congrArg TransferSession.packetBlock (ack.symm.trans sent)
    rw [packetBlock_encodeAck, packetBlock_encodeAck] at shape
    exact Option.some.inj shape
  · rw [CompletedWrite.covers, decide_eq_true_eq, start, stop] at covers
    exact covers

def acceptingEnv (now : Nat) : Env where
  now := now
  statFile name := .error (.notAFile name)
  ensureWritableNew name := .ok name
  createNew _ := .ok ()
  writeAll _ _ := .ok ()
  readFullAt _ _ _ := .ok []
  removes _ := true
  order := id
  perm _ := .refl _
  lossy _ := []

def uploader : SocketAddr := { ip := "192.0.2.9".toList, port := 3069 }

def uploadRequest (name : UInt8) : Bytes := [0, 2, name, 0, 111, 99, 116, 101, 116, 0]

def repeatedBlock : List Input :=
  [.message (acceptingEnv 1) (uploadRequest 97) uploader, .message (acceptingEnv 2) (encodeData 1 [7]) uploader,
    .message (acceptingEnv 3) (encodeData 1 [7]) uploader]

theorem lapsed_of_no_record {event : Event TftpCore Input} (empty : event.before.completedWrites.entries = []) :
    Lapsed event := by
  intro peer completed _ _ held
  have mem := SeqMap.mem_entries.mpr held
  rw [empty] at mem
  cases mem

theorem lapsed_of_idle {event : Event TftpCore Input} (idle : event.before.transfers.entries = [])
    (unstarted : starts (service.outputs event) = 0) : Lapsed event := by
  intro peer completed ends _ _
  obtain ⟨-, live | ⟨-, info, start⟩⟩ := ends
  · refine absurd ?_ live
    rw [SeqMap.get?, idle]
    rfl
  · exact absurd rfl (List.countP_eq_zero.mp unstarted _ start)

theorem reacknowledged_latest_repeated :
    ∃ final, LatestUpload (service.history (TftpCore.new false true 4) (repeatedBlock.take 2)) uploader final ∧
      1 = final.lastAcked ∧ blockDistance 1 final.lastAcked ≤
        blockDistance final.ackedWindowStart final.lastAcked := by
  have run : service.Run (TftpCore.new false true 4) 0 _ _ _ := TimedSystem.Run.start.play repeatedBlock (by decide)
  refine reacknowledged_latest false true 4 run ?_ _ ⟨_, _⟩ [] rfl uploader 1 1
    ⟨⟨_, _, rfl⟩, ⟨[7], by decide⟩, by decide +kernel, by decide +kernel⟩
  intro event listed
  rcases List.mem_cons.mp listed with rfl | listed
  · exact lapsed_of_no_record rfl
  rcases List.mem_cons.mp listed with rfl | listed
  · exact lapsed_of_no_record (by decide +kernel)
  rcases List.mem_singleton.mp listed with rfl
  exact lapsed_of_idle (by decide +kernel) (by decide +kernel)

/-- An upload completes, a second one of the peer fails, and the first's block sent again is acknowledged. -/
theorem failed_upload_reacknowledged :
    let before := service.final (TftpCore.new false true 4)
      [.message (acceptingEnv 1) (uploadRequest 97) uploader, .message (acceptingEnv 2) (encodeData 1 [7]) uploader,
        .message (acceptingEnv 3) (uploadRequest 98) uploader]
    let failed := service.step before (.message (acceptingEnv 4) (encodeError .notDefined none) uploader)
    (before.transfers.get? uploader).map TransferSession.absPath = some ['b'] ∧
      failed.1.transfers.get? uploader = none ∧ failed.1.files = [['a']] ∧ terminals failed.2 = 1 ∧
      (service.step failed.1 (.message (acceptingEnv 5) (encodeData 1 [7]) uploader)).2 =
        [.send uploader (encodeAck 1)] := by
  decide +kernel

end NexTerminal.Tftp
