import NexTerminal.Host.RuntimeProtocol

/-! The daemon's stdout as bounded JSON lines (`boundedJsonLineWriter.ts`), on a stream that may call back, drain,
fail and be written to again from inside a write. -/

namespace NexTerminal.Host

structure PendingLine where
  line : JsString
  bytes : Nat
  response : Bool

def maxQueuedOutputBytes : Nat := maxRpcLineBytes * 4
def maxQueuedOutputLines : Nat := 16
def notificationTooLarge : String := "outbound notification exceeds the RPC line limit"
def notificationBackpressured : String := "outbound notification dropped while stdout is backpressured"

def correlatedResponseId : JsValue → Option Nat
  | .record fields =>
    match ownField fields "id" with
    | some (.number (.finite id)) =>
      if JsNumber.isSafeInteger (.finite id) && decide (0 ≤ id) then some id.num.toNat else none
    | _ => none
  | _ => none

/-- `JSON.stringify({ id, error: RESPONSE_TOO_LARGE })`. -/
def responseTooLarge (id : Nat) : JsString :=
  js "\x7b\"id\":" ++ natText id ++ js ",\"error\":\x7b\"code\":\"RESPONSE_TOO_LARGE\","
    ++ js "\"message\":\"Daemon response exceeds the RPC line limit.\"\x7d\x7d"

/-- Why `serialize` gives no line: a notification is dropped, or the fallback itself is too long. -/
inductive Unserialized
  | dropped (reason : String)
  | terminal (error : String)

/-- What `JSON.stringify` gives is a parameter: nothing where it throws or gives no string. -/
def serialize (stringify : JsValue → Option JsString) (value : JsValue) : Except Unserialized PendingLine :=
  let responseId := correlatedResponseId value
  let fitted (payload : JsString) : Except Unserialized PendingLine :=
    if utf8Bytes payload > maxRpcLineBytes then
      .error (.terminal "Daemon RESPONSE_TOO_LARGE fallback exceeded the RPC line limit.")
    else .ok { line := payload ++ js "\n", bytes := utf8Bytes payload, response := responseId.isSome }
  match stringify value, responseId with
  | none, none => .error (.dropped "outbound notification could not be serialized")
  | none, some id => fitted (responseTooLarge id)
  | some payload, none =>
    if utf8Bytes payload > maxRpcLineBytes then .error (.dropped notificationTooLarge) else fitted payload
  | some payload, some id => fitted (if utf8Bytes payload > maxRpcLineBytes then responseTooLarge id else payload)

structure BoundedJsonLineWriter where
  active : Bool := true
  writing : Bool := false
  waitingForDrain : Bool := false
  writeCallbackDone : Bool := false
  writeEpoch : Nat := 0
  queued : List PendingLine := []
  queuedBytes : Int := 0
  /-- `onDrain` is registered, for one `drain`. -/
  drainOwned : Bool := false
  /-- The epochs of the calls of `stream.write` that have not returned, innermost first. -/
  calls : List Nat := []
  /-- The lines given to the stream, by epoch. -/
  emitted : List (Nat × PendingLine) := []
  /-- The epochs whose callback has been called. -/
  calledBack : List Nat := []
  /-- The lines that `write` queued or started. -/
  accepted : List PendingLine := []
  dropped : List String := []
  /-- The calls of `onTerminal`. -/
  reports : List String := []

namespace BoundedJsonLineWriter

def terminal (self : BoundedJsonLineWriter) (error : String) : BoundedJsonLineWriter :=
  if !self.active then self
  else { self with
    active := false, writeEpoch := self.writeEpoch + 1, writing := false, waitingForDrain := false
    writeCallbackDone := false, queued := [], queuedBytes := 0, drainOwned := false
    reports := self.reports ++ [error] }

/-- As far as the call of `stream.write`. -/
def startWrite (self : BoundedJsonLineWriter) (line : PendingLine) : BoundedJsonLineWriter :=
  if !self.active then self
  else { self with
    writeEpoch := self.writeEpoch + 1, writing := true, waitingForDrain := false, writeCallbackDone := false
    calls := (self.writeEpoch + 1) :: self.calls
    emitted := self.emitted ++ [(self.writeEpoch + 1, line)] }

def isCurrentWrite (self : BoundedJsonLineWriter) (epoch : Nat) : Bool :=
  self.active && self.writing && self.writeEpoch == epoch

def finishWriteIfReady (self : BoundedJsonLineWriter) : BoundedJsonLineWriter :=
  if !self.active || !self.writing || !self.writeCallbackDone || self.waitingForDrain then self
  else
    match self.queued with
    | [] => { self with writing := false }
    | next :: rest =>
      { self with writing := false, queued := rest, queuedBytes := self.queuedBytes - next.bytes }.startWrite next

/-- Attempts to emit one closed protocol response or notification. -/
def write (stringify : JsValue → Option JsString) (self : BoundedJsonLineWriter) (value : JsValue) :
    BoundedJsonLineWriter :=
  if !self.active then self
  else
    match serialize stringify value with
    | .error (.dropped reason) => { self with dropped := self.dropped ++ [reason] }
    | .error (.terminal error) => self.terminal error
    | .ok line =>
      if self.writing then
        if self.queued.length < maxQueuedOutputLines && self.queuedBytes + line.bytes ≤ maxQueuedOutputBytes then
          { self with
            queued := self.queued ++ [line]
            queuedBytes := self.queuedBytes + line.bytes
            accepted := self.accepted ++ [line] }
        else if line.response then self.terminal "Daemon stdout output queue exceeded its byte bound."
        else { self with dropped := self.dropped ++ [notificationBackpressured] }
      else { self with accepted := self.accepted ++ [line] }.startWrite line

/-- What befalls a writer, also from inside a call of `stream.write`. A callback belongs to a write that was
started; a return, or an exception, to the innermost call. -/
inductive Act
  | write (value : JsValue)
  | returned (accepted : Bool)
  | threw (error : String)
  | callback (epoch : Nat) (error : Option String)
  | drain
  | streamError (error : String)
  | streamClose

def step (stringify : JsValue → Option JsString) (self : BoundedJsonLineWriter) : Act → BoundedJsonLineWriter
  | .write value => self.write stringify value
  | .returned accepted =>
    match self.calls with
    | [] => self
    | epoch :: rest =>
      if !accepted && self.isCurrentWrite epoch then
        { self with calls := rest, waitingForDrain := true, drainOwned := true }
      else { self with calls := rest }
  | .threw error => if self.calls.isEmpty then self else { self with calls := self.calls.tail }.terminal error
  | .callback epoch error =>
    if epoch ∉ self.emitted.map Prod.fst then self
    else
      let called := { self with calledBack := self.calledBack ++ [epoch] }
      if !self.isCurrentWrite epoch then called
      else
        match error with
        | some error => called.terminal error
        | none => { called with writeCallbackDone := true }.finishWriteIfReady
  | .drain => if self.drainOwned then
    { self with drainOwned := false, waitingForDrain := false }.finishWriteIfReady else self
  | .streamError error => self.terminal error
  | .streamClose => self.terminal "Daemon stdout closed."

def run (stringify : JsValue → Option JsString) (acts : List Act) : BoundedJsonLineWriter :=
  acts.foldl (step stringify) {}

/-- The stream writes whose callback has not been called. -/
def outstanding (self : BoundedJsonLineWriter) : List Nat :=
  (self.emitted.map Prod.fst).filter (· ∉ self.calledBack)

def bytesOf (lines : List PendingLine) : Nat := (lines.map PendingLine.bytes).sum

/-- The invariant, also of a writer about to go on from a write that is over. -/
structure Sound (writer : BoundedJsonLineWriter) : Prop where
  fifo : ∃ rest, writer.accepted = writer.emitted.map Prod.snd ++ rest ∧
    (writer.active = true → rest = writer.queued)
  idle : writer.writing = false → writer.queued = [] ∧ writer.waitingForDrain = false
  counter : writer.queuedBytes = bytesOf writer.queued
  budget : writer.queued.length ≤ maxQueuedOutputLines ∧ bytesOf writer.queued ≤ maxQueuedOutputBytes
  known : ∀ epoch ∈ writer.emitted.map Prod.fst, epoch ≤ writer.writeEpoch
  issued : ∀ epoch ∈ writer.calledBack, epoch ∈ writer.emitted.map Prod.fst
  sole : writer.outstanding.length ≤ 1
  current : writer.active = true → ∀ epoch ∈ writer.outstanding,
    writer.writing = true ∧ epoch = writer.writeEpoch ∧ writer.writeCallbackDone = false
  drains : writer.active = true → writer.drainOwned = writer.waitingForDrain
  reported : writer.reports.length = if writer.active then 0 else 1

/-- A write that goes on waits for its callback, or has had it and waits for a `drain`. -/
def Owed (self : BoundedJsonLineWriter) : Prop := self.active = true → self.writing = true →
  if self.writeCallbackDone then self.waitingForDrain = true else self.writeEpoch ∈ self.outstanding

variable {stringify : JsValue → Option JsString} {self : BoundedJsonLineWriter}

theorem Sound.terminal (sound : self.Sound) (error : String) :
    (self.terminal error).Sound ∧ (self.terminal error).Owed := by
  unfold BoundedJsonLineWriter.terminal
  split
  · rename_i inactive
    exact ⟨sound, fun active => by simp [active] at inactive⟩
  · rename_i active
    obtain ⟨rest, accepted, -⟩ := sound.fifo
    have reported := sound.reported
    rw [if_pos (by simpa using active)] at reported
    refine ⟨{ sound with fifo := ⟨rest, accepted, nofun⟩, idle := fun _ => ⟨rfl, rfl⟩, counter := rfl
                         budget := by simp [bytesOf], known := ?_, current := nofun, drains :=
                           nofun, reported := ?_ }, nofun⟩
    · exact fun epoch mem => Nat.le_succ_of_le (sound.known epoch mem)
    · simpa using reported

theorem Sound.no_outstanding (sound : self.Sound) (active : self.active = true)
    (ended : self.writing = false ∨ self.writeCallbackDone = true) : self.outstanding = [] := by
  refine List.eq_nil_iff_forall_not_mem.mpr fun epoch mem => ?_
  obtain ⟨writing, -, done⟩ := sound.current active epoch mem
  simp [writing, done] at ended

/-- The next line goes to the stream when no write is outstanding. -/
theorem Sound.startWrite (sound : self.Sound) (active : self.active = true) (nothing : self.outstanding = [])
    (drained : self.waitingForDrain = false) {accepted queued : List PendingLine} {queuedBytes : Int}
    {line : PendingLine}
    (fifo : accepted = self.emitted.map Prod.snd ++ line :: queued) (counter : queuedBytes = bytesOf queued)
    (budget : queued.length ≤ maxQueuedOutputLines ∧ bytesOf queued ≤ maxQueuedOutputBytes) (writing : Bool) :
    let next := { self with writing, accepted, queued, queuedBytes }.startWrite line
    next.Sound ∧ next.Owed := by
  have fresh : self.writeEpoch + 1 ∉ self.calledBack := fun called =>
    absurd (sound.known _ (sound.issued _ called)) (Nat.not_succ_le_self _)
  have alone : ((self.emitted ++ [(self.writeEpoch + 1, line)]).map Prod.fst).filter (· ∉ self.calledBack) =
      [self.writeEpoch + 1] := by
    rw [List.map_append, List.filter_append]
    exact congrArg₂ (· ++ ·) nothing (by simp [fresh])
  have started : { self with writing, accepted, queued, queuedBytes }.startWrite line = { self with
      accepted, queued, queuedBytes, writeEpoch := self.writeEpoch + 1, writing := true, waitingForDrain := false
      writeCallbackDone := false, calls := (self.writeEpoch + 1) :: self.calls
      emitted := self.emitted ++ [(self.writeEpoch + 1, line)] } := by
    simp [BoundedJsonLineWriter.startWrite, active]
  rw [started]
  refine ⟨⟨⟨queued, by simp [fifo], fun _ => rfl⟩, nofun, counter, budget, ?_, ?_,
    (congrArg List.length alone).le, ?_,
    ?_, sound.reported⟩, fun _ _ => List.mem_filter.mpr ⟨?_, decide_eq_true fresh⟩⟩
  · simpa [or_imp, forall_and] using fun epoch line mem => Nat.le_succ_of_le
      (sound.known epoch (List.mem_map_of_mem (f := Prod.fst) mem))
  · intro epoch called
    rw [List.map_append]
    exact List.mem_append_left _ (sound.issued epoch called)
  · intro _ epoch mem
    exact ⟨rfl, List.mem_singleton.mp (alone ▸ mem), rfl⟩
  · intro _
    exact (sound.drains active).trans drained
  · rw [List.map_append]
    exact List.mem_append_right _ List.mem_cons_self

theorem Sound.finishWriteIfReady (sound : self.Sound)
    (owed : self.active = true → self.writing = true → self.writeCallbackDone = false →
      self.writeEpoch ∈ self.outstanding) :
    self.finishWriteIfReady.Sound ∧ self.finishWriteIfReady.Owed := by
  unfold BoundedJsonLineWriter.finishWriteIfReady
  split
  · rename_i stays
    refine ⟨sound, fun active writing => ?_⟩
    split
    · rename_i done
      simpa [active, writing, done] using stays
    · rename_i pending
      exact owed active writing (by simpa using pending)
  · rename_i ready
    simp only [Bool.or_eq_true, Bool.not_eq_true', not_or, Bool.not_eq_false, Bool.not_eq_true] at ready
    obtain ⟨⟨⟨active, writing⟩, done⟩, drained⟩ := ready
    have nothing := sound.no_outstanding active (.inr done)
    obtain ⟨rest, fifo, same⟩ := sound.fifo
    have counter := sound.counter
    have budget := sound.budget
    obtain rfl := same active
    split
    · rename_i empty
      exact ⟨{ sound with
        idle := fun _ => ⟨empty, drained⟩
        current := fun _ epoch mem => absurd (nothing ▸ mem : epoch ∈ []) List.not_mem_nil }, nofun⟩
    · rename_i next rest waiting
      rw [waiting] at fifo counter budget
      simp only [bytesOf, List.map_cons, List.sum_cons, List.length_cons] at counter budget
      refine sound.startWrite active nothing drained fifo ?_ ?_ false
      · simp only [bytesOf]
        omega
      · simp only [bytesOf]
        omega

theorem Sound.recorded (sound : self.Sound) (owed : self.Owed) (calls : List Nat) (dropped : List String) :
    Sound { self with calls, dropped } ∧ Owed { self with calls, dropped } :=
  ⟨{ sound with }, owed⟩

theorem Sound.write (sound : self.Sound) (owed : self.Owed) (value : JsValue) :
    (self.write stringify value).Sound ∧ (self.write stringify value).Owed := by
  unfold BoundedJsonLineWriter.write
  split
  · exact ⟨sound, owed⟩
  rename_i active
  rw [Bool.not_eq_true', Bool.not_eq_false] at active
  obtain ⟨rest, fifo, same⟩ := sound.fifo
  obtain rfl := same active
  split
  · exact sound.recorded owed self.calls _
  · exact sound.terminal _
  rename_i line _
  split
  · rename_i writing
    split
    · rename_i room
      rw [Bool.and_eq_true, decide_eq_true_iff, decide_eq_true_iff, sound.counter] at room
      have total : bytesOf (self.queued ++ [line]) = bytesOf self.queued + line.bytes := by simp [bytesOf]
      refine ⟨{ sound with fifo := ⟨_, by rw [fifo, List.append_assoc], fun _ => rfl⟩
                           idle := ?_, counter := ?_, budget := ⟨?_, ?_⟩ }, owed⟩
      · intro idle
        rw [writing] at idle
        cases idle
      · rw [total, sound.counter, Nat.cast_add]
      · rw [List.length_append]
        exact room.1
      · rw [total]
        omega
    · split
      · exact sound.terminal _
      · exact sound.recorded owed self.calls _
  · rename_i idle
    rw [Bool.not_eq_true] at idle
    obtain ⟨empty, drained⟩ := sound.idle idle
    refine sound.startWrite active (sound.no_outstanding active (.inl idle)) drained ?_ sound.counter sound.budget _
    rw [fifo, empty, List.append_nil]

theorem outstanding_calledBack (epoch : Nat) :
    outstanding { self with calledBack := self.calledBack ++ [epoch] } = self.outstanding.filter (· ≠ epoch) := by
  simp only [outstanding, List.filter_filter, List.mem_append, List.mem_singleton, not_or, ne_eq, Bool.decide_and,
    Bool.and_comm]

theorem Sound.calledBack (sound : self.Sound) {epoch : Nat} (known : epoch ∈ self.emitted.map Prod.fst) :
    Sound { self with calledBack := self.calledBack ++ [epoch] } := by
  refine { sound with issued := ?_, sole := ?_, current := ?_ }
  · intro other called
    rcases List.mem_append.mp called with pre | now
    · exact sound.issued other pre
    · exact List.mem_singleton.mp now ▸ known
  · rw [outstanding_calledBack]
    exact (List.length_filter_le _ _).trans sound.sole
  · intro active other mem
    rw [outstanding_calledBack] at mem
    exact sound.current active other (List.mem_of_mem_filter mem)

theorem Sound.callback (sound : self.Sound) (owed : self.Owed) (epoch : Nat) (error : Option String) :
    (self.step stringify (.callback epoch error)).Sound ∧ (self.step stringify (.callback epoch error)).Owed := by
  simp only [BoundedJsonLineWriter.step]
  split
  · exact ⟨sound, owed⟩
  rename_i known
  have called := sound.calledBack (not_not.mp known)
  split
  · rename_i stale
    refine ⟨called, fun (active : self.active = true) (writing : self.writing = true) => ?_⟩
    have waits := owed active writing
    split at waits
    · rename_i done
      exact (if_pos done).mpr waits
    · rename_i pending
      refine (if_neg pending).mpr ?_
      rw [outstanding_calledBack]
      refine List.mem_filter.mpr ⟨waits, decide_eq_true fun (same : self.writeEpoch = epoch) => ?_⟩
      simp [isCurrentWrite, active, writing, same] at stale
  · rename_i current
    rw [Bool.not_eq_true', Bool.not_eq_false, isCurrentWrite, Bool.and_eq_true, Bool.and_eq_true, beq_iff_eq] at current
    obtain ⟨⟨active, writing⟩, rfl⟩ := current
    cases error with
    | some error => exact called.terminal error
    | none =>
      refine Sound.finishWriteIfReady { called with current := fun _ other mem => ?_ } nofun
      have mem : other ∈ outstanding { self with calledBack := self.calledBack ++ [self.writeEpoch] } := mem
      rw [outstanding_calledBack, List.mem_filter, decide_eq_true_iff] at mem
      exact absurd (sound.current active other mem.1).2.1 mem.2

theorem Sound.step (sound : self.Sound) (owed : self.Owed) (act : Act) :
    (self.step stringify act).Sound ∧ (self.step stringify act).Owed := by
  cases act with
  | write value => exact sound.write owed value
  | returned accepted =>
    simp only [BoundedJsonLineWriter.step]
    split
    · exact ⟨sound, owed⟩
    rename_i epoch rest _
    split
    · rename_i refused
      rw [Bool.and_eq_true, isCurrentWrite, Bool.and_eq_true, Bool.and_eq_true] at refused
      refine ⟨{ sound with idle := fun idle => ?_, drains := fun _ => rfl }, fun active writing => ?_⟩
      · rw [refused.2.1.2] at idle
        cases idle
      · have waits := owed active writing
        split at waits
        · rename_i done
          exact (if_pos done).mpr rfl
        · rename_i pending
          exact (if_neg pending).mpr waits
    · exact sound.recorded owed rest self.dropped
  | threw error =>
    simp only [BoundedJsonLineWriter.step]
    split
    · exact ⟨sound, owed⟩
    · exact (sound.recorded owed self.calls.tail self.dropped).1.terminal error
  | callback epoch error => exact sound.callback owed epoch error
  | drain =>
    simp only [BoundedJsonLineWriter.step]
    split
    · refine Sound.finishWriteIfReady
        { sound with idle := fun idle => ⟨(sound.idle idle).1, rfl⟩, drains := fun _ => rfl }
        fun active writing pending => ?_
      have waits := owed active writing
      rwa [if_neg (by simpa using pending)] at waits
    · exact ⟨sound, owed⟩
  | streamError error => exact sound.terminal error
  | streamClose => exact sound.terminal _

theorem run_sound (acts : List Act) : (run stringify acts).Sound ∧ (run stringify acts).Owed := by
  induction acts using List.reverseRecOn with
  | nil =>
    exact ⟨⟨⟨[], rfl, fun _ => rfl⟩, fun _ => ⟨rfl, rfl⟩, rfl, ⟨Nat.zero_le _, Nat.zero_le _⟩, nofun,
      nofun, Nat.zero_le _, nofun, fun _ => rfl, rfl⟩, nofun⟩
  | append_singleton acts act ih =>
    rw [run, List.foldl_append, List.foldl_cons, List.foldl_nil]
    exact ih.1.step ih.2 act

/-- No room in the queue behind the write that is under way. -/
def OverBudget (self : BoundedJsonLineWriter) (line : PendingLine) : Prop := self.writing = true ∧
  (maxQueuedOutputLines ≤ self.queued.length ∨ maxQueuedOutputBytes < self.queuedBytes + line.bytes)

/-- What an active writer makes of a message. Only a notification is dropped: for want of room, for its length, or
because it has no JSON text. -/
inductive Written (stringify : JsValue → Option JsString) (self : BoundedJsonLineWriter) (value : JsValue)
    (next : BoundedJsonLineWriter) : Prop
  | accepted (line : PendingLine) : serialize stringify value = .ok line → next.accepted = self.accepted ++ [line] →
    next.dropped = self.dropped → next.active = true → Written stringify self value next
  | dropped (reason : String) : correlatedResponseId value = none →
    (stringify value = none ∨ (∃ payload, stringify value = some payload ∧
      maxRpcLineBytes < utf8Bytes payload) ∨
      ∃ line, serialize stringify value = .ok line ∧ self.OverBudget line) →
    next = { self with dropped := self.dropped ++ [reason] } → Written stringify self value next
  | terminal : next.active = false → next.dropped = self.dropped → next.accepted = self.accepted →
    Written stringify self value next

theorem serialize_dropped {value : JsValue} {reason : String}
    (refused : serialize stringify value = .error (.dropped reason)) : correlatedResponseId value = none ∧
      (stringify value = none ∨ ∃ payload, stringify value = some payload ∧
        maxRpcLineBytes < utf8Bytes payload) := by
  unfold serialize at refused
  dsimp only at refused
  split at refused
  · exact ⟨‹_›, .inl ‹_›⟩
  · split at refused <;> cases refused
  · rename_i payload text id
    split at refused
    · exact ⟨id, .inr ⟨payload, text, ‹_›⟩⟩
    · cases refused
  · repeat' split at refused
    all_goals cases refused

theorem serialize_response {value : JsValue} {line : PendingLine} (serialized : serialize stringify value = .ok line) :
    line.response = (correlatedResponseId value).isSome := by
  unfold serialize at serialized
  dsimp only at serialized
  repeat' split at serialized
  all_goals cases serialized
  all_goals rfl

theorem terminal_kept (error : String) :
    (self.terminal error).dropped = self.dropped ∧ (self.terminal error).accepted = self.accepted := by
  unfold BoundedJsonLineWriter.terminal
  split <;> exact ⟨rfl, rfl⟩

theorem terminal_inactive (error : String) : (self.terminal error).active = false := by
  unfold BoundedJsonLineWriter.terminal
  split
  · rename_i inactive
    simpa using inactive
  · rfl

theorem startWrite_kept (line : PendingLine) : (self.startWrite line).dropped = self.dropped ∧
    (self.startWrite line).accepted = self.accepted ∧ (self.startWrite line).active = self.active := by
  unfold BoundedJsonLineWriter.startWrite
  split <;> exact ⟨rfl, rfl, rfl⟩

theorem finishWriteIfReady_kept : self.finishWriteIfReady.dropped = self.dropped ∧
    self.finishWriteIfReady.accepted = self.accepted := by
  unfold BoundedJsonLineWriter.finishWriteIfReady
  split
  · exact ⟨rfl, rfl⟩
  · split
    · exact ⟨rfl, rfl⟩
    · obtain ⟨dropped, accepted, -⟩ := @startWrite_kept _ _
      exact ⟨dropped, accepted⟩

theorem write_written (active : self.active = true) (value : JsValue) :
    Written stringify self value (self.write stringify value) := by
  have terminal (error : String) : Written stringify self value (self.terminal error) :=
    .terminal (terminal_inactive error) (terminal_kept error).1 (terminal_kept error).2
  unfold BoundedJsonLineWriter.write
  rw [if_neg (by simp [active])]
  split
  · rename_i reason refused
    obtain ⟨notification, why⟩ := serialize_dropped refused
    exact .dropped reason notification (why.imp_right .inl) rfl
  · exact terminal _
  · rename_i line serialized
    split
    · rename_i writing
      split
      · exact .accepted line serialized rfl rfl active
      · rename_i full
        split
        · exact terminal _
        · rename_i notification
          rw [serialize_response serialized, Option.not_isSome_iff_eq_none] at notification
          refine .dropped _ notification (.inr (.inr ⟨line, serialized, writing, ?_⟩)) rfl
          simpa [or_iff_not_imp_left] using full
    · obtain ⟨dropped, accepted, same⟩ := startWrite_kept line
      exact .accepted line serialized accepted dropped (same.trans active)

theorem step_kept (act : Act) (ne : ∀ value, act ≠ .write value) :
    (self.step stringify act).dropped = self.dropped ∧ (self.step stringify act).accepted = self.accepted := by
  cases act with
  | write value => exact absurd rfl (ne value)
  | streamError | streamClose => exact terminal_kept _
  | returned | threw | callback | drain =>
    simp only [step]
    repeat' split
    all_goals first
      | exact ⟨rfl, rfl⟩
      | exact terminal_kept _
      | exact finishWriteIfReady_kept

/-- What the writer does for those that write to it, whatever the stream and its events do. -/
structure Orderly (stringify : JsValue → Option JsString) (writer : BoundedJsonLineWriter) : Prop where
  sole : writer.outstanding.length ≤ 1
  fifo : ∃ rest, writer.accepted = writer.emitted.map Prod.snd ++ rest ∧
    (writer.active = true → rest = writer.queued)
  /-- Nothing stays queued while no write goes on. -/
  idle : writer.active = true → writer.writing = false → writer.queued = []
  budget : writer.queued.length ≤ maxQueuedOutputLines ∧ writer.queuedBytes ≤ maxQueuedOutputBytes
  counter : writer.queuedBytes = bytesOf writer.queued
  reported : writer.reports.length = if writer.active then 0 else 1
  moves : writer.Owed
  written : writer.active = true → ∀ value, Written stringify writer value (writer.write stringify value)
  kept : ∀ act, (∀ value, act ≠ .write value) → (writer.step stringify act).dropped = writer.dropped ∧
    (writer.step stringify act).accepted = writer.accepted

/-- Over every run, lines leave in the order they were accepted in, one write at a time and within the budget. -/
theorem writer_orderly (stringify : JsValue → Option JsString) (acts : List Act) :
    Orderly stringify (run stringify acts) := by
  obtain ⟨sound, owed⟩ := @run_sound stringify acts
  refine ⟨sound.sole, sound.fifo, fun _ still => (sound.idle still).1, ⟨sound.budget.1, ?_⟩, sound.counter,
    sound.reported, owed, write_written, step_kept⟩
  rw [sound.counter]
  exact_mod_cast sound.budget.2

/-- With nothing written and nothing queued, a notification without a JSON text is dropped. -/
theorem notification_dropped_unserialized :
    correlatedResponseId .undefined = none ∧
      (run (fun _ => none) [.write .undefined]).dropped = ["outbound notification could not be serialized"] ∧
      ∀ line, ¬ ({} : BoundedJsonLineWriter).OverBudget line :=
  ⟨rfl, rfl, fun _ full => Bool.false_ne_true full.1⟩

end BoundedJsonLineWriter

end NexTerminal.Host
