import NexTerminal.Tftp.Engine

namespace NexTerminal.Tftp

namespace TransferSession

inductive TickEvent
  | retransmitted
  | exhausted
  /-- Removed by `is_timed_out`. -/
  | timedOut
deriving DecidableEq

def deadline (session : TransferSession) (now : Nat) : List TickEvent :=
  if session.isTimedOut now then [.timedOut] else []

def ticked (session : TransferSession) (now : Nat) : TransferSession × List TickEvent :=
  if session.phase ≠ .error ∧ session.timeForRetransmission now then
    match session.consumeRetransmission now with
    | (session, none) => (session, [.exhausted])
    | (session, some _) => (session, .retransmitted :: session.deadline now)
  else (session, session.deadline now)

def ticks (session : TransferSession) : List Nat → List TickEvent
  | [] => []
  | now :: rest =>
    let (next, events) := session.ticked now
    if .exhausted ∈ events ∨ .timedOut ∈ events then events else events ++ next.ticks rest

end TransferSession

open TransferSession

theorem mem_deadline {session : TransferSession} {now : Nat} {event : TickEvent} :
    event ∈ session.deadline now ↔ event = .timedOut ∧ session.isTimedOut now = true := by
  unfold deadline
  split
  · simp [*]
  · simp [*]

/-- The tick of the engine does this to the session it holds for a peer. -/
theorem tickPeer_ticked {core : TftpCore} {peer : SocketAddr} {session : TransferSession} (env : Env)
    (held : core.transfers.get? peer = some session) (running : session.phase ≠ .done) :
    TftpCore.tickPeer env core peer =
      let (after, events) := session.ticked env.now
      if .exhausted ∈ events then
        (core.putSession peer after).finishError env peer
          ((after.error.map Prod.snd).getD "Max retries exceeded") (some "MaxRetries")
      else
        let core :=
          if .retransmitted ∈ events then
            (core.putSession peer after).sendRaw peer (after.outbound.map Outbound.bytes)
          else core
        if .timedOut ∈ events then
          core.finishError env peer "Transfer timed out with no response from the client" (some "Timeout")
        else core := by
  unfold TftpCore.tickPeer ticked
  rw [held]
  dsimp only
  rw [if_neg running]
  by_cases due : session.phase ≠ .error ∧ session.timeForRetransmission env.now = true
  · have sends : ∀ packets, (session.consumeRetransmission env.now).2 = some packets →
        packets = (session.consumeRetransmission env.now).1.outbound.map Outbound.bytes := by
      unfold consumeRetransmission
      intro packets
      dsimp only
      split
      · exact nofun
      · split
        · exact nofun
        · intro given
          exact (Option.some.inj given).symm
    rw [if_pos due, if_pos due]
    generalize session.consumeRetransmission env.now = consumed at sends
    obtain ⟨after, packets⟩ := consumed
    cases packets with
    | none => simp
    | some packets =>
      have sent : packets = after.outbound.map Outbound.bytes := sends packets rfl
      simp [mem_deadline, sent]
  · rw [if_neg due, if_neg due]
    simp [mem_deadline]

namespace TransferSession

def Agreed (session : TransferSession) : Prop :=
  match session.opts.timeout with
  | some seconds => timeoutMin ≤ seconds ∧ session.timeout = seconds * 1000
  | none => session.timeout = defaultTimeout

def interval (session : TransferSession) (attempts : Nat) : Nat :=
  if session.opts.timeout.isNone then min (session.timeout * 2 ^ attempts) maxBackoff else session.timeout

def due (session : TransferSession) : Nat := session.outboundSentLast + session.retxBackoff

/-- A session that was heard from last, and has packets out. -/
structure Waiting (session : TransferSession) (attempts : Nat) : Prop where
  running : session.phase ≠ .error ∧ session.phase ≠ .done
  outstanding : session.outbound ≠ []
  retries : session.retries = attempts
  backoff : session.retxBackoff = session.interval attempts
  agreed : session.Agreed

section

variable {session : TransferSession} {attempts : Nat}

theorem timeout_pos (agreed : session.Agreed) : 0 < session.timeout := by
  unfold Agreed at agreed
  split at agreed
  · unfold timeoutMin at agreed
    omega
  · rw [agreed]
    decide

theorem interval_pos (agreed : session.Agreed) (attempts : Nat) : 0 < session.interval attempts := by
  have positive := timeout_pos agreed
  unfold interval
  split
  · have product : 0 < session.timeout * 2 ^ attempts := Nat.mul_pos positive (Nat.two_pow_pos _)
    unfold maxBackoff
    omega
  · exact positive

theorem interval_succ (silent : session.opts.timeout.isNone = true) (attempts : Nat) :
    min (session.interval attempts * 2) maxBackoff = session.interval (attempts + 1) := by
  unfold interval
  rw [if_pos silent, if_pos silent, Nat.pow_succ, ← Nat.mul_assoc]
  omega

theorem Waiting.due_iff (waiting : session.Waiting attempts) (now : Nat) :
    session.timeForRetransmission now = true ↔ session.due ≤ now := by
  have positive := interval_pos waiting.agreed attempts
  have outstanding : session.outbound.isEmpty = false := by simp [waiting.outstanding]
  unfold timeForRetransmission due
  rw [outstanding, waiting.backoff]
  simp only [Bool.not_false, Bool.true_and, decide_eq_true_eq]
  omega

theorem Waiting.early (waiting : session.Waiting attempts) {now : Nat} (early : now < session.due) :
    session.ticked now = (session, session.deadline now) := by
  unfold ticked
  rw [if_neg]
  rw [waiting.due_iff]
  omega

/-- One more attempt. -/
theorem Waiting.attempt (waiting : session.Waiting attempts) {now : Nat} (due : session.due ≤ now)
    (left : attempts < session.maxRetries) :
    ∃ next, session.ticked now = (next, [.retransmitted]) ∧ next.Waiting (attempts + 1) ∧
      next.lastActivity = now ∧ next.outboundSentLast = now ∧ next.opts = session.opts ∧
      next.timeout = session.timeout ∧ next.maxRetries = session.maxRetries := by
  have outstanding : ¬ session.outbound.isEmpty = true := by simp [waiting.outstanding]
  have within : ¬ session.retries + 1 > session.maxRetries := by
    rw [waiting.retries]
    omega
  have backoff : (if session.opts.timeout.isNone = true then min (session.retxBackoff * 2) maxBackoff
      else session.retxBackoff) = session.interval (attempts + 1) := by
    rw [waiting.backoff]
    split
    · exact interval_succ ‹_› attempts
    · unfold interval
      rw [if_neg ‹_›, if_neg ‹_›]
  unfold ticked consumeRetransmission
  rw [if_pos ⟨waiting.running.1, (waiting.due_iff now).mpr due⟩, if_neg outstanding]
  rw [if_neg within]
  refine ⟨_, Prod.ext rfl ?_, ⟨waiting.running, waiting.outstanding, ?_, backoff, waiting.agreed⟩,
    rfl, rfl, rfl, rfl, rfl⟩
  · simp [deadline, isTimedOut]
  · exact congrArg (· + 1) waiting.retries

end

/-- It has no attempts, or its packets left when its peer was heard and its intervals stay within the deadline. -/
def RoomToRetry (session : TransferSession) : Prop :=
  session.maxRetries = 0 ∨
    session.outboundSentLast ≤ session.lastActivity + 1 ∧
      (session.opts.timeout.isSome = true ∨ session.maxRetries ≤ 2)

section

variable {session : TransferSession} {attempts : Nat}

theorem interval_within (room : session.opts.timeout.isSome = true ∨ attempts < 2) :
    session.interval attempts ≤ session.timeout * (attempts + 1) := by
  unfold interval
  split
  · rename_i silent
    have few : attempts < 2 := by
      rcases room with negotiated | few
      · rw [Option.isNone_iff_eq_none.mp silent] at negotiated
        cases negotiated
      · exact few
    have small : attempts = 0 ∨ attempts = 1 := by omega
    rcases small with rfl | rfl
    · omega
    · omega
  · exact Nat.le_mul_of_pos_right _ (Nat.succ_pos _)

/-- Reaped only once every attempt was made, whatever the ticks. -/
theorem Waiting.attempted (waiting : session.Waiting attempts)
    (prompt : session.outboundSentLast ≤ session.lastActivity + 1)
    (room : session.opts.timeout.isSome = true ∨ session.maxRetries ≤ 2) (times : List Nat)
    {pre after : List TickEvent} (reaped : session.ticks times = pre ++ .timedOut :: after) :
    session.maxRetries ≤ attempts + pre.count .retransmitted := by
  induction times generalizing session attempts pre with
  | nil => simp [ticks] at reaped
  | cons now rest ih =>
    by_cases early : now < session.due
    · by_cases more : attempts < session.maxRetries
      · have within : session.interval attempts ≤ session.timeout * (attempts + 1) :=
          interval_within (room.imp id (by omega))
        have waits : session.isTimedOut now = false := by
          unfold due at early
          unfold isTimedOut
          rw [decide_eq_false_iff_not, waiting.retries]
          rw [waiting.backoff] at early
          omega
        have kept : session.ticked now = (session, []) := by
          rw [waiting.early early, deadline, if_neg (by simp [waits])]
        rw [ticks, kept] at reaped
        exact ih waiting prompt room reaped
      · omega
    · by_cases more : attempts < session.maxRetries
      · obtain ⟨next, ran, later, heard, sent, opts, -, retries⟩ :=
          waiting.attempt (Nat.not_lt.mp early) more
        rw [ticks, ran] at reaped
        cases pre with
        | nil => cases reaped
        | cons event pre =>
          obtain ⟨rfl, tail⟩ := List.cons.inj reaped
          have done := ih later (by omega) (by rw [opts, retries]; exact room) tail
          rw [List.count_cons_self]
          omega
      · omega

end

/-- Ticks one after another, none later than what falls due by then. -/
def Prompt (session : TransferSession) (since : Nat) : List Nat → Prop
  | [] => True
  | now :: rest => since ≤ now ∧ now ≤ max since session.due ∧ (session.ticked now).1.Prompt now rest

def quietSince (session : TransferSession) : Nat := max session.lastActivity session.outboundSentLast

/-- However its ticks come, a session is reaped only after every attempt. -/
def FullyTried (session : TransferSession) : Prop :=
  ∀ times, session.Prompt session.quietSince times → ∀ before after,
    session.ticks times = before ++ .timedOut :: after → session.maxRetries ≤ before.count .retransmitted

section

variable {session : TransferSession}

theorem interval_zero (agreed : session.Agreed) : session.interval 0 = session.timeout := by
  unfold interval
  split
  · rename_i silent
    unfold Agreed at agreed
    rw [Option.isNone_iff_eq_none.mp silent] at agreed
    rw [agreed]
    rfl
  · rfl

theorem interval_default (agreed : session.Agreed) (silent : session.opts.timeout = none) (attempts : Nat) :
    session.timeout = 5000 ∧ session.interval attempts = min (5000 * 2 ^ attempts) 60000 := by
  unfold Agreed at agreed
  rw [silent] at agreed
  refine ⟨agreed, ?_⟩
  rw [interval, if_pos (by rw [silent]; rfl), agreed]
  rfl

theorem Waiting.reaped_at_once (waiting : session.Waiting 0)
    (late : session.lastActivity + 1 < session.outboundSentLast) :
    ∃ now, session.Prompt session.quietSince [now] ∧ session.ticks [now] = [.timedOut] := by
  have positive := timeout_pos waiting.agreed
  have due : session.due = session.outboundSentLast + session.timeout := by
    rw [TransferSession.due, waiting.backoff, interval_zero waiting.agreed]
  generalize moment : max session.outboundSentLast (session.lastActivity + session.timeout + 1) = now
  have early : now < session.due := by omega
  have expired : session.isTimedOut now = true := by
    rw [isTimedOut, waiting.retries, decide_eq_true_eq]
    omega
  refine ⟨now, ⟨?_, ?_, trivial⟩, ?_⟩
  · unfold quietSince
    omega
  · omega
  · rw [ticks, waiting.early early, deadline, if_pos expired]
    rfl

theorem Waiting.reaped_after_two (waiting : session.Waiting 0) (silent : session.opts.timeout = none)
    (more : 2 < session.maxRetries) :
    ∃ times, session.Prompt session.quietSince times ∧
      session.ticks times = [.retransmitted, .retransmitted, .timedOut] := by
  generalize moment : max session.quietSince session.due = first
  obtain ⟨once, ran, waiting₁, _, sent, opts, -, retries⟩ :=
    waiting.attempt (show session.due ≤ first by omega) (by omega)
  have due₁ : once.due = first + 10000 := by
    rw [TransferSession.due, waiting₁.backoff, sent, (interval_default waiting₁.agreed (opts ▸ silent) 1).2]
    rfl
  obtain ⟨twice, ran', waiting₂, heard, sent', opts', _, _⟩ :=
    waiting₁.attempt (show once.due ≤ first + 10000 by omega) (by omega)
  have negotiated : twice.opts.timeout = none := by rw [opts', opts, silent]
  obtain ⟨five, twenty⟩ := interval_default waiting₂.agreed negotiated 2
  have due₂ : twice.due = first + 10000 + 20000 := by
    rw [TransferSession.due, waiting₂.backoff, sent', twenty]
    rfl
  have expired : twice.isTimedOut (first + 25001) = true := by
    rw [isTimedOut, waiting₂.retries, heard, five, decide_eq_true_eq]
    omega
  have end_ : twice.ticked (first + 25001) = (twice, [.timedOut]) := by
    rw [waiting₂.early (by omega), deadline, if_pos expired]
  refine ⟨[first, first + 10000, first + 25001], ⟨by omega, by omega, ?_⟩, ?_⟩
  · rw [ran]
    dsimp only
    refine ⟨by omega, by omega, ?_⟩
    rw [ran']
    dsimp only
    exact ⟨by omega, by omega, trivial⟩
  · simp [ticks, ran, ran', end_]

/-- Reaped only after every attempt, whatever the ticks, exactly when it has room to retry. By `tickPeer_ticked` the
engine's tick of a running session is the tick of these schedules. -/
theorem fullyTried_iff (waiting : session.Waiting 0) : session.FullyTried ↔ session.RoomToRetry := by
  constructor
  · intro tried
    by_contra cramped
    unfold RoomToRetry at cramped
    by_cases late : session.lastActivity + 1 < session.outboundSentLast
    · obtain ⟨now, prompt, reaped⟩ := waiting.reaped_at_once late
      have bound := tried [now] prompt [] [] reaped
      simp only [List.count_nil] at bound
      omega
    · have doubling : session.opts.timeout = none ∧ 2 < session.maxRetries := by
        simp only [not_or, not_and, Nat.not_le, Bool.not_eq_true, Option.isSome_eq_false_iff,
          Option.isNone_iff_eq_none] at cramped
        exact cramped.2 (by omega)
      obtain ⟨times, prompt, reaped⟩ := waiting.reaped_after_two doubling.1 doubling.2
      have bound := tried times prompt [.retransmitted, .retransmitted] [] reaped
      have two : [TickEvent.retransmitted, .retransmitted].count .retransmitted = 2 := by decide
      omega
  · intro room times _ before after reaped
    rcases room with none | ⟨prompt, room⟩
    · omega
    · have bound := waiting.attempted prompt room times reaped
      omega

end

structure Heard (session : TransferSession) : Prop where
  retries : session.retries = 0
  backoff : session.retxBackoff = session.timeout
  agreed : session.Agreed

theorem new_heard (init : TransferInit) (now : Nat) : (TransferSession.new init now).Heard := by
  refine ⟨?_, rfl, ?_⟩
  · unfold TransferSession.new
    cases validateOptions init.rawOptions {} <;> rfl
  · unfold TransferSession.new
    cases validated : validateOptions init.rawOptions {} with
    | error msg => exact rfl
    | ok opts =>
      obtain ⟨_, _, rest⟩ := Library.bind_eq_ok validated
      obtain ⟨timeout, given, rest⟩ := Library.bind_eq_ok rest
      obtain ⟨_, _, rest⟩ := Library.bind_eq_ok rest
      obtain ⟨_, _, rest⟩ := Library.bind_eq_ok rest
      cases rest
      have bounded : ∀ seconds ∈ timeout, timeoutMin ≤ seconds := by
        refine @negotiated_holds _ (∀ seconds ∈ ·, timeoutMin ≤ seconds) _ _ _ _ given nofun ?_
        intro text value parsed seconds mem
        cases num : parseBounded "timeout" text timeoutMin timeoutMax with
        | error msg =>
          rw [num] at parsed
          cases parsed
        | ok hit =>
          rw [num] at parsed
          cases parsed
          cases mem
          exact (parseBounded_bounds num).1
      cases timeout with
      | none => exact rfl
      | some seconds => exact ⟨bounded seconds rfl, rfl⟩

section

variable {session : TransferSession}

theorem Heard.waiting (heard : session.Heard) (running : session.phase ≠ .error ∧ session.phase ≠ .done)
    (outstanding : session.outbound ≠ []) : session.Waiting 0 :=
  ⟨running, outstanding, heard.retries, heard.backoff.trans (interval_zero heard.agreed).symm, heard.agreed⟩

theorem Heard.initForRead (heard : session.Heard) (fileSize : Nat) : (session.initForRead fileSize).1.Heard := by
  unfold TransferSession.initForRead
  dsimp only
  generalize (if session.opts.tsize = some 0 then some fileSize else session.opts.tsize) = tsize
  split
  · exact { heard with }
  · exact { heard with }

end

def firstBlock (rawOptions : RawOptions) : TransferSession :=
  let init : TransferInit := {
    peer := ⟨"10.0.0.9".toList, 2000⟩, direction := .read, filename := "image".toList
    absPath := "/srv/image".toList, rawOptions := rawOptions }
  let (session, packet) := (((TransferSession.new init 0).initForRead 4).1).produceNextPacket [1, 2, 3, 4]
  session.recordOutbound 0 [packet]

theorem firstBlock_waiting (rawOptions : RawOptions)
    (running : (firstBlock rawOptions).phase ≠ .error ∧ (firstBlock rawOptions).phase ≠ .done)
    (outstanding : (firstBlock rawOptions).outbound ≠ []) : (firstBlock rawOptions).Waiting 0 := by
  refine Heard.waiting ?_ running outstanding
  have opened :=
    (new_heard ⟨⟨"10.0.0.9".toList, 2000⟩, .read, "image".toList, "/srv/image".toList,
    rawOptions⟩ 0).initForRead 4
  exact { opened with }

/-- With the default timeout and five attempts, a tick 15 seconds into the third wait reaps it. -/
theorem not_fullyTried_firstBlock : ¬ (firstBlock {}).FullyTried := by
  intro tried
  have reaped : (firstBlock {}).ticks [5000, 15000, 30001] = [.retransmitted, .retransmitted, .timedOut] := by
    decide
  have prompt : (firstBlock {}).Prompt (firstBlock {}).quietSince [5000, 15000, 30001] :=
    ⟨by decide, by decide, by decide, by decide, by decide, by decide, trivial⟩
  exact absurd (tried _ prompt [.retransmitted, .retransmitted] [] reaped) (by decide)

theorem fullyTried_firstBlock_agreed : (firstBlock { timeout := some ['3'] }).FullyTried :=
  (fullyTried_iff (firstBlock_waiting _ (by decide) (by decide))).mpr (.inr ⟨by decide, .inl (by decide)⟩)

end TransferSession

end NexTerminal.Tftp
