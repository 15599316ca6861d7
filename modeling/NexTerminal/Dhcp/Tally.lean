import NexTerminal.Library.Numbers
import NexTerminal.Dhcp.Legality

/-! What a running engine shows of itself (`lease.rs`, `engine.rs`). -/

namespace NexTerminal.Dhcp

open Std Library

structure PoolInfo where
  rangeStart : Ipv4Addr
  rangeEnd : Ipv4Addr
  poolSize : Nat
  activeCount : Nat
  utilizationPct : ℚ
  staticEntryCount : Nat

structure RuntimeSnapshot where
  leases : List LeaseInfo
  counters : PacketCounters
  pool : PoolInfo

/-- `(active as f64 / f64::from(size) * 100.0).min(100.0)`; both counts are exact doubles. -/
def utilization (activeCount size : Nat) : ℚ :=
  if 0 < size then min (f64OfRat (f64OfRat (activeCount / size) * 100)) 100 else 0

def LeaseTable.poolInfoFor (table : LeaseTable) (activeCount : Nat) : PoolInfo :=
  let size := Dhcp.poolSize table.rangeStart table.rangeEnd
  { rangeStart := table.rangeStart
    rangeEnd := table.rangeEnd
    poolSize := size
    activeCount := activeCount
    utilizationPct := utilization activeCount size
    staticEntryCount := table.statics.size }

def DhcpCore.runtimeSnapshotAt (core : DhcpCore) (nowMs : Nat) : RuntimeSnapshot :=
  let leases := core.table.activeLeases nowMs
  { leases := leases, counters := core.counters, pool := core.table.poolInfoFor leases.length }

theorem utilization_bounds (activeCount size : Nat) :
    0 ≤ utilization activeCount size ∧ utilization activeCount size ≤ 100 := by
  unfold utilization
  split
  · have share : (0 : ℚ) ≤ f64OfRat (activeCount / size) := f64OfRat_nonneg (by positivity)
    have whole : (0 : ℚ) ≤ f64OfRat (f64OfRat (activeCount / size) * 100) :=
      f64OfRat_nonneg (mul_nonneg share (by norm_num))
    exact ⟨le_min whole (by norm_num), min_le_right _ _⟩
  · norm_num

namespace PacketCounters

def requests (counters : PacketCounters) : List Nat :=
  [counters.discoverCount, counters.requestCount, counters.declineCount, counters.releaseCount,
    counters.informCount]

def replies (counters : PacketCounters) : List Nat :=
  [counters.packetsSent, counters.offerCount, counters.ackCount, counters.nakCount]

structure Answered (before after : PacketCounters) : Prop where
  received : after.packetsReceived = before.packetsReceived
  requests : after.requests = before.requests
  replies : List.Forall₂ (fun old new => new ≤ old + 1) before.replies after.replies

structure Served (before after : PacketCounters) : Prop where
  received : after.packetsReceived = before.packetsReceived
  requests : List.Forall₂ (fun old new => new ≤ old + 1) before.requests after.requests
  replies : List.Forall₂ (fun old new => new ≤ old + 1) before.replies after.replies

structure Sound (counters : PacketCounters) : Prop where
  requests : ∀ n ∈ counters.requests, n ≤ counters.packetsReceived
  replies : ∀ n ∈ counters.replies, n ≤ counters.packetsReceived

theorem forall₂_refl (counts : List Nat) : List.Forall₂ (fun old new => new ≤ old + 1) counts counts := by
  induction counts with
  | nil => exact .nil
  | cons n rest ih => exact .cons (Nat.le_succ n) ih

theorem Answered.refl (counters : PacketCounters) : Answered counters counters :=
  ⟨rfl, rfl, forall₂_refl _⟩

theorem Served.refl (counters : PacketCounters) : Served counters counters :=
  ⟨rfl, forall₂_refl _, forall₂_refl _⟩

theorem Answered.served {pre counted after : PacketCounters} (answered : Answered counted after)
    (received : counted.packetsReceived = pre.packetsReceived)
    (requests : List.Forall₂ (fun old new => new ≤ old + 1) pre.requests counted.requests)
    (replies : counted.replies = pre.replies) : Served pre after :=
  ⟨answered.received.trans received, answered.requests ▸ requests, replies ▸ answered.replies⟩

theorem Sound.grow {pre after : PacketCounters} (sound : Sound pre)
    (served : Served { pre with packetsReceived := pre.packetsReceived + 1 } after) : Sound after := by
  have bounded : ∀ {old new : List Nat}, (∀ n ∈ old, n ≤ pre.packetsReceived) →
      List.Forall₂ (fun old new => new ≤ old + 1) old new →
      ∀ n ∈ new, n ≤ after.packetsReceived := by
    intro old new bound grown
    rw [served.received]
    induction grown with
    | nil => simp
    | cons step _ ih =>
      intro n mem
      rcases List.mem_cons.mp mem with rfl | later
      · have first := bound _ List.mem_cons_self
        dsimp only
        omega
      · exact ih (fun m inside => bound m (List.mem_cons_of_mem _ inside)) n later
  exact ⟨bounded sound.requests served.requests, bounded sound.replies served.replies⟩

end PacketCounters

open PacketCounters

namespace DhcpCore

section

variable (core : DhcpCore)
include core

@[simp] theorem withTable_counters (table : LeaseTable) : (core.withTable table).counters = core.counters := rfl

@[simp] theorem markDirty_counters (env : Env) : (core.markDirty env).counters = core.counters := by
  unfold markDirty
  split
  · rfl
  · rfl

@[simp] theorem logNotice_counters (env : Env) (level : LogLevel) (text : String) :
    (core.logNotice env level text).1.counters = core.counters := by
  unfold logNotice
  split
  · rfl
  · rfl

@[simp] theorem reportExhausted_counters (mac : MacKey) (now : Nat) :
    (core.reportExhausted mac now).1.counters = core.counters := by
  unfold reportExhausted
  split
  · rfl
  · rfl

@[simp] theorem reportAvailable_counters : core.reportAvailable.1.counters = core.counters := by
  unfold reportAvailable
  split
  · rfl
  · rfl

@[simp] theorem persist_counters (env : Env) : (core.persist env).1.counters = core.counters := by
  simp only [persist]
  split
  · rfl
  · split
    · split
      · rfl
      · rfl
    · split
      · rfl
      · rfl

theorem tick_counters (env : Env) : (core.tick env).1.counters = core.counters := by
  simp only [tick]
  have flushed : core.flushSuppressedNotices.1.counters = core.counters := rfl
  generalize core.flushSuppressedNotices = flush at flushed ⊢
  generalize atSweep : (if (flush.1.table.expire env.now).2.isEmpty = true then _ else _) = sweep
  have swept : sweep.counters = core.counters := by
    rw [← atSweep, ← flushed]
    split
    · rfl
    · rw [markDirty_counters]
  split
  · exact (sweep.persist_counters env).trans swept
  · exact swept

theorem countSent_answered (env : Env) {bump : PacketCounters → PacketCounters}
    (one : Answered core.counters (bump { core.counters with
      packetsSent := core.counters.packetsSent + 1 })) :
    Answered core.counters (core.countSent env bump).counters := by
  unfold countSent
  split
  · exact one
  · exact .refl _

end

theorem countOffer_answered (counters : PacketCounters) :
    Answered counters (countOffer { counters with packetsSent := counters.packetsSent + 1 }) :=
  ⟨rfl, rfl, by simp [countOffer, PacketCounters.replies]⟩

theorem countAck_answered (counters : PacketCounters) :
    Answered counters (countAck { counters with packetsSent := counters.packetsSent + 1 }) :=
  ⟨rfl, rfl, by simp [countAck, PacketCounters.replies]⟩

section

variable (core : DhcpCore)
include core

theorem served_counted {bump : PacketCounters → PacketCounters} {start : DhcpCore} {after : PacketCounters}
    (atCount : core.count bump = start)
    (received : (bump core.counters).packetsReceived = core.counters.packetsReceived)
    (requests : List.Forall₂ (fun old new => new ≤ old + 1) core.counters.requests (bump core.counters).requests)
    (replies : (bump core.counters).replies = core.counters.replies) (answered : Answered start.counters after) :
    PacketCounters.Served core.counters after := by
  subst atCount
  exact answered.served received requests replies

section

variable (env : Env)
include env

theorem sendOffer_answered (msg : Message) (mac : MacKey) (vendor : Option Text) (addr : Ipv4Addr) :
    Answered core.counters (core.sendOffer env msg mac vendor addr).1.counters := by
  simp only [sendOffer]
  rw [← core.withTable_counters (core.table.offer mac addr (msg.options.text optionHostname) env.now)]
  split
  · exact .refl _
  · rw [logNotice_counters]
    exact countSent_answered _ env (countOffer_answered _)

theorem sendNak_answered (msg : Message) (mac : MacKey) (reason : String) :
    Answered core.counters (core.sendNak env msg mac reason).1.counters := by
  simp only [sendNak]
  split
  · exact .refl _
  · rw [logNotice_counters]
    exact countSent_answered core env ⟨rfl, rfl, by simp [PacketCounters.replies]⟩

theorem acknowledge_answered (msg : Message) (mac : MacKey) (vendor : Option Text) (addr : Ipv4Addr) :
    Answered core.counters (core.acknowledge env msg mac vendor addr).1.counters := by
  simp only [acknowledge]
  have same : ∀ table : LeaseTable, ((core.withTable table).markDirty env).counters = core.counters :=
    fun table => by rw [markDirty_counters, withTable_counters]
  split
  · rw [same]
    exact .refl _
  · rw [← same]
    exact countSent_answered _ env (countAck_answered _)

theorem handleDiscover_served (msg : Message) (mac : MacKey) (vendor : Option Text) :
    PacketCounters.Served core.counters
      (core.handleDiscover env msg mac vendor).1.counters := by
  simp only [handleDiscover]
  generalize atCount : core.count _ = start
  refine core.served_counted atCount rfl (by simp [requests]) rfl ?_
  split
  · rw [reportExhausted_counters]
    exact .refl _
  · have available := start.reportAvailable_counters
    generalize start.reportAvailable = noted at available ⊢
    rw [← available]
    split
    · rw [logNotice_counters]
      exact .refl _
    · exact noted.1.sendOffer_answered env msg mac vendor _

theorem releaseForOther_counters (mac : MacKey) (chosen : Ipv4Addr) :
    (core.releaseForOther env mac chosen).1.counters = core.counters := by
  unfold releaseForOther
  split
  · rfl
  · rw [markDirty_counters, withTable_counters]

theorem handleRequest_served (msg : Message) (mac : MacKey) (vendor : Option Text) :
    PacketCounters.Served core.counters (core.handleRequest env msg mac vendor).1.counters := by
  simp only [handleRequest]
  generalize atCount : core.count _ = start
  refine core.served_counted atCount rfl (by simp [requests]) rfl ?_
  split
  · rw [releaseForOther_counters]
    exact .refl _
  · split
    · exact ⟨rfl, rfl, forall₂_refl _⟩
    · split
      · exact start.sendNak_answered env msg mac _
      · split
        · exact start.sendNak_answered env msg mac _
        · exact start.acknowledge_answered env msg mac vendor _
      · exact start.acknowledge_answered env msg mac vendor _

theorem handleRelease_served (msg : Message) (mac : MacKey) :
    PacketCounters.Served core.counters (core.handleRelease env msg mac).1.counters := by
  simp only [handleRelease]
  have counted : PacketCounters.Served core.counters { core.counters with
      releaseCount := core.counters.releaseCount + 1 } :=
    ⟨rfl, by simp [requests], forall₂_refl _⟩
  split
  · exact counted
  · split
    · exact counted
    · split
      · exact counted
      · rw [markDirty_counters]
        exact counted

theorem handleDecline_served (msg : Message) (mac : MacKey) :
    PacketCounters.Served core.counters (core.handleDecline env msg mac).1.counters := by
  simp only [handleDecline]
  have counted : PacketCounters.Served core.counters { core.counters with
      declineCount := core.counters.declineCount + 1 } :=
    ⟨rfl, by simp [requests], forall₂_refl _⟩
  split
  · exact counted
  · split
    · exact counted
    · split
      · exact counted
      · rw [markDirty_counters]
        exact counted

theorem handleInform_served (msg : Message) (mac : MacKey) (vendor : Option Text) :
    PacketCounters.Served core.counters (core.handleInform env msg mac vendor).1.counters := by
  simp only [handleInform]
  generalize atCount : core.count _ = start
  refine core.served_counted atCount rfl (by simp [requests]) rfl ?_
  split
  · exact .refl _
  · exact countSent_answered _ env (countAck_answered _)

theorem dispatch_served (peer : SocketAddr) (msg : Message) (mac : MacKey) (kind : MessageType)
    (vendor : Option Text) : PacketCounters.Served core.counters
      (core.dispatch env peer msg mac kind vendor).1.counters := by
  cases kind with
  | discover => exact core.handleDiscover_served env msg mac vendor
  | request => exact core.handleRequest_served env msg mac vendor
  | release => exact core.handleRelease_served env msg mac
  | decline => exact core.handleDecline_served env msg mac
  | inform => exact core.handleInform_served env msg mac vendor
  | offer | ack | nak => exact .refl _

theorem handleDecoded_served (peer : SocketAddr) (msg : Message) :
    PacketCounters.Served core.counters (core.handleDecoded env peer msg).1.counters := by
  simp only [handleDecoded]
  split
  · exact .refl _
  · split
    · exact .refl _
    · generalize atNotice : core.logNotice env .debug _ = noted
      have same : noted.1.counters = core.counters := by rw [← atNotice, logNotice_counters]
      rw [← same]
      split
      · rw [logNotice_counters]
        exact .refl _
      · exact noted.1.dispatch_served env peer msg _ _ _

end

end

theorem step_counters {core : DhcpCore} (sound : core.counters.Sound) (input : Input) :
    (core.step input).1.counters.Sound := by
  cases input with
  | tick env => exact (core.tick_counters env).symm ▸ sound
  | message env buf peer =>
    simp only [step, handleMessage]
    generalize atCount : core.count _ = start
    have counted : start.counters = { core.counters with
        packetsReceived := core.counters.packetsReceived + 1 } := by rw [← atCount]; rfl
    refine sound.grow (counted ▸ ?_)
    split
    · exact ⟨rfl, forall₂_refl _, forall₂_refl _⟩
    · exact start.handleDecoded_served env peer _

end DhcpCore

/-- In every run no count exceeds the packets received. -/
theorem Runs.counters {opts : EngineOptions} {store : LeaseStore} {events : List (Event DhcpCore Input)}
    {core : DhcpCore} {time : Nat} (run : Runs opts store events core time) : core.counters.Sound := by
  obtain ⟨restoreMs, seedMs, _, run⟩ := run
  refine run.invariant (fun _ => True) (fun core _ => core.counters.Sound) ?_ ?_ ?_ ?_
  · constructor <;> simp [DhcpCore.new, PacketCounters.requests, PacketCounters.replies]
  · exact fun _ _ _ _ sound => sound
  · exact fun event _ sound => event.before.step_counters sound event.input
  · exact fun _ _ => trivial

end NexTerminal.Dhcp
