import NexTerminal.Dhcp.Reply
import NexTerminal.Dhcp.TableInvariant
import NexTerminal.Library.Runs

namespace NexTerminal.Dhcp

open Std Library

inductive Input
  | message (env : Env) (buf : Bytes) (peer : SocketAddr)
  | tick (env : Env)

namespace Input

def env : Input → Env
  | .message env _ _ => env
  | .tick env => env

def now (input : Input) : Nat := input.env.now

def request : Input → Option (Message × MessageType)
  | .tick _ => none
  | .message _ buf _ =>
    match Message.decode buf with
    | .error _ => none
    | .ok request =>
      if request.op ≠ opBootrequest then none
      else request.options.messageType.map fun kind => (request, kind)

def kind (input : Input) : Option MessageType := input.request.map Prod.snd

theorem kind_of_request {input : Input} {msg : Message} {kind : MessageType}
    (req : input.request = some (msg, kind)) : input.kind = some kind := by
  rw [Input.kind, req]
  rfl

end Input

def DhcpCore.step (core : DhcpCore) : Input → DhcpCore × List Output
  | .message env buf peer => core.handleMessage env buf peer
  | .tick env => core.tick env

def server : TimedSystem DhcpCore Input Output where
  step := DhcpCore.step
  clock := Input.now

def LeaseTable.config (table : LeaseTable) : LeaseTable := { table with entries := ∅, quarantine := ∅ }

theorem LeaseTable.config_inPool {table next : LeaseTable} (same : next.config = table.config) :
    next.statics = table.statics ∧ next.inPool = table.inPool := by
  simp only [LeaseTable.config, LeaseTable.mk.injEq, true_and] at same
  obtain ⟨statics, start, stop, _⟩ := same
  refine ⟨statics, funext fun addr => ?_⟩
  rw [LeaseTable.inPool, start, stop, LeaseTable.inPool]

structure Settings where
  dns : List Ipv4Addr
  serverId : Ipv4Addr
  leaseSecs : Nat
  leaseStorePath : Option Text
  table : LeaseTable

def DhcpCore.settings (core : DhcpCore) : Settings where
  dns := core.dns
  serverId := core.serverId
  leaseSecs := core.leaseSecs
  leaseStorePath := core.leaseStorePath
  table := core.table.config

/-- What serving one request does to the table, and the replies it sends. -/
inductive Served (table : LeaseTable) (serverId : Ipv4Addr) (now : Nat) (message : Message) :
    MessageType → LeaseTable → List Reply → Prop
  | silent {kind} : Served table serverId now message kind table []
  | offered {address reply}
      (chosen : table.selectAddress message.hardwareKey (message.options.ipv4 optionRequestedIp) now
        = some address)
      (sent : reply.Carries .offer message address) :
      Served table serverId now message .discover
        (table.offer message.hardwareKey address (message.options.text optionHostname) now) [reply]
  | refused {reply} (nak : reply.kind = .nak) : Served table serverId now message .request table [reply]
  | acknowledged {address reply}
      (ours : message.selectsOther serverId = none)
      (named : message.requestedAddress = some address ∨
        message.requestedAddress = none ∧ table.grantedAddress message.hardwareKey now = some address)
      (chosen : table.selectAddress message.hardwareKey (message.requestedAddress) now = some address)
      (sent : reply.Carries .ack message address) :
      Served table serverId now message .request
        (table.bind message.hardwareKey address (message.options.text optionHostname) now).1 [reply]
  | left {chosen} (other : message.selectsOther serverId = some chosen) :
      Served table serverId now message .request (table.releaseAny message.hardwareKey now).1 []
  | released (ours : message.options.ipv4 optionServerId = some serverId) :
      Served table serverId now message .release
        (table.release message.hardwareKey message.ciaddr now).1 []
  | declined {address} (ours : message.options.ipv4 optionServerId = some serverId)
      (named : message.options.ipv4 optionRequestedIp = some address) :
      Served table serverId now message .decline
        (table.decline message.hardwareKey address now).1 []
  | informed {reply} (sent : reply.Carries .ack message .unspecified) :
      Served table serverId now message .inform table [reply]

inductive Effect (core : DhcpCore) : Input → LeaseTable → List Reply → Prop
  | ignored {input} : Effect core input core.table []
  | served {input message kind table sent} (request : input.request = some (message, kind))
      (served : Served core.table core.serverId input.now message kind table sent) :
      Effect core input table sent
  | swept {env} : Effect core (.tick env) (core.table.expire env.now).1 []

theorem LeaseTable.releaseAny_config (table : LeaseTable) (mac : MacKey) (now : Nat) :
    (table.releaseAny mac now).1.config = table.config := by
  obtain ⟨entries, same⟩ := table.releaseAny_settings mac now
  rw [same]
  rfl

theorem LeaseTable.release_config (table : LeaseTable) (mac : MacKey) (addr : Ipv4Addr) (now : Nat) :
    (table.release mac addr now).1.config = table.config := by
  unfold LeaseTable.release
  split
  · rfl
  · exact table.releaseAny_config mac now

theorem LeaseTable.decline_config (table : LeaseTable) (mac : MacKey) (addr : Ipv4Addr) (now : Nat) :
    (table.decline mac addr now).1.config = table.config := by
  unfold LeaseTable.decline
  split
  · rfl
  · split
    · rfl
    · rfl

theorem LeaseTable.expire_config (table : LeaseTable) (now : Nat) : (table.expire now).1.config = table.config := by
  simp only [LeaseTable.expire]
  split
  · rfl
  · rfl

namespace DhcpCore

variable {core : DhcpCore}

@[simp] theorem count_table (core : DhcpCore) (bump : PacketCounters → PacketCounters) :
    (core.count bump).table = core.table := rfl

@[simp] theorem withTable_table (core : DhcpCore) (table : LeaseTable) : (core.withTable table).table = table := rfl

theorem withTable_settings {table : LeaseTable} (same : table.config = core.table.config) :
    (core.withTable table).settings = core.settings := by
  simp [settings, withTable, same]

@[simp] theorem markDirty_table (core : DhcpCore) (env : Env) : (core.markDirty env).table = core.table := by
  unfold markDirty
  split
  · rfl
  · rfl

@[simp] theorem markDirty_settings (core : DhcpCore) (env : Env) : (core.markDirty env).settings = core.settings := by
  unfold markDirty
  split
  · rfl
  · rfl

@[simp] theorem countSent_table (core : DhcpCore) (env : Env) (bump : PacketCounters → PacketCounters) :
    (core.countSent env bump).table = core.table := by
  unfold countSent
  split
  · rfl
  · rfl

@[simp] theorem countSent_settings (core : DhcpCore) (env : Env)
    (bump : PacketCounters → PacketCounters) : (core.countSent env bump).settings = core.settings := by
  unfold countSent
  split
  · rfl
  · rfl

structure Quiet (core : DhcpCore) (result : DhcpCore × List Output) : Prop where
  table : result.1.table = core.table
  settings : result.1.settings = core.settings
  silent : replies result.2 = []

theorem logNotice_quiet (core : DhcpCore) (env : Env) (level : LogLevel) (text : String) :
    core.Quiet (core.logNotice env level text) := by
  unfold logNotice
  split
  · exact ⟨rfl, rfl, rfl⟩
  · exact ⟨rfl, rfl, rfl⟩

theorem reportExhausted_quiet (core : DhcpCore) (mac : MacKey) (now : Nat) :
    core.Quiet (core.reportExhausted mac now) := by
  unfold reportExhausted
  split
  · exact ⟨rfl, rfl, rfl⟩
  · exact ⟨rfl, rfl, rfl⟩

theorem reportAvailable_quiet (core : DhcpCore) : core.Quiet core.reportAvailable := by
  unfold reportAvailable
  split
  · exact ⟨rfl, rfl, rfl⟩
  · exact ⟨rfl, rfl, rfl⟩

theorem flushSuppressedNotices_quiet (core : DhcpCore) : core.Quiet core.flushSuppressedNotices := by
  refine ⟨rfl, rfl, ?_⟩
  unfold flushSuppressedNotices
  split
  · rfl
  · rfl

theorem persist_quiet (core : DhcpCore) (env : Env) : core.Quiet (core.persist env) := by
  simp only [persist]
  split
  · exact ⟨rfl, rfl, rfl⟩
  · split
    · split
      · exact ⟨rfl, rfl, rfl⟩
      · exact ⟨rfl, rfl, rfl⟩
    · split
      · exact ⟨rfl, rfl, rfl⟩
      · exact ⟨rfl, rfl, rfl⟩

structure Answers (core : DhcpCore) (now : Nat) (message : Message) (kind : MessageType)
    (result : DhcpCore × List Output) : Prop where
  served : Served core.table core.serverId now message kind result.1.table (replies result.2)
  settings : result.1.settings = core.settings

variable {result : DhcpCore × List Output}

theorem Quiet.answers (quiet : core.Quiet result) (now : Nat) (msg : Message) (kind : MessageType) :
    core.Answers now msg kind result := by
  refine ⟨?_, quiet.settings⟩
  rw [quiet.table, quiet.silent]
  exact .silent

theorem sendOffer_table (core : DhcpCore) (env : Env) (msg : Message) (mac : MacKey)
    (vendor : Option Text) (addr : Ipv4Addr) :
    (core.sendOffer env msg mac vendor addr).1.table =
      core.table.offer mac addr (msg.options.text optionHostname) env.now := by
  simp only [sendOffer]
  split
  · rfl
  · rw [(logNotice_quiet _ env _ _).table, countSent_table]
    rfl

theorem sendOffer_settings (core : DhcpCore) (env : Env) (msg : Message) (mac : MacKey)
    (vendor : Option Text) (addr : Ipv4Addr) :
    (core.sendOffer env msg mac vendor addr).1.settings = core.settings := by
  simp only [sendOffer]
  split
  · exact withTable_settings rfl
  · rw [(logNotice_quiet _ env _ _).settings, countSent_settings]
    exact withTable_settings rfl

theorem sendOffer_sends (fits : core.dns.length * 4 ≤ maxOptionValueBytes) (env : Env) (msg : Message)
    (mac : MacKey) (vendor : Option Text) (address : Ipv4Addr) :
    ∃ reply, replies (core.sendOffer env msg mac vendor address).2 = [reply] ∧
      reply.Carries .offer msg address := by
  simp only [sendOffer]
  generalize held : core.withTable _ = holding
  have fits' : holding.dns.length * 4 ≤ maxOptionValueBytes := by rw [← held]; exact fits
  obtain ⟨reply, built, run, silent, carries⟩ := buildReply_spec fits' msg .offer (some address) vendor
  rw [run]
  have quiet := (holding.countSent env countOffer).logNotice_quiet env .info
    s!"OFFER {address.display} to {mac}"
  refine ⟨reply, ?_, carries⟩
  simp [silent, replies_send, quiet.silent]

theorem sendOffer_answers (fits : core.dns.length * 4 ≤ maxOptionValueBytes) (env : Env) (msg : Message)
    (vendor : Option Text) {addr : Ipv4Addr}
    (chosen : core.table.selectAddress msg.hardwareKey (msg.options.ipv4 optionRequestedIp)
      env.now = some addr) : core.Answers env.now msg .discover
      (core.sendOffer env msg msg.hardwareKey vendor addr) := by
  refine ⟨?_, core.sendOffer_settings env msg msg.hardwareKey vendor addr⟩
  obtain ⟨reply, sent, carries⟩ := sendOffer_sends fits env msg msg.hardwareKey vendor addr
  rw [sendOffer_table, sent]
  exact .offered chosen carries

variable {kind : MessageType}

theorem Answers.of_same {start : DhcpCore} (table : start.table = core.table)
    (settings : start.settings = core.settings) {now : Nat} {msg : Message}
    (answers : start.Answers now msg kind result) : core.Answers now msg kind result := by
  have serverId : start.serverId = core.serverId := congrArg Settings.serverId settings
  exact ⟨table ▸ serverId ▸ answers.served, answers.settings.trans settings⟩

theorem Answers.after {now : Nat} {msg : Message} {pre : List Output}
    (answers : core.Answers now msg kind result) (silent : replies pre = []) :
    core.Answers now msg kind (result.1, pre ++ result.2) := by
  refine ⟨?_, answers.settings⟩
  rw [replies_append, silent, List.nil_append]
  exact answers.served

theorem counted_same {bump : PacketCounters → PacketCounters} {start : DhcpCore} (counted : core.count bump = start)
    (fits : core.dns.length * 4 ≤ maxOptionValueBytes) :
    start.table = core.table ∧ start.settings = core.settings ∧
      start.dns.length * 4 ≤ maxOptionValueBytes := by
  subst counted
  exact ⟨rfl, rfl, fits⟩

theorem handleDiscover_answers (fits : core.dns.length * 4 ≤ maxOptionValueBytes) (env : Env) (msg : Message)
    (vendor : Option Text) : core.Answers env.now msg .discover
      (core.handleDiscover env msg msg.hardwareKey vendor) := by
  simp only [handleDiscover]
  generalize counted : core.count _ = start
  obtain ⟨table, settings, fits⟩ := counted_same counted fits
  refine Answers.of_same table settings ?_
  split
  · exact (start.reportExhausted_quiet _ _).answers _ _ _
  · rename_i addr chosen
    have available := start.reportAvailable_quiet
    generalize start.reportAvailable = noted at available ⊢
    have fits : noted.1.dns.length * 4 ≤ maxOptionValueBytes :=
      (show noted.1.dns = start.dns from congrArg Settings.dns available.settings) ▸ fits
    refine Answers.of_same available.table available.settings (Answers.after ?_ available.silent)
    split
    · exact (noted.1.logNotice_quiet env _ _).answers _ _ _
    · exact sendOffer_answers fits env msg vendor (available.table ▸ chosen)

theorem sendNak_answers (core : DhcpCore) (env : Env) (msg : Message) (reason : String) :
    core.Answers env.now msg .request
      (core.sendNak env msg msg.hardwareKey reason) := by
  simp only [sendNak]
  split
  · exact ⟨.silent, rfl⟩
  · have quiet := (core.countSent env fun counters =>
      { counters with nakCount := counters.nakCount + 1 }).logNotice_quiet env .info
        s!"NAK to {msg.hardwareKey}: {reason}"
    refine ⟨?_, quiet.settings.trans (by rw [countSent_settings])⟩
    simp only [quiet.table, countSent_table, replies_append, replies_send, quiet.silent]
    exact .refused rfl

theorem replies_announceBind (core : DhcpCore) (mac : MacKey) (addr : Ipv4Addr)
    (outcome : BindOutcome) (now : Nat) : replies (core.announceBind mac addr outcome now) = [] := by
  unfold announceBind
  split
  · rfl
  · rfl

theorem acknowledge_answers (fits : core.dns.length * 4 ≤ maxOptionValueBytes) (env : Env) (msg : Message)
    (vendor : Option Text) {addr : Ipv4Addr} (ours : msg.selectsOther core.serverId = none)
    (named : msg.requestedAddress = some addr ∨
      msg.requestedAddress = none ∧ core.table.grantedAddress msg.hardwareKey env.now = some addr)
    (chosen : core.table.selectAddress msg.hardwareKey msg.requestedAddress env.now
      = some addr) : core.Answers env.now msg .request
      (core.acknowledge env msg msg.hardwareKey vendor addr) := by
  simp only [acknowledge]
  generalize held : (core.withTable _).markDirty env = binding
  have table : binding.table = (core.table.bind msg.hardwareKey addr
      (msg.options.text optionHostname) env.now).1 := by rw [← held, markDirty_table]; rfl
  have settings : binding.settings = core.settings := by
    rw [← held, markDirty_settings]
    exact withTable_settings rfl
  have fits : binding.dns.length * 4 ≤ maxOptionValueBytes :=
    (show binding.dns = core.dns from congrArg Settings.dns settings) ▸ fits
  obtain ⟨reply, built, run, silent, carries⟩ := buildReply_spec fits msg .ack (some addr) vendor
  rw [run]
  refine ⟨?_, by simp [settings]⟩
  simp only [countSent_table, table, replies_append, silent, replies_send, replies_announceBind]
  exact .acknowledged ours named chosen carries

theorem releaseForOther_answers (core : DhcpCore) (env : Env) (msg : Message) {chosen : Ipv4Addr}
    (other : msg.selectsOther core.serverId = some chosen) :
    core.Answers env.now msg .request
      (core.releaseForOther env msg.hardwareKey chosen) := by
  simp only [releaseForOther]
  have left : Served core.table core.serverId env.now msg .request
      (core.table.releaseAny msg.hardwareKey env.now).1 [] := .left other
  have cfg := core.table.releaseAny_config msg.hardwareKey env.now
  generalize core.table.releaseAny msg.hardwareKey env.now = outcome at left cfg ⊢
  obtain ⟨table, freed⟩ := outcome
  cases freed with
  | none => exact ⟨.silent, rfl⟩
  | some freed =>
    refine ⟨?_, by rw [markDirty_settings]; exact withTable_settings cfg⟩
    rw [markDirty_table]
    exact left

theorem handleRequest_answers (fits : core.dns.length * 4 ≤ maxOptionValueBytes) (env : Env) (msg : Message)
    (vendor : Option Text) : core.Answers env.now msg .request
      (core.handleRequest env msg msg.hardwareKey vendor) := by
  simp only [handleRequest]
  generalize counted : core.count _ = start
  obtain ⟨table, settings, fits⟩ := counted_same counted fits
  refine Answers.of_same table settings ?_
  split
  · rename_i chosen other
    exact start.releaseForOther_answers env msg other
  · rename_i ours
    split
    · exact ⟨.silent, rfl⟩
    · rename_i addressed
      split
      · exact start.sendNak_answers env msg _
      · rename_i wanted available named chosen
        split
        · exact start.sendNak_answers env msg _
        · rename_i same
          rw [not_not] at same
          subst same
          exact acknowledge_answers fits env msg vendor ours (.inl named) (named ▸ chosen)
      · rename_i available unnamed chosen
        rw [unnamed, Option.isNone_none, Bool.true_and, Option.isNone_iff_eq_none] at addressed
        obtain ⟨granted, recorded⟩ := Option.ne_none_iff_exists'.mp addressed
        have same := (LeaseTable.selectAddress_of_granted msg.requestedAddress recorded).symm.trans chosen
        rw [Option.some.injEq] at same
        subst same
        exact acknowledge_answers fits env msg vendor ours (.inr ⟨unnamed, recorded⟩)
          chosen

theorem handleRelease_answers (core : DhcpCore) (env : Env) (msg : Message) :
    core.Answers env.now msg .release (core.handleRelease env msg msg.hardwareKey) := by
  simp only [handleRelease]
  split
  · exact ⟨.silent, rfl⟩
  · rename_i ours
    rw [not_not] at ours
    split
    · exact ⟨.silent, rfl⟩
    · have released : Served core.table core.serverId env.now msg .release
          (core.table.release msg.hardwareKey msg.ciaddr env.now).1 [] := .released ours
      have cfg := core.table.release_config msg.hardwareKey msg.ciaddr env.now
      rw [count_table]
      generalize core.table.release msg.hardwareKey msg.ciaddr env.now = outcome
        at released cfg ⊢
      obtain ⟨table, freed⟩ := outcome
      cases freed with
      | none => exact ⟨.silent, rfl⟩
      | some freed =>
        refine ⟨?_, by rw [markDirty_settings]; exact withTable_settings cfg⟩
        rw [markDirty_table]
        exact released

theorem handleDecline_answers (core : DhcpCore) (env : Env) (msg : Message) :
    core.Answers env.now msg .decline (core.handleDecline env msg msg.hardwareKey) := by
  simp only [handleDecline]
  split
  · exact ⟨.silent, rfl⟩
  · rename_i ours
    rw [not_not] at ours
    split
    · exact ⟨.silent, rfl⟩
    · rename_i addr named
      have declined : Served core.table core.serverId env.now msg .decline
          (core.table.decline msg.hardwareKey addr env.now).1 [] := .declined ours named
      have cfg := core.table.decline_config msg.hardwareKey addr env.now
      rw [count_table]
      generalize core.table.decline msg.hardwareKey addr env.now = outcome
        at declined cfg ⊢
      obtain ⟨table, freed⟩ := outcome
      cases freed with
      | none => exact ⟨.silent, rfl⟩
      | some freed =>
        refine ⟨?_, by rw [markDirty_settings]; exact withTable_settings cfg⟩
        rw [markDirty_table]
        exact declined

section

variable (fits : core.dns.length * 4 ≤ maxOptionValueBytes)
include fits

theorem handleInform_answers (env : Env) (msg : Message) (vendor : Option Text) :
    core.Answers env.now msg .inform
      (core.handleInform env msg msg.hardwareKey vendor) := by
  simp only [handleInform]
  generalize counted : core.count _ = start
  obtain ⟨table, settings, fits⟩ := counted_same counted fits
  refine Answers.of_same table settings ?_
  obtain ⟨reply, built, run, silent, carries⟩ := buildReply_spec fits msg .ack none vendor
  rw [run]
  refine ⟨?_, by simp⟩
  simp only [countSent_table, replies_append, silent, replies_send]
  exact .informed carries

theorem dispatch_answers (env : Env) (peer : SocketAddr) (msg : Message) (kind : MessageType)
    (vendor : Option Text) : core.Answers env.now msg kind
      (core.dispatch env peer msg msg.hardwareKey kind vendor) := by
  cases kind with
  | discover => exact handleDiscover_answers fits env msg vendor
  | request => exact handleRequest_answers fits env msg vendor
  | release => exact core.handleRelease_answers env msg
  | decline => exact core.handleDecline_answers env msg
  | inform => exact handleInform_answers fits env msg vendor
  | offer | ack | nak => exact ⟨.silent, rfl⟩

theorem handleDecoded_answers (env : Env) (peer : SocketAddr) (msg : Message)
    (req : msg.op = opBootrequest) (typed : msg.options.messageType = some kind) :
    core.Answers env.now msg kind (core.handleDecoded env peer msg) := by
  simp only [handleDecoded, req, ne_eq, not_true_eq_false, if_false, typed]
  generalize atNotice : core.logNotice env .debug _ = noted
  have quiet : core.Quiet noted := atNotice ▸ core.logNotice_quiet env .debug _
  have fits : noted.1.dns.length * 4 ≤ maxOptionValueBytes :=
    (show noted.1.dns = core.dns from congrArg Settings.dns quiet.settings) ▸ fits
  refine Answers.of_same quiet.table quiet.settings ?_
  split
  · exact Answers.after ((noted.1.logNotice_quiet env _ _).answers _ _ _) quiet.silent
  · exact Answers.after (dispatch_answers fits env peer msg kind _) quiet.silent

end

theorem handleDecoded_quiet (core : DhcpCore) (env : Env) (peer : SocketAddr) (msg : Message)
    (ignored : msg.op ≠ opBootrequest ∨ msg.options.messageType = none) :
    core.Quiet (core.handleDecoded env peer msg) := by
  simp only [handleDecoded]
  split
  · exact ⟨rfl, rfl, rfl⟩
  · rename_i req
    rw [not_not] at req
    rw [ignored.resolve_left (not_not.mpr req)]
    exact ⟨rfl, rfl, rfl⟩

theorem rejectDatagram_quiet (core : DhcpCore) (peer : SocketAddr) (error : DecodeError) :
    core.Quiet (core.rejectDatagram peer error) := by
  refine ⟨rfl, rfl, ?_⟩
  cases error with
  | optionTruncated code declared available | _ => rfl

theorem replies_expiry (expired : List (MacKey × Ipv4Addr)) : replies (expired.flatMap expiryOutputs) = [] := by
  induction expired with
  | nil => rfl
  | cons lapsed rest ih => rw [List.flatMap_cons, replies_append, ih]; rfl

theorem tick_swept (core : DhcpCore) (env : Env) :
    (core.tick env).1.table = (core.table.expire env.now).1 ∧
      (core.tick env).1.settings = core.settings ∧ replies (core.tick env).2 = [] := by
  simp only [tick]
  have flushed := core.flushSuppressedNotices_quiet
  rw [flushed.table]
  generalize atSweep : (if (core.table.expire env.now).2.isEmpty = true then _ else _) = sweep
  have table : sweep.table = (core.table.expire env.now).1 := by
    rw [← atSweep]
    split
    · rfl
    · rw [markDirty_table]
  have settings : sweep.settings = core.settings := by
    rw [← atSweep, ← flushed.settings]
    split
    · exact withTable_settings (by rw [flushed.table, LeaseTable.expire_config])
    · rw [markDirty_settings]
      exact withTable_settings (by rw [flushed.table, LeaseTable.expire_config])
  have persisted := sweep.persist_quiet env
  split
  · exact ⟨persisted.table.trans table, persisted.settings.trans settings,
      by simp [flushed.silent, replies_expiry, persisted.silent]⟩
  · exact ⟨table, settings,
      by simp [flushed.silent, replies_expiry]⟩

theorem step_effect (fits : core.dns.length * 4 ≤ maxOptionValueBytes) (input : Input) :
    Effect core input (core.step input).1.table (replies (core.step input).2) ∧
      (core.step input).1.settings = core.settings := by
  cases input with
  | tick env =>
    obtain ⟨table, settings, silent⟩ := core.tick_swept env
    refine ⟨?_, settings⟩
    rw [step, table, silent]
    exact .swept
  | message env buf peer =>
    simp only [step, handleMessage]
    generalize counted : core.count _ = start
    obtain ⟨table, settings, fits⟩ := counted_same counted fits
    have quietly : ∀ result, start.Quiet result →
        Effect core (.message env buf peer) result.1.table (replies result.2) ∧
          result.1.settings = core.settings := by
      intro result quiet
      rw [quiet.table, table, quiet.silent]
      exact ⟨.ignored, quiet.settings.trans settings⟩
    split
    · rename_i error _
      exact quietly _ (start.rejectDatagram_quiet peer error)
    · rename_i message decoded
      by_cases req : message.op = opBootrequest
      · cases typed : message.options.messageType with
        | none => exact quietly _ (start.handleDecoded_quiet env peer message (.inr typed))
        | some kind =>
          have answers := Answers.of_same table settings
            (handleDecoded_answers fits env peer message req typed)
          refine ⟨.served ?_ answers.served, answers.settings⟩
          simp [Input.request, decoded, req, typed]
      · exact quietly _ (start.handleDecoded_quiet env peer message (.inl req))

end DhcpCore

end NexTerminal.Dhcp
