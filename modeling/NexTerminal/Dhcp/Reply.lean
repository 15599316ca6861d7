import NexTerminal.Dhcp.Engine

namespace NexTerminal.Dhcp

open Std

namespace OptionsBuilder

def Writes (builder : OptionsBuilder Unit) : Prop := ∀ buf, ∃ out, builder.run buf = (.ok (), out)

theorem Writes.andThen {first : OptionsBuilder Unit} {next : Unit → OptionsBuilder Unit}
    (writes : Writes first) (later : Writes (next ())) : Writes (first >>= next) := by
  intro buf
  obtain ⟨mid, run⟩ := writes buf
  obtain ⟨out, run'⟩ := later mid
  refine ⟨out, ?_⟩
  have step : (first.run >>= ExceptT.bindCont next) buf = ExceptT.bindCont next (.ok ()) mid :=
    congrArg (fun res : Except EncodeError Unit × Bytes => ExceptT.bindCont next res.1 res.2) run
  exact step.trans run'

theorem writes_pure : Writes (pure ()) := fun buf => ⟨buf, rfl⟩

theorem writes_put {code : UInt8} {value : Bytes} (plain : code ≠ optionPad ∧ code ≠ optionEnd)
    (fits : value.length ≤ maxOptionValueBytes) : Writes (put code value) := by
  intro buf
  refine ⟨buf ++ [code, .ofNat value.length] ++ value, ?_⟩
  have short : ¬ value.length > maxOptionValueBytes := Nat.not_lt.mpr fits
  unfold put
  rw [if_neg (by simp [plain]), if_neg short]
  rfl

theorem writes_putU8 (code value : UInt8) (plain : code ≠ optionPad ∧ code ≠ optionEnd) :
    Writes (putU8 code value) :=
  writes_put plain (by simp [maxOptionValueBytes])

theorem writes_putIpv4 (code : UInt8) (value : Ipv4Addr)
    (plain : code ≠ optionPad ∧ code ≠ optionEnd) : Writes (putIpv4 code value) :=
  writes_put plain (by simp [Ipv4Addr.octets, maxOptionValueBytes])

theorem writes_putU32 (code : UInt8) (value : Nat) (plain : code ≠ optionPad ∧ code ≠ optionEnd) :
    Writes (putU32 code value) :=
  writes_put plain (by simp [toBeBytes, maxOptionValueBytes])

theorem writes_putIpv4List (code : UInt8) (values : List Ipv4Addr) (plain : code ≠ optionPad ∧ code ≠ optionEnd)
    (fits : values.length * 4 ≤ maxOptionValueBytes) : Writes (putIpv4List code values) := by
  have len : (values.flatMap Ipv4Addr.octets).length = values.length * 4 := by
    simp [Ipv4Addr.octets]
  have short : ¬ values.length * 4 > maxOptionValueBytes := Nat.not_lt.mpr fits
  unfold putIpv4List
  split
  · exact writes_pure
  · exact writes_put plain (len ▸ fits)

end OptionsBuilder

namespace DhcpCore

open OptionsBuilder

theorem writes_leaseTimeOptions (core : DhcpCore) : Writes core.leaseTimeOptions :=
  (writes_putU32 optionLeaseTime _ (by decide)).andThen
    ((writes_putU32 optionRenewalTime _ (by decide)).andThen
      (writes_putU32 optionRebindingTime _ (by decide)))

theorem writes_networkOptions {core : DhcpCore} (fits : core.dns.length * 4 ≤ maxOptionValueBytes) :
    Writes core.networkOptions := by
  refine (writes_putIpv4 optionSubnetMask _ (by decide)).andThen
    ((writes_putIpv4 optionRouter _ (by decide)).andThen ?_)
  have broadcast := writes_putIpv4 optionBroadcast core.broadcast (by decide)
  split
  · exact (writes_putIpv4List optionDns _ (by decide) fits).andThen broadcast
  · exact broadcast

theorem writes_replyOptions {core : DhcpCore} (fits : core.dns.length * 4 ≤ maxOptionValueBytes)
    (kind : MessageType) (granting : Bool) : Writes (core.replyOptions kind granting) := by
  refine (writes_putU8 optionMessageType _ (by decide)).andThen
    ((writes_putIpv4 optionServerId _ (by decide)).andThen ?_)
  split
  · exact core.writes_leaseTimeOptions.andThen (writes_networkOptions fits)
  · exact writes_networkOptions fits

end DhcpCore

@[simp] theorem replies_append (first rest : List Output) : replies (first ++ rest) = replies first ++ replies rest :=
  List.filterMap_append

structure Reply.Carries (reply : Reply) (kind : MessageType) (message : Message) (address : Ipv4Addr) :
    Prop where
  kind_eq : reply.kind = kind
  yiaddr_eq : reply.header.yiaddr = address
  chaddr_eq : reply.header.chaddr = message.chaddr

namespace DhcpCore

theorem replies_send (env : Env) (peer : SocketAddr) (reply : Reply) : replies (send env peer reply) = [reply] := by
  unfold send
  split
  · rfl
  · rfl

theorem replies_bootOmitted (written : Except EncodeError Bool) : replies (bootOmitted written) = [] := by
  cases written with
  | ok _ | error _ => rfl

/-- The reply that is built carries what it should, and sends nothing yet. -/
theorem buildReply_spec {core : DhcpCore} (fits : core.dns.length * 4 ≤ maxOptionValueBytes)
    (req : Message) (kind : MessageType) (addr : Option Ipv4Addr) (vendor : Option Text) :
    ∃ reply outputs, core.buildReply req kind addr vendor = (some reply, outputs) ∧
      replies outputs = [] ∧ reply.Carries kind req (addr.getD .unspecified) := by
  obtain ⟨opts, run⟩ := writes_replyOptions fits kind addr.isSome []
  simp only [buildReply, run, Prod.mk.injEq]
  refine ⟨_, _, ⟨rfl, rfl⟩, replies_bootOmitted _, ?_⟩
  cases addr with
  | none | some addr => exact ⟨rfl, rfl, rfl⟩

end DhcpCore

end NexTerminal.Dhcp
