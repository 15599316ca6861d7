import NexTerminal.Dhcp.Decoding
import NexTerminal.Dhcp.BootFits

namespace NexTerminal.Dhcp

open Std Library

inductive Put
  | bytes (code : UInt8) (value : Bytes)
  | u8 (code value : UInt8)
  | u32 (code : UInt8) (value : UInt32)
  | ipv4 (code : UInt8) (value : Ipv4Addr)
  | ipv4List (code : UInt8) (values : List Ipv4Addr)
  | text (code : UInt8) (value : Text)

namespace Put

def run : Put → OptionsBuilder Unit
  | .bytes code value => OptionsBuilder.put code value
  | .u8 code value => OptionsBuilder.putU8 code value
  | .u32 code value => OptionsBuilder.putU32 code value.toNat
  | .ipv4 code value => OptionsBuilder.putIpv4 code value
  | .ipv4List code values => OptionsBuilder.putIpv4List code values
  | .text code value => OptionsBuilder.putText code value

/-- The option a put is about and its value; an empty list of addresses is no option. -/
def field : Put → Option (UInt8 × Bytes)
  | .bytes code value => some (code, value)
  | .u8 code value => some (code, [value])
  | .u32 code value => some (code, toBeBytes 4 value.toNat)
  | .ipv4 code value => some (code, value.octets)
  | .ipv4List code values => if values.isEmpty then none else some (code, values.flatMap Ipv4Addr.octets)
  | .text code value => some (code, value.flatMap String.utf8EncodeChar)

/-- Some puts in turn, and the options of those that succeeded. -/
def all : List Put → Bytes → Bytes × List (UInt8 × Bytes)
  | [], region => (region, [])
  | put :: rest, region =>
    match put.run.run region with
    | (.ok (), region) => ((all rest region).1, put.field.toList ++ (all rest region).2)
    | (.error _, region) => all rest region

end Put

def encodedField (field : UInt8 × Bytes) : Bytes := field.1 :: .ofNat field.2.length :: field.2

structure Encodable (field : UInt8 × Bytes) : Prop where
  plain : optionSyntax.IsTag field.1
  fits : field.2.length ≤ maxOptionValueBytes

theorem put_run (code : UInt8) (value region : Bytes) :
    (Encodable (code, value) ∧
        (OptionsBuilder.put code value).run region = (.ok (), region ++ encodedField (code, value))) ∨
      ∃ error, (OptionsBuilder.put code value).run region = (.error error, region) := by
  unfold OptionsBuilder.put
  by_cases reserved : code = optionPad ∨ code = optionEnd
  · rw [if_pos reserved]
    exact .inr ⟨_, rfl⟩
  · rw [if_neg reserved]
    by_cases long : value.length > maxOptionValueBytes
    · rw [if_pos long]
      exact .inr ⟨_, rfl⟩
    · rw [if_neg long]
      refine .inl ⟨⟨isTag_iff.mpr (not_or.mp reserved), Nat.not_lt.mp long⟩, ?_⟩
      change (_, region ++ [code, .ofNat value.length] ++ value) = _
      rw [List.append_assoc]
      rfl

theorem Put.run_spec (put : Put) (region : Bytes) :
    ((∀ field ∈ put.field, Encodable field) ∧
        put.run.run region = (.ok (), region ++ put.field.toList.flatMap encodedField)) ∨
      ∃ error, put.run.run region = (.error error, region) := by
  have single {code : UInt8} {value : Bytes} (asked : put.run = OptionsBuilder.put code value)
      (given : put.field = some (code, value)) :
      ((∀ field ∈ put.field, Encodable field) ∧
          put.run.run region = (.ok (), region ++ put.field.toList.flatMap encodedField)) ∨
        ∃ error, put.run.run region = (.error error, region) := by
    rw [asked, given]
    rcases put_run code value region with ⟨encodable, wrote⟩ | refused
    · refine .inl ⟨fun field mem => ?_, ?_⟩
      · cases mem
        exact encodable
      · rw [wrote, Option.toList_some, List.flatMap_singleton]
    · exact .inr refused
  cases put with
  | bytes code value | u8 code value | u32 code value | ipv4 code value | text code value => exact single rfl rfl
  | ipv4List code values =>
    by_cases empty : values.isEmpty = true
    · simp only [Put.run, Put.field, OptionsBuilder.putIpv4List, if_pos empty]
      exact .inl ⟨nofun, by rw [Option.toList_none, List.flatMap_nil, List.append_nil]; rfl⟩
    · by_cases many : values.length * 4 > maxOptionValueBytes
      · simp only [Put.run, OptionsBuilder.putIpv4List, if_neg empty, if_pos many]
        exact .inr ⟨_, rfl⟩
      · refine @single code (values.flatMap Ipv4Addr.octets) ?_ ?_
        · simp only [Put.run, OptionsBuilder.putIpv4List, if_neg empty, if_neg many]
        · simp only [Put.field, if_neg empty]

theorem Put.all_spec (puts : List Put) (region : Bytes) :
    (∀ field ∈ (Put.all puts region).2, Encodable field) ∧
      (Put.all puts region).1 = region ++ (Put.all puts region).2.flatMap encodedField := by
  induction puts generalizing region with
  | nil => exact ⟨nofun, by simp [all]⟩
  | cons put rest ih =>
    rcases put.run_spec region with ⟨encodable, wrote⟩ | ⟨error, refused⟩
    · obtain ⟨later, out⟩ := ih (region ++ put.field.toList.flatMap encodedField)
      simp only [all, wrote]
      refine ⟨fun field mem => ?_, ?_⟩
      · rcases List.mem_append.mp mem with here | there
        · exact encodable field (Option.mem_toList.mp here)
        · exact later field there
      · rw [out, List.flatMap_append, List.append_assoc]
    · simp only [all, refused]
      exact ih region

theorem region_encoded {fields : List (UInt8 × Bytes)} (encodable : ∀ field ∈ fields, Encodable field)
    (tail : Bytes) :
    optionSyntax.Region (fields.flatMap encodedField ++ optionEnd :: tail) fields := by
  induction fields with
  | nil => exact .stopped tail
  | cons field rest ih =>
    obtain ⟨plain, fits⟩ := encodable field List.mem_cons_self
    have later := ih fun other mem => encodable other (List.mem_cons_of_mem _ mem)
    have size : field.2.length = optionSyntax.size (.ofNat field.2.length) := by
      unfold maxOptionValueBytes at fits
      change _ = (UInt8.ofNat field.2.length).toNat
      rw [UInt8.toNat_ofNat']
      omega
    have read := FieldSyntax.Region.field plain size later
    rw [← List.append_assoc] at read
    exact read

theorem region_zeros (n : Nat) : optionSyntax.Region (List.replicate n 0) [] := by
  induction n with
  | zero => exact .exhausted
  | succ n ih => exact .padded ih

theorem fromBeBytes_toBeBytes_two {n : Nat} (small : n < 2 ^ 16) : fromBeBytes (toBeBytes 2 n) = n := by
  have high : (UInt8.ofNat (n / 256 % 256)).toNat = n / 256 := by rw [UInt8.toNat_ofNat']; omega
  have low : (UInt8.ofNat (n % 256)).toNat = n % 256 := by rw [UInt8.toNat_ofNat']; omega
  simp only [toBeBytes, List.range_succ, List.range_zero, fromBeBytes, List.nil_append, List.cons_append,
    List.map_cons, List.map_nil, List.foldl_cons, List.foldl_nil, Nat.reduceSub, Nat.reducePow,
    Nat.div_one]
  omega

theorem fromBeBytes_four (n : Nat) (small : n < 2 ^ 32) :
    fromBeBytes [.ofNat (n / 16777216), .ofNat (n / 65536 % 256), .ofNat (n / 256 % 256), .ofNat (n % 256)]
      = n := by
  simp only [fromBeBytes, List.foldl_cons, List.foldl_nil, UInt8.toNat_ofNat']
  omega

theorem fromBeBytes_toBeBytes_four {n : Nat} (small : n < 2 ^ 32) : fromBeBytes (toBeBytes 4 n) = n := by
  have high : n / 16777216 % 256 = n / 16777216 := by omega
  have bytes : toBeBytes 4 n =
      [.ofNat (n / 16777216), .ofNat (n / 65536 % 256), .ofNat (n / 256 % 256), .ofNat (n % 256)] := by
    simp [toBeBytes, List.range_succ, high]
  rw [bytes, fromBeBytes_four n small]

theorem fromBeBytes_octets (addr : Ipv4Addr) : fromBeBytes addr.octets = addr.toNat :=
  fromBeBytes_four _ addr.toNat_lt

theorem fromBeBytes_byte (byte : UInt8) : fromBeBytes [byte] = byte.toNat := by
  rw [fromBeBytes, List.foldl_cons, List.foldl_nil, Nat.zero_mul, Nat.zero_add]

theorem slice_flatten (parts : List Bytes) (tail : Bytes) (k : Nat) (inside : k < parts.length) :
    slice (parts.flatten ++ tail) ((parts.map List.length).take k).sum parts[k].length = parts[k] := by
  have pre : ((parts.map List.length).take k).sum = (parts.take k).flatten.length := by
    rw [List.length_flatten, List.map_take]
  have whole : parts.flatten = (parts.take k).flatten ++ (parts[k] ++ (parts.drop (k + 1)).flatten) := by
    rw [← List.flatten_cons, ← List.drop_eq_getElem_cons inside, ← List.flatten_append, List.take_append_drop]
  rw [slice, pre, whole, List.append_assoc, List.drop_left, List.append_assoc, List.take_left]

namespace ReplyBuilder

def fixedFields (reply : ReplyBuilder) : List Bytes :=
  [[opBootreply], [htypeEthernet], [.ofNat (min reply.chaddr.length maxHardwareLen)], [0],
    toBeBytes 4 reply.xid.toNat, toBeBytes 2 reply.secs.toNat, toBeBytes 2 reply.flags.toNat,
    reply.ciaddr.octets, reply.yiaddr.octets, reply.siaddr.octets, reply.giaddr.octets,
    (reply.chaddr ++ List.replicate maxHardwareLen 0).take maxHardwareLen,
    List.replicate 64 0, List.replicate 128 0, magicCookie]

def fixedWidths : List Nat := [1, 1, 1, 1, 4, 2, 2, 4, 4, 4, 4, 16, 64, 128, 4]

variable (reply : ReplyBuilder) (options : Bytes)

theorem fixedFields_widths : reply.fixedFields.map List.length = fixedWidths := by
  have hardware : ((reply.chaddr ++ List.replicate maxHardwareLen 0).take maxHardwareLen).length = 16 := by
    rw [List.length_take, List.length_append, List.length_replicate, maxHardwareLen]
    omega
  simp only [fixedFields, List.map_cons, hardware]
  rfl

theorem encode_eq : ∃ padding,
    reply.encode options = reply.fixedFields.flatten ++ (options ++ List.replicate padding 0) := by
  refine ⟨minReplyLen - (reply.fixedFields.flatten ++ options).length, ?_⟩
  simp only [encode, fixedFields, List.flatten_cons, List.flatten_nil, List.append_assoc,
    List.cons_append, List.nil_append]

variable {reply options}

theorem slice_encode (k : Nat) (inside : k < 15) :
    slice (reply.encode options) (fixedWidths.take k).sum (fixedWidths.get ⟨k, inside⟩) =
      reply.fixedFields.get ⟨k, inside⟩ := by
  obtain ⟨padding, encoded⟩ := reply.encode_eq options
  have width : fixedWidths[k] = (reply.fixedFields[k]).length :=
    (List.getElem_of_eq reply.fixedFields_widths.symm inside).trans (List.getElem_map _)
  have part := slice_flatten reply.fixedFields (options ++ List.replicate padding 0) k inside
  rw [← encoded, fixedFields_widths, ← width] at part
  exact part

theorem drop_encode : ∃ padding,
    240 ≤ (reply.encode options).length ∧
      (reply.encode options).drop 240 = options ++ List.replicate padding 0 := by
  obtain ⟨padding, encoded⟩ := reply.encode_eq options
  have fixed : reply.fixedFields.flatten.length = 240 := by
    rw [List.length_flatten, fixedFields_widths]
    rfl
  refine ⟨padding, ?_, ?_⟩
  · rw [encoded, List.length_append, fixed]
    omega
  · rw [encoded, ← fixed, List.drop_left]

variable (fits : reply.chaddr.length ≤ maxHardwareLen)

include fits in
theorem hardware_encode : UInt8.ofNat (numberAt (reply.encode options) 2 1) = .ofNat reply.chaddr.length := by
  have hlen : slice (reply.encode options) 2 1 = [.ofNat (min reply.chaddr.length maxHardwareLen)] :=
    slice_encode 2 (by decide)
  rw [numberAt, hlen, fromBeBytes_byte, UInt8.ofNat_toNat, Nat.min_eq_left fits]

include fits in
theorem wellFormed_encode (ne : 1 ≤ reply.chaddr.length) : WellFormedHeader (reply.encode options) := by
  obtain ⟨_, whole, _⟩ := @drop_encode reply options
  have op : slice (reply.encode options) 0 1 = [opBootreply] := slice_encode 0 (by decide)
  have small : (UInt8.ofNat reply.chaddr.length).toNat = reply.chaddr.length := by
    unfold maxHardwareLen at fits
    rw [UInt8.toNat_ofNat']
    omega
  refine ⟨whole, ?_, ?_, slice_encode 14 (by decide)⟩
  · rw [numberAt, op, fromBeBytes_byte, UInt8.ofNat_toNat]
    exact .inr rfl
  · rw [hardware_encode fits, small]
    exact ⟨ne, fits⟩

end ReplyBuilder

structure Message.Restores (message : Message) (reply : ReplyBuilder) : Prop where
  op_eq : message.op = opBootreply
  xid_eq : message.xid = reply.xid
  secs_eq : message.secs = reply.secs
  flags_eq : message.flags = reply.flags
  ciaddr_eq : message.ciaddr = reply.ciaddr
  yiaddr_eq : message.yiaddr = reply.yiaddr
  siaddr_eq : message.siaddr = reply.siaddr
  giaddr_eq : message.giaddr = reply.giaddr
  chaddr_eq : message.chaddr = reply.chaddr

/-- A reply and what is put in it are read back as they were built. -/
def RoundTrips (reply : ReplyBuilder) (puts : List Put) : Prop :=
  ∃ message, Message.decode (reply.encode (OptionsBuilder.finish (Put.all puts []).1)) = .ok message ∧
    message.Restores reply ∧ ∀ code : UInt8, message.options[code]? = joinedUnder code (Put.all puts []).2

section

variable {reply : ReplyBuilder} {region : Bytes}

theorem headerMessage_restores (fits : reply.chaddr.length ≤ maxHardwareLen) (options : Options) :
    (headerMessage (reply.encode region) options).Restores reply := by
  have word (k : Nat) (inside : k < 15) (address : Ipv4Addr)
      (field : reply.fixedFields.get ⟨k, inside⟩ = address.octets)
      (width : ReplyBuilder.fixedWidths.get ⟨k, inside⟩ = 4) :
      UInt32.ofNat (numberAt (reply.encode region) (ReplyBuilder.fixedWidths.take k).sum 4) = address := by
    rw [numberAt, ← width, ReplyBuilder.slice_encode k inside, field, fromBeBytes_octets, UInt32.ofNat_toNat]
  have half (k : Nat) (inside : k < 15) (number : UInt16)
      (field : reply.fixedFields.get ⟨k, inside⟩ = toBeBytes 2 number.toNat)
      (width : ReplyBuilder.fixedWidths.get ⟨k, inside⟩ = 2) :
      UInt16.ofNat (numberAt (reply.encode region) (ReplyBuilder.fixedWidths.take k).sum 2) = number := by
    rw [numberAt, ← width, ReplyBuilder.slice_encode k inside, field,
      fromBeBytes_toBeBytes_two number.toNat_lt, UInt16.ofNat_toNat]
  have op : slice (reply.encode region) 0 1 = [opBootreply] := ReplyBuilder.slice_encode 0 (by decide)
  have xid : slice (reply.encode region) 4 4 = toBeBytes 4 reply.xid.toNat :=
    ReplyBuilder.slice_encode 4 (by decide)
  have chaddr : slice (reply.encode region) 28 16 =
      (reply.chaddr ++ List.replicate maxHardwareLen 0).take maxHardwareLen :=
    ReplyBuilder.slice_encode 11 (by decide)
  constructor
  case op_eq =>
    change UInt8.ofNat (numberAt _ 0 1) = _
    rw [numberAt, op, fromBeBytes_byte, UInt8.ofNat_toNat]
  case xid_eq =>
    change UInt32.ofNat (numberAt _ 4 4) = _
    rw [numberAt, xid, fromBeBytes_toBeBytes_four reply.xid.toNat_lt, UInt32.ofNat_toNat]
  case secs_eq => exact half 5 (by decide) _ rfl rfl
  case flags_eq => exact half 6 (by decide) _ rfl rfl
  case ciaddr_eq => exact word 7 (by decide) _ rfl rfl
  case yiaddr_eq => exact word 8 (by decide) _ rfl rfl
  case siaddr_eq => exact word 9 (by decide) _ rfl rfl
  case giaddr_eq => exact word 10 (by decide) _ rfl rfl
  case chaddr_eq =>
    have small : (UInt8.ofNat reply.chaddr.length).toNat = reply.chaddr.length := by
      unfold maxHardwareLen at fits
      rw [UInt8.toNat_ofNat']
      omega
    change (slice _ 28 16).take (UInt8.ofNat (numberAt _ 2 1)).toNat = _
    rw [chaddr, ReplyBuilder.hardware_encode fits, small, List.take_take, Nat.min_eq_left fits, List.take_left]

theorem furtherAreas_encode (overload : UInt8) :
    optionSyntax.Regions (furtherAreas (reply.encode region) overload) [] := by
  have sname : slice (reply.encode region) 44 64 = List.replicate 64 0 := ReplyBuilder.slice_encode 12 (by decide)
  have file : slice (reply.encode region) 108 128 = List.replicate 128 0 := ReplyBuilder.slice_encode 13 (by decide)
  have zeroed (n : Nat) {rest : List Bytes} (later : optionSyntax.Regions rest []) :
      optionSyntax.Regions (List.replicate n 0 :: rest) [] := .next (region_zeros n) later
  unfold furtherAreas
  rw [sname, file]
  split
  · split
    · exact zeroed 128 (zeroed 64 .done)
    · exact zeroed 128 .done
  · split
    · exact zeroed 64 .done
    · exact .done

theorem decode_encode (ne : 1 ≤ reply.chaddr.length) (fits : reply.chaddr.length ≤ maxHardwareLen)
    (puts : List Put) : RoundTrips reply puts := by
  unfold RoundTrips
  obtain ⟨encodable, out⟩ := Put.all_spec puts []
  generalize finished : OptionsBuilder.finish (Put.all puts []).1 = region
  obtain ⟨padding, _, left⟩ := @ReplyBuilder.drop_encode reply region
  have main : optionSyntax.Region ((reply.encode region).drop 240) (Put.all puts []).2 := by
    rw [left, ← finished, out, List.nil_append, OptionsBuilder.finish, List.append_assoc, List.singleton_append]
    exact region_encoded encodable _
  have read : OptionFields (reply.encode region) ((Put.all puts []).2 ++ []) :=
    ⟨_, _, main, furtherAreas_encode _, rfl⟩
  have decoded := decode_of_fields (ReplyBuilder.wellFormed_encode fits ne) read
  refine ⟨_, decoded, headerMessage_restores fits _, fun code => ?_⟩
  rw [List.append_nil]
  exact Options.of_empty.appendAll (Put.all puts []).2 code

end

/-- Every reply reaches its client whole, and one is built for each request that is answered. -/
theorem reply_roundTrips_and_built {buf : Bytes} {request : Message} (decoded : Message.decode buf = .ok request) :
    (∀ reply puts, reply.chaddr = request.chaddr → RoundTrips reply puts) ∧
      ∀ config options store events core time, DhcpConfig.resolve config = .ok options →
        Runs options store events core time → ∀ kind address vendorClass,
          ∃ reply, core.buildReply request kind address vendorClass = (some reply, []) := by
  obtain ⟨nonempty, fits⟩ := Message.decode_chaddr decoded
  constructor
  · intro reply puts client
    exact decode_encode (client ▸ nonempty) (client ▸ fits) puts
  · intro config options store events core time resolved run kind address vendorClass
    exact run.buildReply_whole resolved request kind address vendorClass

def sampleClient : Bytes := [0x02, 0, 0, 0, 0, 0x07]

theorem reply_roundTrips_and_built_discover :
    ∃ request, Message.decode (clientPacket .discover sampleClient []) = .ok request ∧
      RoundTrips (ReplyBuilder.forRequest request)
        [.text optionMessage ['n', 'o'], .u8 optionEnd 1, .u8 optionMessage 7] ∧
      ∃ reply, (DhcpCore.new sampleOptions {} 1000 1000).1.buildReply request .offer
        (some (.new 192 168 2 30)) none = (some reply, []) := by
  have header : WellFormedHeader (clientPacket .discover sampleClient []) := by
    rw [← firstViolation_eq_none]
    decide +kernel
  have region : optionSyntax.Region ((clientPacket .discover sampleClient []).drop 240)
      [(optionMessageType, [1])] :=
    .field (isTag_iff.mpr (by decide)) (show [1].length = _ from rfl) (.stopped [])
  have decoded := decode_of_fields header ⟨_, [], region, .done, rfl⟩
  have run := Runs.play sampleOptions {} 1000 [] (by decide)
  obtain ⟨restored, built⟩ := reply_roundTrips_and_built decoded
  exact ⟨_, decoded, restored _ _ rfl, built _ _ _ _ _ _ sampleConfig_resolve run _ _ _⟩

end NexTerminal.Dhcp
