import NexTerminal.Dhcp.Net
import NexTerminal.Library.Except

/-! The DHCP wire codec (`protocol.rs`, `constants.rs`): the fixed header, the
option region and the reply builder. -/

namespace NexTerminal.Dhcp

open Std Library

abbrev Bytes := List UInt8

def optionPad : UInt8 := 0
def optionSubnetMask : UInt8 := 1
def optionRouter : UInt8 := 3
def optionDns : UInt8 := 6
def optionHostname : UInt8 := 12
def optionBroadcast : UInt8 := 28
def optionVendorSpecific : UInt8 := 43
def optionRequestedIp : UInt8 := 50
def optionLeaseTime : UInt8 := 51
def optionOverload : UInt8 := 52
def optionMessageType : UInt8 := 53
def optionServerId : UInt8 := 54
def optionMessage : UInt8 := 56
def optionRenewalTime : UInt8 := 58
def optionRebindingTime : UInt8 := 59
def optionVendorClassId : UInt8 := 60
def optionTftpServerName : UInt8 := 66
def optionBootfileName : UInt8 := 67
def optionCiscoTftpServers : UInt8 := 150
def optionEnd : UInt8 := 255

def maxOptionValueBytes : Nat := 255
def maxDhcpFieldBytes : Nat := 255
def opBootrequest : UInt8 := 1
def opBootreply : UInt8 := 2
def htypeEthernet : UInt8 := 1
def flagBroadcast : UInt16 := 0x8000
def magicCookie : Bytes := [0x63, 0x82, 0x53, 0x63]
def minReplyLen : Nat := 300
def maxEchoedText : Nat := 200
def maxEchoedTextBytes : Nat := maxDhcpFieldBytes

inductive DecodeError
  | tooShort (field : String) (needed available : Nat)
  | badMagicCookie (seen : Bytes)
  | badOperation (op : UInt8)
  | badHardwareLength (hlen : UInt8)
  | optionTruncated (code : UInt8) (declared available : Nat)
  | optionMissingLength (code : UInt8)
deriving DecidableEq

def DecodeError.display : DecodeError → String
  | .tooShort field needed available =>
    s!"packet truncated at {field}: needed {needed} more byte(s), {available} available"
  | .badMagicCookie seen =>
    let shown := ", ".intercalate (seen.map fun byte => String.ofList (hexPair byte))
    s!"not a DHCP packet: magic cookie was [{shown}], expected 63 82 53 63"
  | .badOperation op => s!"unknown BOOTP operation {op}, expected 1 or 2"
  | .badHardwareLength hlen =>
    s!"hlen {hlen} is not a usable hardware address length (expected 1..={maxHardwareLen})"
  | .optionTruncated code declared available =>
    s!"option {code} declares {declared} byte(s) but only {available} remain"
  | .optionMissingLength code => s!"option {code} has no length byte"

inductive EncodeError
  | optionTooLong (code : UInt8) (len : Nat)
  | reservedOptionCode (code : UInt8)
  | tooManyAddresses (code : UInt8) (count : Nat)
deriving DecidableEq

def EncodeError.display : EncodeError → String
  | .optionTooLong code len =>
    s!"option {code} value is {len} bytes; the length field carries at most {maxOptionValueBytes}"
  | .reservedOptionCode code =>
    s!"option code {code} is reserved by the encoding itself (0 is PAD, 255 is END)"
  | .tooManyAddresses code count =>
    s!"option {code} would carry {count} addresses ({count * 4} bytes); at most {maxOptionValueBytes / 4} fit"

/-- The cursor over a received packet: the bytes not yet consumed. -/
abbrev Reader := StateT Bytes (Except DecodeError)

/-- Consumes exactly `n` bytes, or fails naming the field that wanted them. -/
def Reader.take (n : Nat) (field : String) : Reader Bytes := fun rest =>
  if n > rest.length then .error (.tooShort field n rest.length)
  else .ok (rest.take n, rest.drop n)

def fromBeBytes (bytes : Bytes) : Nat := bytes.foldl (fun n byte => n * 256 + byte.toNat) 0

def Reader.u8 (field : String) : Reader UInt8 := do
  let bytes ← Reader.take 1 field
  return .ofNat (fromBeBytes bytes)

def Reader.u16 (field : String) : Reader UInt16 := do
  let bytes ← Reader.take 2 field
  return .ofNat (fromBeBytes bytes)

def Reader.u32 (field : String) : Reader UInt32 := do
  let bytes ← Reader.take 4 field
  return .ofNat (fromBeBytes bytes)

def Reader.ipv4 (field : String) : Reader Ipv4Addr := Reader.u32 field

inductive MessageType
  | discover | offer | request | decline | ack | nak | release | inform
deriving DecidableEq

def MessageType.asWire : MessageType → UInt8
  | .discover => 1
  | .offer => 2
  | .request => 3
  | .decline => 4
  | .ack => 5
  | .nak => 6
  | .release => 7
  | .inform => 8

def MessageType.fromWire (code : UInt8) : Option MessageType :=
  [MessageType.discover, .offer, .request, .decline, .ack, .nak, .release, .inform].find?
    fun kind => kind.asWire == code

def MessageType.asStr : MessageType → String
  | .discover => "DHCPDISCOVER"
  | .offer => "DHCPOFFER"
  | .request => "DHCPREQUEST"
  | .decline => "DHCPDECLINE"
  | .ack => "DHCPACK"
  | .nak => "DHCPNAK"
  | .release => "DHCPRELEASE"
  | .inform => "DHCPINFORM"

/-- What a lead byte promises: continuation bytes, the bounds of the first, and its own payload bits. -/
def utf8Lead (byte : UInt8) : Option (Nat × UInt8 × UInt8 × Nat) :=
  if 0xC2 ≤ byte ∧ byte ≤ 0xDF then some (1, 0x80, 0xBF, byte.toNat % 32)
  else if byte = 0xE0 then some (2, 0xA0, 0xBF, byte.toNat % 16)
  else if byte = 0xED then some (2, 0x80, 0x9F, byte.toNat % 16)
  else if 0xE1 ≤ byte ∧ byte ≤ 0xEF then some (2, 0x80, 0xBF, byte.toNat % 16)
  else if byte = 0xF0 then some (3, 0x90, 0xBF, byte.toNat % 8)
  else if byte = 0xF4 then some (3, 0x80, 0x8F, byte.toNat % 8)
  else if 0xF1 ≤ byte ∧ byte ≤ 0xF3 then some (3, 0x80, 0xBF, byte.toNat % 8)
  else none

/-- `String::from_utf8_lossy`, one byte at a time; `pending` is the sequence in progress. -/
def fromUtf8Lossy (pending : Option (Nat × UInt8 × UInt8 × Nat)) : Bytes → Text
  | [] => if pending.isSome then ['\ufffd'] else []
  | byte :: rest =>
    let fresh : Text :=
      if byte < 0x80 then Char.ofNat byte.toNat :: fromUtf8Lossy none rest
      else
        match utf8Lead byte with
        | some lead => fromUtf8Lossy (some lead) rest
        | none => '\ufffd' :: fromUtf8Lossy none rest
    match pending with
    | none => fresh
    | some (owed, low, high, bits) =>
      if low ≤ byte ∧ byte ≤ high then
        let bits := bits * 64 + byte.toNat % 64
        if owed ≤ 1 then Char.ofNat bits :: fromUtf8Lossy none rest
        else fromUtf8Lossy (some (owed - 1, 0x80, 0xBF, bits)) rest
      else '\ufffd' :: fresh

/-- `char::is_control`: the C0 and C1 controls and DEL. -/
def isControl (c : Char) : Bool := c.toNat < 0x20 || (0x7F ≤ c.toNat && c.toNat < 0xA0)

def sanitizeLoop (used : Nat) : Text → Text
  | [] => []
  | c :: rest =>
    let c := if isControl c then '\ufffd' else c
    if used + c.utf8Size > maxEchoedTextBytes then []
    else c :: sanitizeLoop (used + c.utf8Size) rest

def sanitizeText (text : Text) : Text := sanitizeLoop 0 (text.take maxEchoedText)

/-- The decoded option set of one packet, its values interpreted only on access. -/
abbrev Options := TreeMap UInt8 Bytes compare

namespace Options

def u8 (options : Options) (code : UInt8) : Option UInt8 :=
  match options[code]? with
  | some [byte] => some byte
  | _ => none

/-- A four-byte big-endian value, or `none` when the length is not exactly 4. -/
def u32 (options : Options) (code : UInt8) : Option UInt32 :=
  match options[code]? with
  | some [a, b, c, d] => some (.ofNat (fromBeBytes [a, b, c, d]))
  | _ => none

def ipv4 (options : Options) (code : UInt8) : Option Ipv4Addr := options.u32 code

/-- A text option decoded in full, its trailing NULs dropped. -/
def textFull (options : Options) (code : UInt8) : Option Text :=
  match options[code]? with
  | none => none
  | some raw =>
    let trimmed := (raw.reverse.dropWhile (· == 0)).reverse
    if trimmed.isEmpty then none else some (fromUtf8Lossy none trimmed)

def text (options : Options) (code : UInt8) : Option Text := (options.textFull code).map sanitizeText

def messageType (options : Options) : Option MessageType := (options.u8 optionMessageType).bind MessageType.fromWire

/-- Records a value, concatenating with any previous instance of the same code. -/
def append (options : Options) (code : UInt8) (value : Bytes) : Options :=
  options.insert code (options[code]?.getD [] ++ value)

end Options

/-- Parses an option region. Running out without an END marker is accepted; a
length that overruns the region is an error. -/
def parseOptions (region : Bytes) (into : Options) : Except DecodeError Options :=
  match region with
  | [] => .ok into
  | code :: rest =>
    if code = optionPad then parseOptions rest into
    else if code = optionEnd then .ok into
    else
      match rest with
      | [] => .error (.optionMissingLength code)
      | declared :: body =>
        if declared.toNat > body.length then
          .error (.optionTruncated code declared.toNat body.length)
        else parseOptions (body.drop declared.toNat) (into.append code (body.take declared.toNat))
termination_by region.length
decreasing_by all_goals simp only [List.length_cons, List.length_drop]; omega

structure Message where
  op : UInt8
  htype : UInt8
  hops : UInt8
  xid : UInt32
  secs : UInt16
  flags : UInt16
  ciaddr : Ipv4Addr
  yiaddr : Ipv4Addr
  siaddr : Ipv4Addr
  giaddr : Ipv4Addr
  /-- Exactly `hlen` bytes, without the field's padding. -/
  chaddr : Bytes
  sname : Bytes
  file : Bytes
  options : Options

/-- The fixed header and the main option region, before option overload. -/
def Message.decodeMain : Reader Message := do
  let op ← Reader.u8 "op"
  if op ≠ opBootrequest ∧ op ≠ opBootreply then throw (.badOperation op)
  let htype ← Reader.u8 "htype"
  let hlen ← Reader.u8 "hlen"
  let hops ← Reader.u8 "hops"
  let xid ← Reader.u32 "xid"
  let secs ← Reader.u16 "secs"
  let flags ← Reader.u16 "flags"
  let ciaddr ← Reader.ipv4 "ciaddr"
  let yiaddr ← Reader.ipv4 "yiaddr"
  let siaddr ← Reader.ipv4 "siaddr"
  let giaddr ← Reader.ipv4 "giaddr"
  if hlen = 0 ∨ hlen.toNat > maxHardwareLen then throw (.badHardwareLength hlen)
  let hardwareField ← Reader.take maxHardwareLen "chaddr"
  let sname ← Reader.take 64 "sname"
  let file ← Reader.take 128 "file"
  let cookie ← Reader.take magicCookie.length "magic cookie"
  if cookie ≠ magicCookie then throw (.badMagicCookie cookie)
  let options ← parseOptions (← get) ∅
  return {
    op := op, htype := htype, hops := hops, xid := xid, secs := secs, flags := flags
    ciaddr := ciaddr, yiaddr := yiaddr, siaddr := siaddr, giaddr := giaddr
    chaddr := hardwareField.take hlen.toNat, sname := sname, file := file, options := options }

/-- Decodes a datagram. Option 52 of the main region says whether the `file` and
`sname` fields carry options too. -/
def Message.decode (buf : Bytes) : Except DecodeError Message := do
  let (message, _) ← Message.decodeMain.run buf
  let overload := (message.options.u8 optionOverload).getD 0
  let options ← if overload &&& 1 ≠ 0 then parseOptions message.file message.options
    else .ok message.options
  let options ← if overload &&& 2 ≠ 0 then parseOptions message.sname options else .ok options
  return { message with options := options }

def Message.wantsBroadcast (message : Message) : Bool :=
  message.flags &&& flagBroadcast != 0 || message.ciaddr.isUnspecified

def Message.hardwareKey (message : Message) : MacKey := .fromHardware message.chaddr

theorem Reader.take_ok {n : Nat} {field : String} {start : Bytes} {res : Bytes × Bytes}
    (run : (Reader.take n field).run start = .ok res) : res.1.length = n := by
  change (if n > start.length then _ else _) = _ at run
  split at run
  · cases run
  · cases run
    rw [List.length_take]
    omega

theorem Message.decodeMain_chaddr {buf : Bytes} {res : Message × Bytes}
    (run : Message.decodeMain.run buf = .ok res) :
    1 ≤ res.1.chaddr.length ∧ res.1.chaddr.length ≤ maxHardwareLen := by
  obtain ⟨op, _, _, run⟩ := stateT_bind_eq_ok run
  split at run
  · obtain ⟨_, _, thrown, _⟩ := stateT_bind_eq_ok run
    cases thrown
  obtain ⟨htype, _, _, run⟩ := stateT_bind_eq_ok run
  obtain ⟨hlen, _, _, run⟩ := stateT_bind_eq_ok run
  obtain ⟨_, _, _, run⟩ := stateT_bind_eq_ok run
  obtain ⟨_, _, _, run⟩ := stateT_bind_eq_ok run
  obtain ⟨_, _, _, run⟩ := stateT_bind_eq_ok run
  obtain ⟨_, _, _, run⟩ := stateT_bind_eq_ok run
  obtain ⟨_, _, _, run⟩ := stateT_bind_eq_ok run
  obtain ⟨_, _, _, run⟩ := stateT_bind_eq_ok run
  obtain ⟨_, _, _, run⟩ := stateT_bind_eq_ok run
  obtain ⟨_, _, _, run⟩ := stateT_bind_eq_ok run
  split at run
  · obtain ⟨_, _, thrown, _⟩ := stateT_bind_eq_ok run
    cases thrown
  rename_i usable
  obtain ⟨field, _, taken, run⟩ := stateT_bind_eq_ok run
  obtain ⟨_, _, _, run⟩ := stateT_bind_eq_ok run
  obtain ⟨_, _, _, run⟩ := stateT_bind_eq_ok run
  obtain ⟨_, _, _, run⟩ := stateT_bind_eq_ok run
  split at run
  · obtain ⟨_, _, thrown, _⟩ := stateT_bind_eq_ok run
    cases thrown
  obtain ⟨_, _, _, run⟩ := stateT_bind_eq_ok run
  obtain ⟨_, _, _, run⟩ := stateT_bind_eq_ok run
  cases run
  have len := Reader.take_ok taken
  simp only [not_or] at usable
  have nonzero : hlen.toNat ≠ 0 := fun zero => usable.1 (UInt8.toNat_inj.mp zero)
  simp only [List.length_take] at *
  omega

/-- A decoded message has a hardware address that fits. -/
theorem Message.decode_chaddr {buf : Bytes} {msg : Message} (run : Message.decode buf = .ok msg) :
    1 ≤ msg.chaddr.length ∧ msg.chaddr.length ≤ maxHardwareLen := by
  obtain ⟨⟨main, _⟩, decoded, run⟩ := bind_eq_ok run
  have bounds := Message.decodeMain_chaddr decoded
  dsimp only at run
  split at run
  · obtain ⟨_, _, run⟩ := bind_eq_ok run
    split at run
    · obtain ⟨_, _, run⟩ := bind_eq_ok run
      cases run
      exact bounds
    · cases run
      exact bounds
  · obtain ⟨_, _, run⟩ := bind_eq_ok run
    split at run
    · obtain ⟨_, _, run⟩ := bind_eq_ok run
      cases run
      exact bounds
    · cases run
      exact bounds

/-- An option region under construction. What was written before a failure stays
written, as with the `&mut` builder. -/
abbrev OptionsBuilder := ExceptT EncodeError (StateM Bytes)

/-- Big-endian bytes of a number, `width` of them. -/
def toBeBytes (width n : Nat) : Bytes := (List.range width).map fun i => .ofNat (n / 256 ^ (width - 1 - i) % 256)

namespace OptionsBuilder

/-- Appends `[code][len][value…]`. -/
def put (code : UInt8) (value : Bytes) : OptionsBuilder Unit := do
  if code = optionPad ∨ code = optionEnd then throw (.reservedOptionCode code)
  if value.length > maxOptionValueBytes then throw (.optionTooLong code value.length)
  modify fun buf => buf ++ [code, .ofNat value.length] ++ value

def putU8 (code value : UInt8) : OptionsBuilder Unit := put code [value]

def putU32 (code : UInt8) (value : Nat) : OptionsBuilder Unit := put code (toBeBytes 4 value)

def putIpv4 (code : UInt8) (value : Ipv4Addr) : OptionsBuilder Unit := put code value.octets

def putIpv4List (code : UInt8) (values : List Ipv4Addr) : OptionsBuilder Unit := do
  if values.isEmpty then return ()
  if values.length * 4 > maxOptionValueBytes then throw (.tooManyAddresses code values.length)
  put code (values.flatMap Ipv4Addr.octets)

def putText (code : UInt8) (value : Text) : OptionsBuilder Unit := put code (value.flatMap String.utf8EncodeChar)

def finish (buf : Bytes) : Bytes := buf ++ [optionEnd]

end OptionsBuilder

structure ReplyBuilder where
  xid : UInt32
  secs : UInt16
  flags : UInt16
  ciaddr : Ipv4Addr
  yiaddr : Ipv4Addr
  siaddr : Ipv4Addr
  giaddr : Ipv4Addr
  chaddr : Bytes
deriving DecidableEq

namespace ReplyBuilder

def forRequest (request : Message) : ReplyBuilder where
  xid := request.xid
  secs := 0
  flags := request.flags
  ciaddr := .unspecified
  yiaddr := .unspecified
  siaddr := .unspecified
  giaddr := request.giaddr
  chaddr := request.chaddr

def encode (reply : ReplyBuilder) (options : Bytes) : Bytes :=
  let out :=
    [opBootreply, htypeEthernet, .ofNat (min reply.chaddr.length maxHardwareLen), 0]
      ++ toBeBytes 4 reply.xid.toNat ++ toBeBytes 2 reply.secs.toNat ++ toBeBytes 2 reply.flags.toNat
      ++ reply.ciaddr.octets ++ reply.yiaddr.octets ++ reply.siaddr.octets ++ reply.giaddr.octets
      ++ (reply.chaddr ++ List.replicate maxHardwareLen 0).take maxHardwareLen
      ++ List.replicate 64 0 ++ List.replicate 128 0 ++ magicCookie ++ options
  out ++ List.replicate (minReplyLen - out.length) 0

end ReplyBuilder

end NexTerminal.Dhcp
