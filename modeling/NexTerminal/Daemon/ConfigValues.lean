import NexTerminal.Dhcp.Config

/-! How DHCP settings are deserialized from JSON (`config.rs`): every field optional,
none of them `null`, no others. An array in place of the object is refused here. -/

namespace NexTerminal.Daemon

open Std Library Dhcp

def readString : Json → Option Text
  | .string text => some text
  | _ => none

def readUnsigned (bits : Nat) : Json → Option Nat
  | .number (.posInt n) => if n < 2 ^ bits then some n else none
  | _ => none

def readI64 : Json → Option Int
  | .number (.posInt n) => if n < 2 ^ 63 then some n else none
  | .number (.negInt i) => some i
  | _ => none

def readBool : Json → Option Bool
  | .bool b => some b
  | _ => none

def readList {α : Type} (read : Json → Option α) : Json → Option (List α)
  | .array items => items.mapM read
  | _ => none

def readTextMap : Json → Option (TreeMap Text Text compare)
  | .object fields =>
    fields.foldlM (fun map field => (readString field.2).map (map.insert field.1.toList)) ∅
  | _ => none

def knownKeys (fields : List (String × Json)) (known : List String) : Bool :=
  fields.all fun field => known.contains field.1

def readField {α : Type} (fields : List (String × Json)) (key : String) (read : Json → Option α) :
    Option (Option α) :=
  match fields.lookup key with
  | none => some none
  | some value => (read value).map some

def readVendorOption : Json → Option VendorEntry
  | .object fields =>
    if !knownKeys fields ["subOption", "value"] then none
    else do
      let subOption ← readI64 (← fields.lookup "subOption")
      let value ← readString (← fields.lookup "value")
      return { subOption := subOption, value := value }
  | _ => none

def dhcpFields : List String :=
  ["port", "rangeStart", "rangeEnd", "subnet", "gateway", "dns", "leaseTimeSec", "serverId",
    "broadcast", "static", "bindAddress", "leaseStorePath", "bootFileName", "nextServer",
    "tftpServerAddresses", "vendorClassId", "vendorSpecificOptions", "allowRelayAgents"]

def readDhcpConfig : Json → Option DhcpConfig
  | .object fields =>
    if !knownKeys fields dhcpFields then none
    else do
      let port ← readField fields "port" (readUnsigned 16)
      let rangeStart ← readField fields "rangeStart" readString
      let rangeEnd ← readField fields "rangeEnd" readString
      let subnet ← readField fields "subnet" readString
      let gateway ← readField fields "gateway" readString
      let dns ← readField fields "dns" (readList readString)
      let leaseTimeSec ← readField fields "leaseTimeSec" (readUnsigned 32)
      let serverId ← readField fields "serverId" readString
      let broadcast ← readField fields "broadcast" readString
      let statics ← readField fields "static" readTextMap
      let bindAddress ← readField fields "bindAddress" readString
      let leaseStorePath ← readField fields "leaseStorePath" readString
      let bootFileName ← readField fields "bootFileName" readString
      let nextServer ← readField fields "nextServer" readString
      let tftpServerAddresses ← readField fields "tftpServerAddresses" (readList readString)
      let vendorClassId ← readField fields "vendorClassId" readString
      let vendorSpecificOptions ← readField fields "vendorSpecificOptions"
        (readList readVendorOption)
      let allowRelayAgents ← readField fields "allowRelayAgents" readBool
      return {
        port := port.map UInt16.ofNat, rangeStart := rangeStart, rangeEnd := rangeEnd
        subnet := subnet, gateway := gateway, dns := dns, leaseTimeSec := leaseTimeSec
        serverId := serverId, broadcast := broadcast, statics := statics, bindAddress := bindAddress
        leaseStorePath := leaseStorePath, bootFileName := bootFileName, nextServer := nextServer
        tftpServerAddresses := tftpServerAddresses, vendorClassId := vendorClassId
        vendorSpecificOptions := vendorSpecificOptions, allowRelayAgents := allowRelayAgents }
  | _ => none

end NexTerminal.Daemon

/-! The daemon's TFTP settings (`config.rs`), and the standard library's address
parser, which reads the interface among them. -/

namespace NexTerminal.Daemon

open Library Dhcp

inductive IpAddr
  | v4 (address : Ipv4Addr)
  | v6 (segments : List Nat)
deriving DecidableEq

abbrev Reader := StateT Text Option

def readGivenChar (target : Char) : Reader Unit := fun text =>
  match text with
  | c :: rest => if c = target then some ((), rest) else none
  | [] => none

def hexDigitValue (c : Char) : Nat :=
  if c.isDigit then c.toNat - '0'.toNat
  else if 'a' ≤ c then c.toNat - 'a'.toNat + 10
  else c.toNat - 'A'.toNat + 10

/-- As many digits as there are, but not more than `maxDigits`. -/
def readNumber (radix maxDigits limit : Nat) (allowZeroPrefix : Bool) : Reader Nat := fun text =>
  let isDigit := fun c => isAsciiHexdigit c && decide (hexDigitValue c < radix)
  let digits := text.takeWhile isDigit
  let value := digits.foldl (fun n c => n * radix + hexDigitValue c) 0
  if digits.length = 0 ∨ maxDigits < digits.length ∨ limit < value then none
  else if allowZeroPrefix = false ∧ 1 < digits.length ∧ digits.head? = some '0' then none
  else some (value, text.dropWhile isDigit)

def readOctet : Reader UInt8 := UInt8.ofNat <$> readNumber 10 3 255 false

def readIpv4Addr : Reader Ipv4Addr := do
  let a ← readOctet
  readGivenChar '.'
  let b ← readOctet
  readGivenChar '.'
  let c ← readOctet
  readGivenChar '.'
  let d ← readOctet
  return .new a b c d

def readSeparated {α : Type} (first : Bool) (inner : Reader α) : Reader α := do
  if first = false then readGivenChar ':'
  inner

/-- At most `limit` groups, and whether an IPv4 address stood for the last two. -/
def readGroups (first : Bool) (limit : Nat) : Reader (List Nat × Bool) := fun text =>
  match limit with
  | 0 => some (([], false), text)
  | left + 1 =>
    match if 0 < left then readSeparated first readIpv4Addr text else none with
    | some (address, rest) =>
      some (([address.toNat / 65536, address.toNat % 65536], true), rest)
    | none =>
      match readSeparated first (readNumber 16 4 65535 true) text with
      | none => some (([], false), text)
      | some (group, rest) =>
        (readGroups false left rest).map fun ((groups, endsIpv4), rest) =>
          ((group :: groups, endsIpv4), rest)

def readIpv6Addr : Reader (List Nat) := do
  let (head, headIpv4) ← readGroups true 8
  if head.length = 8 then return head
  -- An IPv4 part is not allowed before the double colon.
  if headIpv4 then failure
  readGivenChar ':'
  readGivenChar ':'
  let (tail, _) ← readGroups true (7 - head.length)
  return head ++ List.replicate (8 - head.length - tail.length) 0 ++ tail

def parseIp (text : Text) : Option IpAddr :=
  match ((IpAddr.v4 <$> readIpv4Addr) <|> (IpAddr.v6 <$> readIpv6Addr)) text with
  | some (address, []) => some address
  | _ => none

example : parseIp "fe80::1:10.0.0.1".toList = some (.v6 [0xfe80, 0, 0, 0, 0, 1, 0x0a00, 1]) := by
  decide

structure TftpConfig where
  root : Option Text := none
  port : Option UInt16 := none
  allowWrite : Option Bool := none
  /-- Which local address serves TFTP. Omitted means every interface. -/
  interface : Option Text := none
deriving DecidableEq

namespace TftpConfig

def validateRoot (config : TftpConfig) : Except String Unit :=
  match config.root with
  | none => .ok ()
  | some root =>
    if maxPathBytes < byteLen root then
      .error s!"Root is {byteLen root} bytes; the maximum is {maxPathBytes}."
    else .ok ()

def bindAddress (config : TftpConfig) : Except String IpAddr :=
  match config.interface with
  | none => .ok (.v4 .unspecified)
  | some raw =>
    if (trim raw).isEmpty then .ok (.v4 .unspecified)
    else
      match parseIp (trim raw) with
      | some address => .ok address
      | none =>
        .error (s!"'{String.ofList raw}' is not a valid IP address for the TFTP interface "
          ++ "setting. Leave it empty to serve on all interfaces.")

end TftpConfig

end NexTerminal.Daemon
