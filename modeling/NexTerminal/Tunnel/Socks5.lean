import Mathlib.Data.List.Basic

/-! The server side of a SOCKS5 handshake (`socks5.ts`): reads of a given number of bytes
from a socket whose data events come in any pieces, the excess being pushed back. -/

namespace NexTerminal.Socks5

abbrev Bytes := List UInt8

abbrev Text := List Char

def SOCKS5_VERSION : UInt8 := 0x05
def AUTH_NO_AUTH : UInt8 := 0x00
def AUTH_NO_ACCEPTABLE : UInt8 := 0xff
def CMD_CONNECT : UInt8 := 0x01
def ATYP_IPV4 : UInt8 := 0x01
def ATYP_DOMAIN : UInt8 := 0x03
def ATYP_IPV6 : UInt8 := 0x04
def REP_GENERAL_FAILURE : UInt8 := 0x01
def REP_COMMAND_NOT_SUPPORTED : UInt8 := 0x07
def REP_ATYP_NOT_SUPPORTED : UInt8 := 0x08

inductive StreamEnd
  | closed
  | timedOut
  | failed (message : String)
deriving DecidableEq

inductive HandshakeError
  | aborted
  | timedOut
  | stream (message : String)
  | invalidVersion (version : UInt8)
  | noMethods
  | noAcceptableMethod
  | invalidRequestVersion (version : UInt8)
  | unsupportedCommand (cmd : UInt8)
  | emptyDomain
  | unsupportedAddressType (atyp : UInt8)
deriving DecidableEq

def HandshakeError.message : HandshakeError → String
  | .aborted => "Socket closed during SOCKS5 handshake"
  | .timedOut => "SOCKS5 handshake timed out"
  | .stream message => message
  | .invalidVersion version => s!"Invalid SOCKS5 version: {version}"
  | .noMethods => "No authentication methods offered"
  | .noAcceptableMethod => "No acceptable authentication method (only no-auth supported)"
  | .invalidRequestVersion version => s!"Invalid SOCKS5 version in request: {version}"
  | .unsupportedCommand cmd => s!"Unsupported SOCKS5 command: {cmd}"
  | .emptyDomain => "Empty domain name"
  | .unsupportedAddressType atyp => s!"Unsupported address type: {atyp}"

def StreamEnd.error : StreamEnd → HandshakeError
  | .closed => .aborted
  | .timedOut => .timedOut
  | .failed message => .stream message

/-- A socket: the data events still to come, what happens after them, what was written and
whether the writing side has ended. -/
structure Socket where
  incoming : List Bytes
  ending : StreamEnd
  written : Bytes := []
  ended : Bool := false
deriving DecidableEq

structure Socks5Target where
  destAddr : Text
  destPort : Nat
deriving DecidableEq

abbrev Handshake := EStateM HandshakeError Socket

/-- `onData` of each event until there are enough bytes; the excess goes back in front. -/
def gather (count : Nat) (ending : StreamEnd) : Bytes → List Bytes → Except HandshakeError (Bytes × List Bytes)
  | _, [] => .error ending.error
  | buf, chunk :: later =>
    let buf := buf ++ chunk
    if count ≤ buf.length then
      if count < buf.length then .ok (buf.take count, buf.drop count :: later) else .ok (buf, later)
    else gather count ending buf later

def readBytes (count : Nat) : Handshake Bytes := fun socket =>
  match gather count socket.ending [] socket.incoming with
  | .ok (bytes, incoming) => .ok bytes { socket with incoming }
  | .error error => .error error { socket with incoming := [] }

def buildGreetingReply (method : UInt8) : Bytes := [SOCKS5_VERSION, method]

def buildSocks5Reply (rep : UInt8) : Bytes := [SOCKS5_VERSION, rep, 0x00, ATYP_IPV4, 0, 0, 0, 0, 0, 0]

def write (reply : Bytes) : Handshake Unit := fun socket =>
  .ok () { socket with written := socket.written ++ reply }

/-- `socket.end(reply)` and the error thrown after it. -/
def refuse {α : Type} (reply : Bytes) (error : HandshakeError) : Handshake α := fun socket =>
  .error error { socket with written := socket.written ++ reply, ended := true }

/-- `buf.readUInt16BE(offset)`. -/
def readUInt16BE (buf : Bytes) (offset : Nat) : Nat := buf[offset]!.toNat * 256 + buf[offset + 1]!.toNat

/-- `buf.toString("ascii")`: the high bit of every byte is cleared. -/
def asciiText (buf : Bytes) : Text := buf.map fun byte => .ofNat (byte &&& 0x7f).toNat

def ipv4Text (addrBuf : Bytes) : Text :=
  ['.'].intercalate ([addrBuf[0]!, addrBuf[1]!, addrBuf[2]!, addrBuf[3]!].map (Nat.toDigits 10 ·.toNat))

def ipv6Text (addrBuf : Bytes) : Text :=
  [':'].intercalate ([0, 2, 4, 6, 8, 10, 12, 14].map fun i => Nat.toDigits 16 (readUInt16BE addrBuf i))

def greet : Handshake Unit := do
  let greetingHeader ← readBytes 2
  if greetingHeader[0]! ≠ SOCKS5_VERSION then
    refuse (buildGreetingReply AUTH_NO_ACCEPTABLE) (.invalidVersion greetingHeader[0]!)
  else if greetingHeader[1]! = 0 then
    refuse (buildGreetingReply AUTH_NO_ACCEPTABLE) .noMethods
  else
    let methods ← readBytes greetingHeader[1]!.toNat
    if !methods.contains AUTH_NO_AUTH then
      refuse (buildGreetingReply AUTH_NO_ACCEPTABLE) .noAcceptableMethod
    else
      write (buildGreetingReply AUTH_NO_AUTH)

/-- The destination address of a request with the address type. -/
def readAddress (atyp : UInt8) : Handshake Text :=
  if atyp = ATYP_IPV4 then do
    let addrBuf ← readBytes 4
    pure (ipv4Text addrBuf)
  else if atyp = ATYP_DOMAIN then do
    let lenBuf ← readBytes 1
    if lenBuf[0]! = 0 then
      refuse (buildSocks5Reply REP_GENERAL_FAILURE) .emptyDomain
    else
      let domainBuf ← readBytes lenBuf[0]!.toNat
      pure (asciiText domainBuf)
  else if atyp = ATYP_IPV6 then do
    let addrBuf ← readBytes 16
    pure (ipv6Text addrBuf)
  else
    refuse (buildSocks5Reply REP_ATYP_NOT_SUPPORTED) (.unsupportedAddressType atyp)

def readRequest : Handshake Socks5Target := do
  let requestHeader ← readBytes 4
  if requestHeader[0]! ≠ SOCKS5_VERSION then
    refuse (buildSocks5Reply REP_GENERAL_FAILURE) (.invalidRequestVersion requestHeader[0]!)
  else if requestHeader[1]! ≠ CMD_CONNECT then
    refuse (buildSocks5Reply REP_COMMAND_NOT_SUPPORTED) (.unsupportedCommand requestHeader[1]!)
  else
    let destAddr ← readAddress requestHeader[3]!
    let portBuf ← readBytes 2
    pure { destAddr, destPort := readUInt16BE portBuf 0 }

def handleSocks5Handshake : Handshake Socks5Target := do
  greet
  readRequest

inductive Address
  | ipv4 (bytes : Bytes) (length : bytes.length = 4)
  | domain (name : Bytes) (nonempty : name ≠ []) (length : name.length ≤ 255)
  | ipv6 (bytes : Bytes) (length : bytes.length = 16)

/-- A greeting that offers to go without authentication and the CONNECT request after it. The
reserved byte may be anything. -/
structure Request where
  methods : Bytes
  noAuth : AUTH_NO_AUTH ∈ methods
  length : methods.length ≤ 255
  reserved : UInt8
  address : Address
  portHigh : UInt8
  portLow : UInt8

namespace Address

def atyp : Address → UInt8
  | .ipv4 .. => ATYP_IPV4
  | .domain .. => ATYP_DOMAIN
  | .ipv6 .. => ATYP_IPV6

def bytes : Address → Bytes
  | .ipv4 bytes _ => bytes
  | .domain name _ _ => name
  | .ipv6 bytes _ => bytes

def encode : Address → Bytes
  | .ipv4 bytes _ => bytes
  | .domain name _ _ => .ofNat name.length :: name
  | .ipv6 bytes _ => bytes

def text : Address → Text
  | .ipv4 bytes _ => ipv4Text bytes
  | .domain name _ _ => asciiText name
  | .ipv6 bytes _ => ipv6Text bytes

end Address

namespace Request

def greeting (request : Request) : Bytes := SOCKS5_VERSION :: .ofNat request.methods.length :: request.methods

def encode (request : Request) : Bytes :=
  request.greeting ++ ([SOCKS5_VERSION, CMD_CONNECT, request.reserved, request.address.atyp] ++
    (request.address.encode ++ [request.portHigh, request.portLow]))

def port (request : Request) : Nat := request.portHigh.toNat * 256 + request.portLow.toNat

def target (request : Request) : Socks5Target := { destAddr := request.address.text, destPort := request.port }

end Request

def digitOf (base : Nat) (c : Char) : Option Nat := (List.range base).find? (Nat.digitChar · == c)

def readNumber (base : Nat) : Text → Option Nat
  | [] => none
  | digits => digits.foldlM (fun n c => (digitOf base c).map (base * n + ·)) 0

def readGroups (base : Nat) (separator : Char) (text : Text) : List (Option Nat) :=
  (text.splitOn separator).map (readNumber base)

def Denotes (text : Text) : Address → Prop
  | .ipv4 bytes _ => readGroups 10 '.' text = bytes.map fun byte => some byte.toNat
  | .domain name _ _ => text.map Char.toNat = name.map UInt8.toNat
  | .ipv6 bytes _ => readGroups 16 ':' text =
      [0, 2, 4, 6, 8, 10, 12, 14].map fun i => some (bytes[i]!.toNat * 256 + bytes[i + 1]!.toNat)

def nMethods (stream : Bytes) : Nat := stream[1]!.toNat

def methods (stream : Bytes) : Bytes := (stream.drop 2).take (nMethods stream)

def afterGreeting (stream : Bytes) : Bytes := stream.drop (2 + nMethods stream)

inductive Rule
  | version
  | methodsOffered
  | noAuthOffered
  | requestVersion
  | connect
  | addressType
  | domainNonempty
deriving DecidableEq

def rules : List Rule :=
  [.version, .methodsOffered, .noAuthOffered, .requestVersion, .connect, .addressType, .domainNonempty]

def Rule.decided (stream : Bytes) : Rule → Bool
  | .version | .methodsOffered => 2 ≤ stream.length
  | .noAuthOffered => 2 + nMethods stream ≤ stream.length
  | .requestVersion | .connect | .addressType => 4 ≤ (afterGreeting stream).length
  | .domainNonempty => 5 ≤ (afterGreeting stream).length

def Rule.violated (stream : Bytes) : Rule → Bool
  | .version => stream[0]! != SOCKS5_VERSION
  | .methodsOffered => nMethods stream == 0
  | .noAuthOffered => !(methods stream).contains AUTH_NO_AUTH
  | .requestVersion => (afterGreeting stream)[0]! != SOCKS5_VERSION
  | .connect => (afterGreeting stream)[1]! != CMD_CONNECT
  | .addressType => !([ATYP_IPV4, ATYP_DOMAIN, ATYP_IPV6].contains (afterGreeting stream)[3]!)
  | .domainNonempty => (afterGreeting stream)[3]! == ATYP_DOMAIN && (afterGreeting stream)[4]! == 0

def Rule.reply : Rule → Bytes
  | .version | .methodsOffered | .noAuthOffered => buildGreetingReply AUTH_NO_ACCEPTABLE
  | .requestVersion | .domainNonempty => buildSocks5Reply REP_GENERAL_FAILURE
  | .connect => buildSocks5Reply REP_COMMAND_NOT_SUPPORTED
  | .addressType => buildSocks5Reply REP_ATYP_NOT_SUPPORTED

def firstViolated (stream : Bytes) : Option Rule :=
  rules.find? fun rule => rule.decided stream && rule.violated stream

def greeted (stream : Bytes) : Bool :=
  [Rule.version, .methodsOffered, .noAuthOffered].all fun rule =>
    rule.decided stream && !rule.violated stream

/-- Everything written to a client with the stream, up to a failure. -/
def replies (stream : Bytes) : Bytes :=
  (if greeted stream then buildGreetingReply AUTH_NO_AUTH else []) ++
    ((firstViolated stream).map Rule.reply).getD []

end NexTerminal.Socks5
