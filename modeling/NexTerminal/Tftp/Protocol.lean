import NexTerminal.Dhcp.Net
import NexTerminal.Library.Except

/-! TFTP types, packets and negotiable options (`types.rs`, `protocol.rs`). -/

namespace NexTerminal.Tftp

open Dhcp (Text trim digitValue)

abbrev Bytes := List UInt8

inductive Opcode
  | rrq | wrq | data | ack | error | oack
deriving DecidableEq

def Opcode.fromWire (value : UInt16) : Option Opcode :=
  if value = 1 then some .rrq
  else if value = 2 then some .wrq
  else if value = 3 then some .data
  else if value = 4 then some .ack
  else if value = 5 then some .error
  else if value = 6 then some .oack
  else none

def Opcode.toWire : Opcode → UInt16
  | .rrq => 1
  | .wrq => 2
  | .data => 3
  | .ack => 4
  | .error => 5
  | .oack => 6

inductive ErrorCode
  | notDefined | fileNotFound | accessViolation | diskFull | illegalOperation | unknownTransferId
  | fileAlreadyExists | noSuchUser | optionNegotiation
deriving DecidableEq

def ErrorCode.toWire : ErrorCode → UInt16
  | .notDefined => 0
  | .fileNotFound => 1
  | .accessViolation => 2
  | .diskFull => 3
  | .illegalOperation => 4
  | .unknownTransferId => 5
  | .fileAlreadyExists => 6
  | .noSuchUser => 7
  | .optionNegotiation => 8

def ErrorCode.defaultMessage : ErrorCode → String
  | .notDefined => "Not defined, see error message."
  | .fileNotFound => "File not found."
  | .accessViolation => "Access violation."
  | .diskFull => "Disk full or allocation exceeded."
  | .illegalOperation => "Illegal TFTP operation."
  | .unknownTransferId => "Unknown transfer ID."
  | .fileAlreadyExists => "File already exists."
  | .noSuchUser => "No such user."
  | .optionNegotiation => "Option negotiation failed."

inductive TransferMode
  | octet
deriving DecidableEq

def defaultBlockSize : Nat := 512
def defaultWindowSize : Nat := 1
def blksizeMin : Nat := 8
def blksizeMax : Nat := 65464
def timeoutMin : Nat := 1
def timeoutMax : Nat := 255
def windowsizeMin : Nat := 1
def windowsizeMax : Nat := 65535
def maxInFlightBytes : Nat := 1024 * 1024
def blockSpace : Nat := 0x10000
def maxFilenameBytes : Nat := 1024

structure RawOptions where
  blksize : Option Text := none
  timeout : Option Text := none
  tsize : Option Text := none
  windowsize : Option Text := none
deriving DecidableEq

def RawOptions.isEmpty (options : RawOptions) : Bool :=
  options.blksize.isNone && options.timeout.isNone && options.tsize.isNone && options.windowsize.isNone

def RawOptions.set (options : RawOptions) (key value : Text) : RawOptions :=
  let key := String.ofList (key.map Char.toLower)
  if key = "blksize" then { options with blksize := some value }
  else if key = "timeout" then { options with timeout := some value }
  else if key = "tsize" then { options with tsize := some value }
  else if key = "windowsize" then { options with windowsize := some value }
  else options

def RawOptions.pairs (options : RawOptions) : List (Text × Text) :=
  [("blksize".toList, options.blksize), ("timeout".toList, options.timeout),
    ("tsize".toList, options.tsize), ("windowsize".toList, options.windowsize)].filterMap
      fun entry => entry.2.map fun value => (entry.1, value)

structure ValidatedOptions where
  blksize : Nat := defaultBlockSize
  windowsize : Nat := defaultWindowSize
  timeout : Option Nat := none
  tsize : Option Nat := none
deriving DecidableEq

structure Request where
  filename : Text
  mode : TransferMode
  options : RawOptions
deriving DecidableEq

inductive Packet
  | rrq (request : Request)
  | wrq (request : Request)
  | data (block : UInt16) (data : Bytes)
  | ack (block : UInt16)
  | error (code : UInt16) (message : Text)
  | oack (options : RawOptions)
deriving DecidableEq

abbrev ProtocolError := String

def u16Bytes (value : UInt16) : Bytes := [.ofNat (value.toNat / 256), .ofNat (value.toNat % 256)]

def utf8Bytes (text : Text) : Bytes := (String.ofList text).toUTF8.toList

def nulString (text : Text) : Bytes := utf8Bytes text ++ [0]

def encodeData (block : UInt16) (data : Bytes) : Bytes := u16Bytes Opcode.data.toWire ++ u16Bytes block ++ data

def encodeAck (block : UInt16) : Bytes := u16Bytes Opcode.ack.toWire ++ u16Bytes block

def encodeError (code : ErrorCode) (message : Option String) : Bytes :=
  u16Bytes Opcode.error.toWire ++ u16Bytes code.toWire
    ++ nulString (message.getD code.defaultMessage).toList

def encodeOack (options : RawOptions) : Bytes :=
  u16Bytes Opcode.oack.toWire
    ++ options.pairs.flatMap fun pair => nulString pair.1 ++ nulString pair.2

def u16FromBytes (hi lo : UInt8) : UInt16 := .ofNat (hi.toNat * 256 + lo.toNat)

def peekOpcode : Bytes → Option UInt16
  | hi :: lo :: _ => some (u16FromBytes hi lo)
  | _ => none

def decodeField (bytes : Bytes) : Except ProtocolError Text :=
  match String.fromUTF8? ⟨bytes.toArray⟩ with
  | some field => .ok field.toList
  | none => .error "Field is not valid UTF-8"

def dropLastIfEmpty {α : Type} (parts : List (List α)) : List (List α) :=
  if parts.getLast?.any List.isEmpty then parts.dropLast else parts

/-- The strings between the NULs. One stray empty string at the end is dropped. -/
def splitNulStrings (buf : Bytes) : Except ProtocolError (List Text) := do
  let parts ← (dropLastIfEmpty (buf.splitOn 0)).mapM decodeField
  return dropLastIfEmpty parts

def collectPairs (options : RawOptions) : List Text → RawOptions
  | key :: value :: rest => collectPairs (options.set key value) rest
  | _ => options

def collectOptions (tokens : List Text) : Except ProtocolError RawOptions :=
  if tokens.length % 2 ≠ 0 then .error "Malformed option list (odd token count)"
  else .ok (collectPairs {} tokens)

def parseRequest (payload : Bytes) (label : String) : Except ProtocolError Request := do
  match ← splitNulStrings payload with
  | filename :: mode :: rest =>
    if filename.isEmpty then .error "Empty filename"
    else if (utf8Bytes filename).length > maxFilenameBytes then
      .error s!"Filename exceeds {maxFilenameBytes} bytes"
    else
      let mode := String.ofList (mode.map Char.toLower)
      if mode = "octet" then
        let options ← collectOptions rest
        return { filename := filename, mode := .octet, options := options }
      else if mode = "netascii" then
        .error "Unsupported mode: netascii (this server implements octet only)"
      else .error s!"Unknown mode: {mode}"
  | _ => .error s!"{label} too short"

def splitBlockNumber (payload : Bytes) (label : String) : Except ProtocolError (UInt16 × Bytes) :=
  match payload with
  | hi :: lo :: rest => .ok (u16FromBytes hi lo, rest)
  | _ => .error s!"{label} too short"

/-- Nothing for an opcode this implementation does not know. `lossy` is
`String::from_utf8_lossy`. -/
def parsePacket (lossy : Bytes → Text) (buf : Bytes) : Except ProtocolError (Option Packet) :=
  match peekOpcode buf with
  | none => .error "Packet too short"
  | some rawOpcode =>
    let payload := buf.drop 2
    match Opcode.fromWire rawOpcode with
    | none => .ok none
    | some .rrq => do return some (.rrq (← parseRequest payload "RRQ"))
    | some .wrq => do return some (.wrq (← parseRequest payload "WRQ"))
    | some .data => do
      let (block, rest) ← splitBlockNumber payload "DATA"
      return some (.data block rest)
    | some .ack => do
      let (block, _) ← splitBlockNumber payload "ACK"
      return some (.ack block)
    | some .error => do
      let (code, rest) ← splitBlockNumber payload "ERROR"
      return some (.error code (lossy (rest.takeWhile (· ≠ 0))))
    | some .oack => do return some (.oack (← collectOptions (← splitNulStrings payload)))

def u64Max : Nat := 0xFFFFFFFFFFFFFFFF

def parseOptionValue (name : String) (raw : Text) : Except ProtocolError Nat :=
  let trimmed := trim raw
  let value := trimmed.foldl (fun n c => n * 10 + digitValue c) 0
  if trimmed.isEmpty || !trimmed.all Char.isDigit || value > u64Max then
    let shown := String.ofList raw
    .error s!"Invalid {name}: {shown}"
  else .ok value

def parseBounded (name : String) (raw : Text) (min max : Nat) : Except ProtocolError Nat := do
  let value ← parseOptionValue name raw
  if value < min ∨ value > max then
    let shown := String.ofList raw
    .error s!"Invalid {name}: {shown} ({min}-{max})"
  else return value

def negotiated {α : Type} (raw : Option Text) (default : α) (parse : Text → Except ProtocolError α) :
    Except ProtocolError α :=
  match raw with
  | some value => parse value
  | none => .ok default

/-- The window that keeps the bytes in flight within the budget. -/
def maxWindow (blksize : Nat) : Nat := max 1 (min (maxInFlightBytes / blksize) (blockSpace / 2 - 1))

def validateOptions (raw : RawOptions) (defaults : ValidatedOptions) : Except ProtocolError ValidatedOptions := do
  let blksize ← negotiated raw.blksize defaults.blksize
    fun value => parseBounded "blksize" value blksizeMin blksizeMax
  let timeout ← negotiated raw.timeout defaults.timeout
    fun value => some <$> parseBounded "timeout" value timeoutMin timeoutMax
  let tsize ← negotiated raw.tsize defaults.tsize fun value => some <$> parseOptionValue "tsize" value
  let windowsize ← negotiated raw.windowsize defaults.windowsize
    fun value => parseBounded "windowsize" value windowsizeMin windowsizeMax
  return {
    blksize := blksize
    windowsize := if windowsize > maxWindow blksize then maxWindow blksize else windowsize
    timeout := timeout
    tsize := tsize }

def validatedToRaw (opts : ValidatedOptions) : RawOptions where
  blksize := if opts.blksize ≠ defaultBlockSize then some (Nat.toDigits 10 opts.blksize) else none
  timeout := opts.timeout.map (Nat.toDigits 10)
  tsize := opts.tsize.map (Nat.toDigits 10)
  windowsize :=
    if opts.windowsize ≠ defaultWindowSize then some (Nat.toDigits 10 opts.windowsize) else none

structure ValidatedOptions.Usable (opts : ValidatedOptions) : Prop where
  blksize : 0 < opts.blksize
  windowsize : 0 < opts.windowsize
  halfSpace : opts.windowsize < blockSpace / 2

open Library in
theorem parseBounded_bounds {name : String} {raw : Text} {min max value : Nat}
    (parsed : parseBounded name raw min max = .ok value) : min ≤ value ∧ value ≤ max := by
  obtain ⟨num, -, checked⟩ := bind_eq_ok parsed
  split at checked
  · cases checked
  · cases checked
    omega

theorem negotiated_holds {α : Type} {Holds : α → Prop} {raw : Option Text} {default value : α}
    {parse : Text → Except ProtocolError α} (res : negotiated raw default parse = .ok value)
    (base : Holds default) (step : ∀ text value, parse text = .ok value → Holds value) : Holds value := by
  unfold negotiated at res
  split at res
  · exact step _ value res
  · cases res
    exact base

theorem maxWindow_bounds (blksize : Nat) : 1 ≤ maxWindow blksize ∧ maxWindow blksize < blockSpace / 2 := by
  unfold maxWindow blockSpace
  omega

open Library in
/-- What the validation accepts, a session can use. -/
theorem validateOptions_usable {raw : RawOptions} {opts : ValidatedOptions}
    (validated : validateOptions raw {} = .ok opts) : opts.Usable := by
  obtain ⟨blksize, first, rest⟩ := bind_eq_ok validated
  obtain ⟨timeout, -, rest⟩ := bind_eq_ok rest
  obtain ⟨tsize, -, rest⟩ := bind_eq_ok rest
  obtain ⟨windowsize, second, rest⟩ := bind_eq_ok rest
  cases rest
  have size : blksizeMin ≤ blksize := negotiated_holds first (by decide)
    fun _ _ parsed => (parseBounded_bounds parsed).1
  have window : windowsizeMin ≤ windowsize := negotiated_holds second (by decide)
    fun _ _ parsed => (parseBounded_bounds parsed).1
  have clamp := maxWindow_bounds blksize
  unfold blksizeMin at size
  unfold windowsizeMin at window
  refine ⟨?_, ?_, ?_⟩
  · dsimp only
    omega
  · dsimp only
    split
    · exact clamp.1
    · exact window
  · dsimp only
    split
    · exact clamp.2
    · omega

end NexTerminal.Tftp
