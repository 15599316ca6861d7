import NexTerminal.Dhcp.Protocol

/-! Zero-touch-provisioning options 43, 60, 66, 67 and 150 (`boot.rs`). -/

namespace NexTerminal.Dhcp

open Library

structure VendorEntry where
  subOption : Int
  value : Text

inductive BootOptionError
  | invalidSubOptionCode (code : Int)
  | nonHexDigits (raw : Text)
  | oddHexDigits (raw : Text) (digits : Nat)
  | subOptionTooLong (subOption : Int) (len : Nat)
  | payloadTooLong (len : Nat)
  | textTooLong (label : String) (len : Nat)
  | encode (error : EncodeError)

def BootOptionError.display : BootOptionError → String
  | .invalidSubOptionCode code =>
    s!"invalid option 43 sub-option code {code}: expected an integer between 1 and 254 "
      ++ "(0 is PAD, 255 is END)"
  | .nonHexDigits raw =>
    let shown := String.ofList raw
    s!"invalid hex value \"{shown}\": only 0-9 and a-f are allowed after the 0x prefix"
  | .oddHexDigits raw digits =>
    let shown := String.ofList raw
    s!"invalid hex value \"{shown}\": {digits} digits is not a whole number of bytes"
  | .subOptionTooLong subOption len =>
    s!"option 43 sub-option {subOption} is {len} bytes; the length field carries at "
      ++ s!"most {maxOptionValueBytes}"
  | .payloadTooLong len =>
    s!"option 43 payload is {len} bytes; a single DHCP option carries at most "
      ++ s!"{maxOptionValueBytes}. Remove or shorten sub-options."
  | .textTooLong label len =>
    s!"{label} is {len} bytes; a DHCP option carries at most {maxOptionValueBytes}"
  | .encode error => error.display

def normalizeOptionText (value : Option Text) (label : String) : Except BootOptionError (Option Text) :=
  match value with
  | none => .ok none
  | some value =>
    if (trim value).isEmpty then .ok none
    else if byteLen value > maxOptionValueBytes then .error (.textTooLong label (byteLen value))
    else .ok (some value)

/-- Sub-option codes 0 and 255 are reserved by the option encoding itself. -/
def isValidSubOptionCode (code : Int) : Bool := decide (1 ≤ code) && decide (code ≤ 254)

def hexValue (c : Char) : Nat :=
  if c.isDigit then c.toNat - '0'.toNat
  else if 'a' ≤ c then c.toNat - 'a'.toNat + 10
  else c.toNat - 'A'.toNat + 10

def hexBytes : Text → Bytes
  | high :: low :: rest => .ofNat (hexValue high * 16 + hexValue low) :: hexBytes rest
  | _ => []

/-- Converts a configured option value into the bytes that go on the wire. -/
def parseVendorOptionValue (raw : Text) : Except BootOptionError Bytes :=
  match raw with
  | '0' :: x :: body =>
    if x = 'x' ∨ x = 'X' then
      let digits := body.filter fun c => !(c == ':' || c == '-' || c == '_') && !isWhitespace c
      if !digits.all isAsciiHexdigit then .error (.nonHexDigits raw)
      else if digits.length % 2 = 1 then .error (.oddHexDigits raw digits.length)
      else .ok (hexBytes digits)
    else .ok (raw.flatMap String.utf8EncodeChar)
  | _ => .ok (raw.flatMap String.utf8EncodeChar)

/-- One `[code][length][value…]` entry of option 43. -/
def encodeVendorEntry (entry : VendorEntry) : Except BootOptionError Bytes := do
  if !isValidSubOptionCode entry.subOption then throw (.invalidSubOptionCode entry.subOption)
  let value ← parseVendorOptionValue entry.value
  if value.length > maxOptionValueBytes then
    throw (.subOptionTooLong entry.subOption value.length)
  return [.ofNat entry.subOption.toNat, .ofNat value.length] ++ value

def encodeVendorSpecificInfo (entries : List VendorEntry) : Except BootOptionError Bytes := do
  let encoded := (← entries.mapM encodeVendorEntry).flatten
  if encoded.length > maxOptionValueBytes then throw (.payloadTooLong encoded.length)
  return encoded

def toAsciiLower (c : Char) : Char := if 'A' ≤ c ∧ c ≤ 'Z' then Char.ofNat (c.toNat + 32) else c

def matchesVendorClass (configured observed : Option Text) : Bool :=
  match (configured.map trim).filter fun expected => !expected.isEmpty with
  | none => true
  | some expected =>
    match observed with
    | none => false
    | some observed => (trim observed).map toAsciiLower == expected.map toAsciiLower

structure BootOptions where
  nextServer : Option Text := none
  bootFileName : Option Text := none
  tftpServerAddresses : List Ipv4Addr := []
  vendorClassId : Option Text := none
  vendorSpecific : Bytes := []

namespace BootOptions

def new (nextServer bootFileName : Option Text) (tftpServerAddresses : List Ipv4Addr) (vendorClassId : Option Text)
    (vendorEntries : List VendorEntry) : Except BootOptionError BootOptions := do
  return {
    nextServer := ← normalizeOptionText nextServer "Next Server"
    bootFileName := ← normalizeOptionText bootFileName "Boot File Name"
    tftpServerAddresses := tftpServerAddresses
    vendorClassId := ← normalizeOptionText vendorClassId "Vendor Class Identifier"
    vendorSpecific := ← encodeVendorSpecificInfo vendorEntries }

def writeInto (boot : BootOptions) (observedVendorClass : Option Text) : OptionsBuilder Bool := do
  if !matchesVendorClass boot.vendorClassId observedVendorClass then return false
  if let some server := boot.nextServer then
    OptionsBuilder.putText optionTftpServerName server
  if let some file := boot.bootFileName then
    OptionsBuilder.putText optionBootfileName file
  if !boot.tftpServerAddresses.isEmpty then
    OptionsBuilder.putIpv4List optionCiscoTftpServers boot.tftpServerAddresses
  if !boot.vendorSpecific.isEmpty then
    OptionsBuilder.put optionVendorSpecific boot.vendorSpecific
  return true

end BootOptions

end NexTerminal.Dhcp
