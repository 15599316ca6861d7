import NexTerminal.Host.OptionAgreement

/-! The strict parser of DHCP settings (`networkServerConfigValidation.ts`). Each
check reports its value and the errors it pushes, in order. -/

namespace NexTerminal.Host

open Library

def maxDhcpPoolSize : Nat := 65536
def minLeaseSeconds : Nat := 60
def maxLeaseSeconds : Nat := 604800
def maxDhcpStringBytes : Nat := 255
def maxPathBytes : Nat := 4096
def maxDhcpArrayEntries : Nat := 16
def maxStaticReservations : Nat := 1024
def maxVendorSuboptions : Nat := 64

namespace Defaults

def rangeStart : JsString := js "192.168.2.10"
def rangeEnd : JsString := js "192.168.2.199"

end Defaults

structure DhcpAdapterConfig where
  rangeStart : Option JsString := none
  rangeEnd : Option JsString := none
  subnet : Option JsString := none
  gateway : Option JsString := none
  dns : Option (List JsString) := none
  leaseTimeSec : Option JsNumber := none
  serverId : Option JsString := none
  broadcast : Option JsString := none
  static : Option (List (JsString × JsString)) := none
  bindAddress : Option JsString := none
  leaseStorePath : Option JsString := none
  bootFileName : Option JsString := none
  nextServer : Option JsString := none
  tftpServerAddresses : Option (List JsString) := none
  vendorClassId : Option JsString := none
  vendorSpecificOptions : Option (List DhcpVendorSpecificEntry) := none

def pushUnknownKeys (fields : List (JsString × JsValue)) (allowed : List String) (path : JsString) : List JsString :=
  (fields.filter fun field => !(allowed.map js).contains field.1).map fun field =>
    path ++ js "." ++ field.1 ++ js ": Unknown configuration key."

def isDigitUnit (u : UInt16) : Bool := 0x30 ≤ u && u ≤ 0x39

/-- `/^(?:0|[1-9][0-9]{0,2})$/`. -/
def isOctetText : JsString → Bool
  | [] => false
  | [u] => isDigitUnit u
  | first :: rest => isDigitUnit first && first != 0x30 && rest.all isDigitUnit && rest.length ≤ 2

/-- `Number(part)` of decimal digits. -/
def digitsToNumber (part : JsString) : Nat := part.foldl (fun n u => n * 10 + (u.toNat - 0x30)) 0

def ipv4ToInt (value : JsString) : Option Nat :=
  let parts := value.splitOn 0x2E
  if parts.length ≠ 4 then none
  else
    parts.foldlM (fun result part =>
      if !isOctetText part then none
      else
        let octet := digitsToNumber part
        if octet > 255 then none else some (result * 256 + octet)) 0

structure ParsedIpv4 where
  value : JsString
  numeric : Nat

/-- A six-octet MAC address, in lower case and joined by colons. The two groups of
`([:-])` and its back references are one separator throughout. -/
def canonicalMac : JsString → Option JsString
  | [a, a', s₁, b, b', s₂, c, c', s₃, d, d', s₄, e, e', s₅, f, f'] =>
    if [a, a', b, b', c, c', d, d', e, e', f, f'].all isHexDigit && (s₁ == 0x3A || s₁ == 0x2D)
        && [s₂, s₃, s₄, s₅].all (· == s₁) then
      some (asciiLower
        [a, a', 0x3A, b, b', 0x3A, c, c', 0x3A, d, d', 0x3A, e, e', 0x3A, f, f'])
    else none
  | _ => none

section
variable (numberToString : JsNumber → JsString)

def safeValueDescription : JsValue → JsString
  | .null => js "null"
  | .string text => text
  | .number n => numberToString n
  | .boolean b => if b then js "true" else js "false"
  | .undefined => js "undefined"
  | .exotic .bigint => js "bigint"
  | .exotic .symbol => js "symbol"
  | .exotic .function => js "function"
  | _ => js "object"

def parseIpv4 (value : JsValue) (path label : JsString) : Report ParsedIpv4 :=
  let refused (shown : JsString) : Report ParsedIpv4 :=
    .fail (path ++ js ": " ++ label ++ js " must be a dotted-quad IPv4 address (got \"" ++ shown
      ++ js "\").")
  match value with
  | .string text =>
    match ipv4ToInt text with
    | none => refused text
    | some numeric => .ok ⟨text, numeric⟩
  | other => refused (safeValueDescription numberToString other)

def parseBoundedString (value : JsValue) (path label : JsString) (maximumBytes : Nat) : Report JsString :=
  match value with
  | .string text =>
    if text.length = 0 then
      .fail (path ++ js ": " ++ label ++ js " must not be empty; omit it to use the default.")
    else if utf8Bytes text > maximumBytes then
      .fail (path ++ js ": " ++ label ++ js " is " ++ natText (utf8Bytes text)
        ++ js " bytes; the maximum is " ++ natText maximumBytes ++ js ".")
    else .ok text
  | _ => .fail (path ++ js ": " ++ label ++ js " must be a string.")

def parseTrimmedNonBlankString (value : JsValue) (path label : JsString) (maximumBytes : Nat) : Report JsString :=
  match value with
  | .string text =>
    let trimmed := trim text
    if trimmed.length = 0 then
      .fail (path ++ js ": " ++ label
        ++ js " must not be blank; omit it to serve boot options to every client.")
    else if utf8Bytes trimmed > maximumBytes then
      .fail (path ++ js ": " ++ label ++ js " is " ++ natText (utf8Bytes trimmed)
        ++ js " bytes; the maximum is " ++ natText maximumBytes ++ js ".")
    else .ok trimmed
  | _ => .fail (path ++ js ": " ++ label ++ js " must be a string.")

def parseLeaseTime (value : JsValue) (path : JsString) : Report JsNumber :=
  let refused : Report JsNumber :=
    .fail (path ++ js ": Lease Time must be a safe whole number between " ++ natText minLeaseSeconds
      ++ js " and " ++ natText maxLeaseSeconds ++ js " seconds.")
  match value with
  | .number n =>
    if !n.isSafeInteger || !n.within minLeaseSeconds maxLeaseSeconds then refused else .ok n
  | _ => refused

def parseIpv4Array (value : JsValue) (path label : JsString) (minimumEntries : Nat) : Report (List JsString) :=
  match value with
  | .array items =>
    if items.length > maxDhcpArrayEntries then
      .fail (path ++ js ": " ++ label ++ js " has " ++ natText items.length
        ++ js " entries; the maximum is " ++ natText maxDhcpArrayEntries ++ js ".")
    else if items.length < minimumEntries then
      .fail (path ++ js ": " ++ label ++ js " must contain at least " ++ natText minimumEntries
        ++ js " IPv4 address" ++ (if minimumEntries = 1 then js "" else js "es") ++ js ".")
    else
      let entries := items.zipIdx.map fun (item, index) =>
        parseIpv4 numberToString item (path ++ js "[" ++ natText index ++ js "]") label.dropLast
      { value := some (entries.filterMap fun entry => entry.value.map (·.value))
        errors := entries.flatMap (·.errors) }
  | _ => .fail (path ++ js ": " ++ label ++ js " must be an array of IPv4 addresses.")

/-- What the loop over the reservations has gathered so far. -/
structure StaticScan where
  parsed : List (JsString × JsString) := []
  addressOwners : List (JsString × JsString) := []
  errors : List JsString := []

def StaticScan.push (scan : StaticScan) (errors : List JsString) : StaticScan :=
  { scan with errors := scan.errors ++ errors }

def scanReservation (path : JsString) (scan : StaticScan) (entry : JsString × JsValue) : StaticScan :=
  let (rawMac, rawIp) := entry
  match canonicalMac rawMac with
  | none =>
    scan.push [path ++ js "." ++ rawMac
      ++ js ": Static reservation MAC addresses must be canonicalizable six-octet addresses."]
  | some mac =>
    if (scan.parsed.lookup mac).isSome then
      scan.push [path ++ js "." ++ rawMac
        ++ js ": Static reservation MAC aliases must not duplicate " ++ mac ++ js "."]
    else
      let ip := parseIpv4 numberToString rawIp (path ++ js "." ++ mac)
        (js "Static reservation address")
      let scan := scan.push ip.errors
      match ip.value with
      | none => scan
      | some ip =>
        match scan.addressOwners.lookup ip.value with
        | some owner =>
          scan.push [path ++ js "." ++ mac ++ js ": Static reservation address " ++ ip.value
            ++ js " is already reserved by " ++ owner ++ js "."]
        | none =>
          { scan with
            parsed := scan.parsed ++ [(mac, ip.value)]
            addressOwners := scan.addressOwners ++ [(ip.value, mac)] }

def parseStaticReservations (value : JsValue) (path : JsString) : Report (List (JsString × JsString)) :=
  match value with
  | .record entries =>
    if entries.length > maxStaticReservations then
      .fail (path ++ js ": Static reservations has " ++ natText entries.length
        ++ js " entries; the maximum is " ++ natText maxStaticReservations ++ js ".")
    else
      let scan := entries.foldl (scanReservation numberToString path) {}
      { value := some scan.parsed, errors := scan.errors }
  | _ => .fail (path ++ js ": Static reservations must be a MAC-to-IPv4 object.")

/-- What the loop over the vendor options has gathered so far. -/
structure VendorScan where
  parsed : List DhcpVendorSpecificEntry := []
  totalBytes : Nat := 0
  errors : List JsString := []

def VendorScan.push (scan : VendorScan) (errors : List JsString) : VendorScan :=
  { scan with errors := scan.errors ++ errors }

def scanVendorOption (path : JsString) (scan : VendorScan) (item : JsValue × Nat) : VendorScan :=
  let entryPath := path ++ js "[" ++ natText item.2 ++ js "]"
  match item.1 with
  | .record entry =>
    let scan := scan.push (pushUnknownKeys entry ["subOption", "value"] entryPath)
    let badCode := scan.push [entryPath
      ++ js ".subOption: Vendor sub-option code must be an integer between 1 and 254."]
    match ownField entry "subOption" with
    | some (.number subOption) =>
      if !isValidSubOptionCode subOption then badCode
      else
        let optionValue := parseBoundedString ((ownField entry "value").getD .undefined)
          (entryPath ++ js ".value") (js "Vendor sub-option value") maxDhcpStringBytes
        let scan := scan.push optionValue.errors
        match optionValue.value with
        | none => scan
        | some optionValue =>
          match parseVendorOptionValue optionValue with
          | .error message => scan.push [entryPath ++ js ".value: " ++ message]
          | .ok bytes =>
            if bytes.length > maxDhcpStringBytes then
              scan.push [entryPath ++ js ".value: Vendor sub-option value is "
                ++ natText bytes.length ++ js " bytes; the maximum is " ++ natText maxDhcpStringBytes
                ++ js "."]
            else
              { scan with
                totalBytes := scan.totalBytes + bytes.length + 2
                parsed := scan.parsed ++ [⟨subOption, optionValue⟩] }
    | _ => badCode
  | _ => scan.push [entryPath ++ js ": Vendor-specific option entries must be objects."]

def parseVendorSpecificOptions (value : JsValue) (path : JsString) : Report (List DhcpVendorSpecificEntry) :=
  match value with
  | .array items =>
    if items.length > maxVendorSuboptions then
      .fail (path ++ js ": Vendor-specific options has " ++ natText items.length
        ++ js " entries; the maximum is " ++ natText maxVendorSuboptions ++ js ".")
    else
      let scan := items.zipIdx.foldl (scanVendorOption path) {}
      if scan.totalBytes > maxDhcpStringBytes then
        { errors := scan.errors ++ [path ++ js ": Vendor option 43 payload is "
            ++ natText scan.totalBytes ++ js " bytes; the maximum is " ++ natText maxDhcpStringBytes
            ++ js "."] }
      else { value := some scan.parsed, errors := scan.errors }
  | _ => .fail (path ++ js ": Vendor-specific options must be an array.")

def parseSubnet (value : JsValue) (path : JsString) : Report JsString :=
  let subnet := parseIpv4 numberToString value path (js "Subnet Mask")
  match subnet.value with
  | none => { errors := subnet.errors }
  | some mask =>
    let inverted := ~~~(UInt32.ofNat mask.numeric)
    if (inverted + 1) &&& inverted ≠ 0 then
      { errors := subnet.errors ++ [path ++ js ": Subnet Mask \"" ++ mask.value
          ++ js "\" is not a valid netmask — its set bits must be contiguous (e.g. 255.255.255.0)."] }
    else { value := some mask.value, errors := subnet.errors }

def dhcpKeys : List String :=
  ["rangeStart", "rangeEnd", "subnet", "gateway", "dns", "leaseTimeSec", "serverId", "broadcast",
    "static", "bindAddress", "leaseStorePath", "bootFileName", "nextServer", "tftpServerAddresses",
    "vendorClassId", "vendorSpecificOptions"]

def checkRange (path : JsString) (start stop : Option ParsedIpv4) : List JsString :=
  let rangeStart := (start.map (·.numeric)).getD ((ipv4ToInt Defaults.rangeStart).getD 0)
  let rangeEnd := (stop.map (·.numeric)).getD ((ipv4ToInt Defaults.rangeEnd).getD 0)
  if start.isSome || stop.isSome then
    if rangeStart > rangeEnd then
      [path ++ js ".rangeStart: Pool Start (" ++ (start.map (·.value)).getD Defaults.rangeStart
        ++ js ") must not be higher than Pool End ("
        ++ (stop.map (·.value)).getD Defaults.rangeEnd ++ js ")."]
    else if rangeEnd - rangeStart + 1 > maxDhcpPoolSize then
      [path ++ js ".rangeEnd: DHCP pool size must not exceed 65,536 addresses."]
    else []
  else []

def parseDhcpConfigAt (value : JsValue) (path : JsString) : Except (List JsString) DhcpAdapterConfig :=
  match value with
  | .record fields =>
    let at_ (key : String) : JsString := path ++ js "." ++ js key
    let address (key label : String) : Report ParsedIpv4 :=
      .ofField fields key fun field => parseIpv4 numberToString field (at_ key) (js label)
    let text (key label : String) (maximumBytes : Nat) : Report JsString :=
      .ofField fields key fun field => parseBoundedString field (at_ key) (js label) maximumBytes
    let addresses (key label : String) (minimumEntries : Nat) : Report (List JsString) :=
      .ofField fields key fun field =>
        parseIpv4Array numberToString field (at_ key) (js label) minimumEntries
    let rangeStart := address "rangeStart" "Pool Start"
    let rangeEnd := address "rangeEnd" "Pool End"
    let gateway := address "gateway" "Gateway"
    let serverId := address "serverId" "Server Identifier"
    let broadcast := address "broadcast" "Broadcast Address"
    let bindAddress := address "bindAddress" "Interface"
    let subnet := Report.ofField fields "subnet" fun field =>
      parseSubnet numberToString field (at_ "subnet")
    let dns := addresses "dns" "DNS servers" 1
    let tftpServerAddresses := addresses "tftpServerAddresses" "TFTP server addresses" 0
    let leaseTimeSec := Report.ofField fields "leaseTimeSec" fun field =>
      parseLeaseTime field (at_ "leaseTimeSec")
    let static := Report.ofField fields "static" fun field =>
      parseStaticReservations numberToString field (at_ "static")
    let leaseStorePath := text "leaseStorePath" "Lease Store Path" maxPathBytes
    let bootFileName := text "bootFileName" "Boot File Name" maxDhcpStringBytes
    let nextServer := address "nextServer" "Next Server"
    let vendorClassId := Report.ofField fields "vendorClassId" fun field =>
      parseTrimmedNonBlankString field (at_ "vendorClassId") (js "Vendor Class Identifier")
        maxDhcpStringBytes
    let vendorSpecificOptions := Report.ofField fields "vendorSpecificOptions" fun field =>
      parseVendorSpecificOptions field (at_ "vendorSpecificOptions")
    let errors := pushUnknownKeys fields dhcpKeys path ++ rangeStart.errors ++ rangeEnd.errors
      ++ gateway.errors ++ serverId.errors ++ broadcast.errors ++ bindAddress.errors ++ subnet.errors
      ++ dns.errors ++ tftpServerAddresses.errors ++ leaseTimeSec.errors ++ static.errors
      ++ leaseStorePath.errors ++ bootFileName.errors ++ nextServer.errors ++ vendorClassId.errors
      ++ vendorSpecificOptions.errors ++ checkRange path rangeStart.value rangeEnd.value
    if errors.length > 0 then .error errors
    else
      .ok {
        rangeStart := rangeStart.value.map (·.value)
        rangeEnd := rangeEnd.value.map (·.value)
        subnet := subnet.value
        gateway := gateway.value.map (·.value)
        dns := dns.value
        leaseTimeSec := leaseTimeSec.value
        serverId := serverId.value.map (·.value)
        broadcast := broadcast.value.map (·.value)
        static := static.value
        bindAddress := bindAddress.value.map (·.value)
        leaseStorePath := leaseStorePath.value
        bootFileName := bootFileName.value
        nextServer := nextServer.value.map (·.value)
        tftpServerAddresses := tftpServerAddresses.value
        vendorClassId := vendorClassId.value
        vendorSpecificOptions := vendorSpecificOptions.value }
  | _ => .error [path ++ js ": DHCP configuration must be an object."]

def parseDhcpConfig (value : JsValue) : Except (List JsString) DhcpAdapterConfig :=
  parseDhcpConfigAt numberToString value (js "dhcp")

end

end NexTerminal.Host
