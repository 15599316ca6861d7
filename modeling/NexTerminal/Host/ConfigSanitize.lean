import NexTerminal.Host.ConfigSent

namespace NexTerminal.Host

open Library

/-- A field that is there and not undefined. -/
def Report.ofConfigured {α : Type} (fields : List (JsString × JsValue)) (key : String)
    (parse : JsValue → Report α) :
    Report α :=
  match ownField fields key with
  | none | some .undefined => {}
  | some value => parse value

/-- What is wrong with a range: each end that was configured is dropped with this. -/
def rangeFault (start stop : Option ParsedIpv4) : Option JsString :=
  if start.isSome || stop.isSome then
    let rangeStart := (start.map (·.numeric)).getD ((ipv4ToInt Defaults.rangeStart).getD 0)
    let rangeEnd := (stop.map (·.numeric)).getD ((ipv4ToInt Defaults.rangeEnd).getD 0)
    if rangeStart > rangeEnd then
      some (js ": Pool Start (" ++ (start.map (·.value)).getD Defaults.rangeStart ++ js ") is above Pool End ("
        ++ (stop.map (·.value)).getD Defaults.rangeEnd ++ js "), which describes an empty pool.")
    else if rangeEnd - rangeStart + 1 > maxDhcpPoolSize then
      some (js ": DHCP pool size must not exceed 65,536 addresses.")
    else none
  else none

section
variable (numberToString : JsNumber → JsString)

/-- Sanitizes settings-originated DHCP fields using the same primitive checks as
`parseDhcpConfig`. A bad field is dropped with a warning, and the others stay. -/
def sanitizeDhcpConfig (value : JsValue) : DhcpAdapterConfig × List JsString :=
  match value with
  | .record fields =>
    let at_ (key : String) : JsString := js "dhcp" ++ js "." ++ js key
    let address (key label : String) : Report ParsedIpv4 :=
      .ofConfigured fields key fun field => parseIpv4 numberToString field (at_ key) (js label)
    let text (key label : String) (maximumBytes : Nat) : Report JsString :=
      .ofConfigured fields key fun field => parseBoundedString field (at_ key) (js label) maximumBytes
    let addresses (key label : String) (minimumEntries : Nat) : Report (List JsString) :=
      .ofConfigured fields key fun field => parseIpv4Array numberToString field (at_ key) (js label) minimumEntries
    let rangeStart := address "rangeStart" "Pool Start"
    let rangeEnd := address "rangeEnd" "Pool End"
    let gateway := address "gateway" "Gateway"
    let serverId := address "serverId" "Server Identifier"
    let broadcast := address "broadcast" "Broadcast Address"
    let bindAddress := address "bindAddress" "Interface"
    let subnet := Report.ofConfigured fields "subnet" fun field => parseSubnet numberToString field (at_ "subnet")
    let dns := addresses "dns" "DNS servers" 1
    let tftpServerAddresses := addresses "tftpServerAddresses" "TFTP server addresses" 0
    let leaseTimeSec := Report.ofConfigured fields "leaseTimeSec" fun field => parseLeaseTime field (at_ "leaseTimeSec")
    let static := Report.ofConfigured fields "static" fun field =>
      parseStaticReservations numberToString field (at_ "static")
    let leaseStorePath := text "leaseStorePath" "Lease Store Path" maxPathBytes
    let bootFileName := text "bootFileName" "Boot File Name" maxDhcpStringBytes
    let nextServer := address "nextServer" "Next Server"
    let vendorClassId := Report.ofConfigured fields "vendorClassId" fun field =>
      parseTrimmedNonBlankString field (at_ "vendorClassId") (js "Vendor Class Identifier") maxDhcpStringBytes
    let vendorSpecificOptions := Report.ofConfigured fields "vendorSpecificOptions" fun field =>
      parseVendorSpecificOptions field (at_ "vendorSpecificOptions")
    let warnings := pushUnknownKeys fields dhcpKeys (js "dhcp") ++ rangeStart.errors ++ rangeEnd.errors
      ++ gateway.errors ++ serverId.errors ++ broadcast.errors ++ bindAddress.errors ++ subnet.errors
      ++ dns.errors ++ tftpServerAddresses.errors ++ leaseTimeSec.errors ++ static.errors
      ++ leaseStorePath.errors ++ bootFileName.errors ++ nextServer.errors ++ vendorClassId.errors
      ++ vendorSpecificOptions.errors
    let parsed : DhcpAdapterConfig := {
      rangeStart := rangeStart.value.map (·.value)
      rangeEnd := rangeEnd.value.map (·.value)
      subnet := subnet.value
      gateway := gateway.value.map (·.value)
      dns := dns.value.filter fun dns => dns.length > 0
      leaseTimeSec := leaseTimeSec.value
      serverId := serverId.value.map (·.value)
      broadcast := broadcast.value.map (·.value)
      static := static.value.filter fun reservations => reservations.length > 0
      bindAddress := bindAddress.value.map (·.value)
      leaseStorePath := leaseStorePath.value
      bootFileName := bootFileName.value
      nextServer := nextServer.value.map (·.value)
      tftpServerAddresses := tftpServerAddresses.value.filter fun addresses => addresses.length > 0
      vendorClassId := vendorClassId.value
      vendorSpecificOptions := vendorSpecificOptions.value.filter fun options => options.length > 0 }
    match rangeFault rangeStart.value rangeEnd.value with
    | none => (parsed, warnings)
    | some fault =>
      ({ parsed with rangeStart := none, rangeEnd := none },
        warnings ++ (if rangeStart.value.isSome then [at_ "rangeStart" ++ fault] else [])
          ++ if rangeEnd.value.isSome then [at_ "rangeEnd" ++ fault] else [])
  | _ => ({}, [js "dhcp: DHCP configuration must be an object."])

end

def DhcpVendorSpecificEntry.toJsValue (entry : DhcpVendorSpecificEntry) : JsValue :=
  .record [(js "subOption", .number entry.subOption), (js "value", .string entry.value)]

def ofTexts (texts : List JsString) : JsValue := .array (texts.map .string)

def ofReservations (reservations : List (JsString × JsString)) : JsValue :=
  .record (reservations.map fun entry => (entry.1, .string entry.2))

def ofVendorOptions (options : List DhcpVendorSpecificEntry) : JsValue := .array (options.map (·.toJsValue))

/-- The properties of a configuration: those that are set. -/
def DhcpAdapterConfig.properties (config : DhcpAdapterConfig) : List (String × Option JsValue) :=
  [("rangeStart", config.rangeStart.map .string), ("rangeEnd", config.rangeEnd.map .string),
    ("subnet", config.subnet.map .string), ("gateway", config.gateway.map .string), ("dns", config.dns.map ofTexts),
    ("leaseTimeSec", config.leaseTimeSec.map .number), ("serverId", config.serverId.map .string),
    ("broadcast", config.broadcast.map .string), ("static", config.static.map ofReservations),
    ("bindAddress", config.bindAddress.map .string), ("leaseStorePath", config.leaseStorePath.map .string),
    ("bootFileName", config.bootFileName.map .string), ("nextServer", config.nextServer.map .string),
    ("tftpServerAddresses", config.tftpServerAddresses.map ofTexts),
    ("vendorClassId", config.vendorClassId.map .string),
    ("vendorSpecificOptions", config.vendorSpecificOptions.map ofVendorOptions)]

def DhcpAdapterConfig.fields (config : DhcpAdapterConfig) : List (JsString × JsValue) :=
  config.properties.filterMap fun property => property.2.map (js property.1, ·)

def DhcpAdapterConfig.toJsValue (config : DhcpAdapterConfig) : JsValue := .record config.fields

section

variable {numberToString : JsNumber → JsString} {path label : JsString} {value : JsValue}

theorem parseIpv4_numbered {addr : ParsedIpv4}
    (read : (parseIpv4 numberToString value path label).value = some addr) :
    ipv4ToInt addr.value = some addr.numeric := by
  cases value with
  | string text =>
    cases numbered : ipv4ToInt text with
    | none => simp [parseIpv4, numbered, Report.fail] at read
    | some numeric =>
      simp only [parseIpv4, numbered, Report.ok, Option.some.injEq] at read
      subst read
      exact numbered
  | _ => simp [parseIpv4, Report.fail] at read

theorem parseIpv4_value {address : ParsedIpv4}
    (read : (parseIpv4 numberToString value path label).value = some address) (path label : JsString) :
    parseIpv4 numberToString (.string address.value) path label = .ok address := by
  simp [parseIpv4, parseIpv4_numbered read]

variable {text : JsString}

theorem parseBoundedString_value {maximumBytes : Nat}
    (read : (parseBoundedString value path label maximumBytes).value = some text) (path label : JsString) :
    parseBoundedString (.string text) path label maximumBytes = .ok text := by
  cases value with
  | string given =>
    simp only [parseBoundedString] at read ⊢
    split at read
    · simp [Report.fail] at read
    · rename_i ne
      split at read
      · simp [Report.fail] at read
      · rename_i fits
        cases read
        rw [if_neg ne, if_neg fits]
  | _ => simp [parseBoundedString, Report.fail] at read

theorem trim_trim (text : JsString) : trim (trim text) = trim text := trimWith_trimWith (fun _ drops => drops) text

theorem parseTrimmedNonBlankString_value {maximumBytes : Nat}
    (read : (parseTrimmedNonBlankString value path label maximumBytes).value = some text) (path label : JsString) :
    parseTrimmedNonBlankString (.string text) path label maximumBytes = .ok text := by
  cases value with
  | string given =>
    simp only [parseTrimmedNonBlankString] at read ⊢
    split at read
    · simp [Report.fail] at read
    · rename_i ne
      split at read
      · simp [Report.fail] at read
      · rename_i fits
        cases read
        rw [trim_trim, if_neg ne, if_neg fits]
  | _ => simp [parseTrimmedNonBlankString, Report.fail] at read

theorem parseLeaseTime_value {seconds : JsNumber}
    (read : (parseLeaseTime value path).value = some seconds) (path : JsString) :
    parseLeaseTime (.number seconds) path = .ok seconds := by
  cases value with
  | number given =>
    simp only [parseLeaseTime] at read ⊢
    split at read
    · simp [Report.fail] at read
    · rename_i good
      cases read
      rw [if_neg good]
  | _ => simp [parseLeaseTime, Report.fail] at read

theorem parseSubnet_value {mask : JsString}
    (read : (parseSubnet numberToString value path).value = some mask) (other : JsString) :
    parseSubnet numberToString (.string mask) other = .ok mask := by
  cases parsed : (parseIpv4 numberToString value path (js "Subnet Mask")).value with
  | none => simp [parseSubnet, parsed] at read
  | some addr =>
    have again := parseIpv4_value parsed other (js "Subnet Mask")
    simp only [parseSubnet, parsed] at read
    split at read
    · cases read
    · rename_i contiguous
      cases read
      simp only [parseSubnet, again, Report.ok]
      rw [if_neg contiguous]

theorem parseIpv4_text (numbered : (ipv4ToInt text).isSome = true) (path label : JsString) :
    parseIpv4 numberToString (.string text) path label = .ok ⟨text, (ipv4ToInt text).getD 0⟩ := by
  obtain ⟨numeric, read⟩ := Option.isSome_iff_exists.mp numbered
  simp [parseIpv4, read]

variable {texts : List JsString}

theorem parseIpv4_texts (each : ∀ text ∈ texts, (ipv4ToInt text).isSome = true) (k : Nat) :
    ((texts.map JsValue.string).zipIdx k).map (fun (item, idx) =>
        parseIpv4 numberToString item (path ++ js "[" ++ natText idx ++ js "]") label) =
      texts.map fun text => .ok ⟨text, (ipv4ToInt text).getD 0⟩ := by
  induction texts generalizing k with
  | nil => rfl
  | cons text rest ih =>
    rw [List.forall_mem_cons] at each
    rw [List.map_cons, List.zipIdx_cons, List.map_cons, ih each.2, List.map_cons]
    exact congrArg (· :: _) (parseIpv4_text each.1 ..)

theorem parseIpv4Array_ofTexts {minimumEntries : Nat}
    (each : ∀ text ∈ texts, (ipv4ToInt text).isSome = true) (few : texts.length ≤ maxDhcpArrayEntries)
    (enough : minimumEntries ≤ texts.length) :
    parseIpv4Array numberToString (ofTexts texts) path label minimumEntries = .ok texts := by
  simp only [parseIpv4Array, ofTexts, List.length_map]
  rw [if_neg (by omega), if_neg (by omega), parseIpv4_texts each]
  simp [Report.ok]

theorem parseIpv4Array_value {minimumEntries : Nat}
    (read : (parseIpv4Array numberToString value path label minimumEntries).value = some texts) :
    (∀ text ∈ texts, (ipv4ToInt text).isSome = true) ∧ texts.length ≤ maxDhcpArrayEntries := by
  cases value with
  | array items =>
    simp only [parseIpv4Array] at read
    split at read
    · simp [Report.fail] at read
    · split at read
      · simp [Report.fail] at read
      · cases read
        refine ⟨fun text mem => ?_, ?_⟩
        · obtain ⟨entry, listed, parsed⟩ := List.mem_filterMap.mp mem
          obtain ⟨⟨item, idx⟩, -, rfl⟩ := List.mem_map.mp listed
          obtain ⟨addr, hit, rfl⟩ := Option.map_eq_some_iff.mp parsed
          exact Option.isSome_of_eq_some (parseIpv4_numbered hit)
        · refine (List.length_filterMap_le _ _).trans ?_
          rw [List.length_map, List.length_zipIdx]
          omega
  | _ => simp [parseIpv4Array, Report.fail] at read

/-- What the loop over the reservations keeps: each as it reads again, no address and no owner twice. -/
structure StaticScan.Sound (scan : StaticScan) : Prop where
  owners : scan.addressOwners = scan.parsed.map Prod.swap
  macs : (scan.parsed.map Prod.fst).Nodup
  ips : (scan.parsed.map Prod.snd).Nodup
  canonical : ∀ entry ∈ scan.parsed, canonicalMac entry.1 = some entry.1
  numbered : ∀ entry ∈ scan.parsed, (ipv4ToInt entry.2).isSome = true

theorem hexUnit_lower {u : UInt16} (hex : isHexDigit u = true) :
    isHexDigit (asciiLowerUnit u) = true ∧ asciiLowerUnit (asciiLowerUnit u) = asciiLowerUnit u := by
  refine hexUnit_cases (fun u => isHexDigit (asciiLowerUnit u) = true ∧
    asciiLowerUnit (asciiLowerUnit u) = asciiLowerUnit u) ?_ hex
  decide

theorem canonicalMac_canonicalMac {raw mac : JsString} (read : canonicalMac raw = some mac) :
    canonicalMac mac = some mac := by
  unfold canonicalMac at read
  split at read
  · split at read
    · rename_i shape
      cases read
      simp only [List.all_cons, Bool.and_eq_true] at shape
      have colon : asciiLowerUnit 0x3A = 0x3A := by decide
      simp [asciiLower, canonicalMac, colon, hexUnit_lower, shape.1.1]
    · cases read
  · cases read

variable {scan : StaticScan}

theorem StaticScan.Sound.push (sound : scan.Sound) (errors : List JsString) :
    (scan.push errors).Sound := { sound with }

theorem StaticScan.Sound.add (sound : scan.Sound) {mac ip : JsString}
    (canonical : canonicalMac mac = some mac) (numbered : (ipv4ToInt ip).isSome = true)
    (newMac : scan.parsed.lookup mac = none) (newIp : scan.addressOwners.lookup ip = none) :
    StaticScan.Sound { scan with
      parsed := scan.parsed ++ [(mac, ip)]
      addressOwners := scan.addressOwners ++ [(ip, mac)] } := by
  rw [List.lookup_eq_none_iff] at newMac newIp
  refine ⟨?_, ?_, ?_, ?_, ?_⟩
  · simp [sound.owners]
  · rw [List.map_append]
    refine List.nodup_append.mpr ⟨sound.macs, List.nodup_singleton _, fun other known last here => ?_⟩
    obtain ⟨entry, mem, rfl⟩ := List.mem_map.mp known
    rw [List.mem_singleton.mp here]
    exact (bne_iff_ne.mp (newMac entry mem)).symm
  · rw [List.map_append]
    refine List.nodup_append.mpr ⟨sound.ips, List.nodup_singleton _, fun other known last here => ?_⟩
    obtain ⟨entry, mem, rfl⟩ := List.mem_map.mp known
    rw [List.mem_singleton.mp here]
    exact (bne_iff_ne.mp (newIp entry.swap (sound.owners ▸ List.mem_map_of_mem mem))).symm
  · simpa [or_imp, forall_and, canonical] using fun mac ip => sound.canonical (mac, ip)
  · simpa [or_imp, forall_and, numbered] using fun mac ip => sound.numbered (mac, ip)

theorem scanReservation_sound (sound : scan.Sound) (entry : JsString × JsValue) :
    (scanReservation numberToString path scan entry).Sound ∧
      (scanReservation numberToString path scan entry).parsed.length ≤ scan.parsed.length + 1 := by
  obtain ⟨rawMac, rawIp⟩ := entry
  unfold scanReservation
  dsimp only
  cases canonical : canonicalMac rawMac with
  | none => exact ⟨sound.push _, Nat.le_succ _⟩
  | some mac =>
    dsimp only
    split
    · exact ⟨sound.push _, Nat.le_succ _⟩
    · rename_i known
      generalize js "Static reservation address" = label
      cases read : (parseIpv4 numberToString rawIp (path ++ js "." ++ mac) label).value with
      | none => exact ⟨sound.push _, Nat.le_succ _⟩
      | some ip =>
        dsimp only
        cases owned :
          (scan.push (parseIpv4 numberToString rawIp (path ++ js "." ++ mac) label).errors).addressOwners.lookup
            ip.value with
        | some owner => exact ⟨(sound.push _).push _, Nat.le_succ _⟩
        | none =>
          refine ⟨(sound.push _).add (canonicalMac_canonicalMac canonical)
            (Option.isSome_of_eq_some (parseIpv4_numbered read)) ?_ owned, ?_⟩
          · exact Option.not_isSome_iff_eq_none.mp known
          · exact (List.length_append ..).le

theorem StaticScan.Sound.rescan {entries : List (JsString × JsString)}
    (sound : StaticScan.Sound ⟨entries, entries.map Prod.swap, []⟩) :
    (entries.map fun entry => (entry.1, JsValue.string entry.2)).foldl (scanReservation numberToString path) {} =
      ⟨entries, entries.map Prod.swap, []⟩ := by
  induction entries using List.reverseRecOn with
  | nil => rfl
  | append_singleton front last ih =>
    have pre : StaticScan.Sound ⟨front, front.map Prod.swap, []⟩ := by
      refine ⟨rfl, ?_, ?_, fun entry mem => sound.canonical entry (List.mem_append_left _ mem),
        fun entry mem => sound.numbered entry (List.mem_append_left _ mem)⟩
      · exact (List.map_append ▸ sound.macs).of_append_left
      · exact (List.map_append ▸ sound.ips).of_append_left
    have inside : last ∈ front ++ [last] := List.mem_append_right _ List.mem_cons_self
    have newMac : front.lookup last.1 = none := by
      obtain ⟨-, -, ne⟩ := List.nodup_append.mp (List.map_append ▸ sound.macs)
      exact List.lookup_eq_none_iff.mpr fun entry listed =>
        bne_iff_ne.mpr (ne entry.1 (List.mem_map_of_mem listed) last.1 (List.mem_singleton_self _)).symm
    have newIp : (front.map Prod.swap).lookup last.2 = none := by
      obtain ⟨-, -, ne⟩ := List.nodup_append.mp (List.map_append ▸ sound.ips)
      refine List.lookup_eq_none_iff.mpr fun swapped listed => ?_
      obtain ⟨entry, mem, rfl⟩ := List.mem_map.mp listed
      exact bne_iff_ne.mpr (ne entry.2 (List.mem_map_of_mem mem) last.2 (List.mem_singleton_self _)).symm
    have reads (path label : JsString) : parseIpv4 numberToString (.string last.2) path label =
        .ok ⟨last.2, (ipv4ToInt last.2).getD 0⟩ := parseIpv4_text (sound.numbered last inside) path label
    rw [List.map_append, List.foldl_append, ih pre, List.map_singleton, List.foldl_cons, List.foldl_nil]
    simp only [scanReservation, sound.canonical last inside, newMac, newIp, reads, StaticScan.push, Report.ok]
    simp
    rfl

theorem parseStaticReservations_value {reservations : List (JsString × JsString)}
    (read : (parseStaticReservations numberToString value path).value = some reservations) (other : JsString) :
    parseStaticReservations numberToString (ofReservations reservations) other = .ok reservations := by
  cases value with
  | record entries =>
    simp only [parseStaticReservations] at read
    split at read
    · simp [Report.fail] at read
    · cases read
      have kept (entries : List (JsString × JsValue)) :
          (entries.foldl (scanReservation numberToString path) {}).Sound ∧
            (entries.foldl (scanReservation numberToString path) {}).parsed.length ≤ entries.length := by
        induction entries using List.reverseRecOn with
        | nil => exact ⟨⟨rfl, .nil, .nil, by simp, by simp⟩, Nat.le_refl _⟩
        | append_singleton front last ih =>
          rw [List.foldl_append, List.foldl_cons, List.foldl_nil, List.length_append]
          exact (scanReservation_sound ih.1 last).imp_right fun short => short.trans (Nat.succ_le_succ ih.2)
      obtain ⟨sound, short⟩ := kept entries
      generalize (entries.foldl (scanReservation numberToString path) {}) = scan at sound short
      have again : StaticScan.Sound ⟨scan.parsed, scan.parsed.map Prod.swap, []⟩ :=
        { sound with owners := rfl }
      simp only [parseStaticReservations, ofReservations, List.length_map]
      rw [if_neg (by omega), again.rescan]
      rfl
  | _ => simp [parseStaticReservations, Report.fail] at read

def vendorSize (entry : DhcpVendorSpecificEntry) : Nat :=
  match parseVendorOptionValue entry.value with
  | .ok bytes => bytes.length + 2
  | .error _ => 0

structure IsVendorEntry (entry : DhcpVendorSpecificEntry) : Prop where
  code : isValidSubOptionCode entry.subOption = true
  text : ∀ path label, parseBoundedString (.string entry.value) path label maxDhcpStringBytes = .ok entry.value
  fits : ∃ bytes, parseVendorOptionValue entry.value = .ok bytes ∧ bytes.length ≤ maxDhcpStringBytes

structure VendorScan.Sound (scan : VendorScan) : Prop where
  each : ∀ entry ∈ scan.parsed, IsVendorEntry entry
  total : scan.totalBytes = (scan.parsed.map vendorSize).sum

theorem VendorScan.Sound.push {scan : VendorScan} (sound : scan.Sound) (errors : List JsString) :
    (scan.push errors).Sound := ⟨sound.each, sound.total⟩

theorem scanVendorOption_sound {scan : VendorScan} (sound : scan.Sound) (item : JsValue × Nat) :
    (scanVendorOption path scan item).Sound ∧
      (scanVendorOption path scan item).parsed.length ≤ scan.parsed.length + 1 := by
  unfold scanVendorOption
  dsimp only
  split
  · rename_i fields _
    split
    · rename_i subOption _
      split
      · exact ⟨(sound.push _).push _, Nat.le_succ _⟩
      · rename_i valid
        generalize path ++ js "[" ++ natText item.2 ++ js "]" = entryPath
        generalize js "Vendor sub-option value" = label
        cases read : (parseBoundedString ((ownField fields "value").getD .undefined) (entryPath ++ js ".value") label
            maxDhcpStringBytes).value with
        | none => exact ⟨(sound.push _).push _, Nat.le_succ _⟩
        | some text =>
          dsimp only
          cases parsed : parseVendorOptionValue text with
          | error msg => exact ⟨((sound.push _).push _).push _, Nat.le_succ _⟩
          | ok bytes =>
            dsimp only
            split
            · exact ⟨((sound.push _).push _).push _, Nat.le_succ _⟩
            · have is : IsVendorEntry ⟨subOption, text⟩ := ⟨by simpa using valid,
                fun path label => parseBoundedString_value read path label, bytes, parsed, by omega⟩
              refine ⟨⟨?_, ?_⟩, (List.length_append ..).le⟩
              · intro entry mem
                rcases List.mem_append.mp mem with old | last
                · exact sound.each entry old
                · rw [List.mem_singleton.mp last]
                  exact is
              · have size : vendorSize ⟨subOption, text⟩ = bytes.length + 2 := by simp [vendorSize, parsed]
                simp only [VendorScan.push, List.map_append, List.sum_append, List.map_singleton, List.sum_singleton,
                  sound.total]
                omega
    · exact ⟨(sound.push _).push _, Nat.le_succ _⟩
  · exact ⟨sound.push _, Nat.le_succ _⟩

theorem scanVendorOption_toJsValue {entry : DhcpVendorSpecificEntry} (is : IsVendorEntry entry) (scan : VendorScan)
    (k : Nat) : scanVendorOption path scan (entry.toJsValue, k) =
      { scan with parsed := scan.parsed ++ [entry], totalBytes := scan.totalBytes + vendorSize entry } := by
  obtain ⟨bytes, parsed, short⟩ := is.fits
  have size : vendorSize entry = bytes.length + 2 := by simp [vendorSize, parsed]
  have known (path : JsString) : pushUnknownKeys [(js "subOption", .number entry.subOption),
      (js "value", .string entry.value)] ["subOption", "value"] path = [] := by
    rw [pushUnknownKeys_eq_nil]
    simp
  have code : ownField [(js "subOption", .number entry.subOption), (js "value", .string entry.value)] "subOption" =
      some (.number entry.subOption) := by simp [ownField]
  have value : ownField [(js "subOption", .number entry.subOption), (js "value", .string entry.value)] "value" =
      some (.string entry.value) := by
    have ne : (js "value" == js "subOption") = false := by decide
    simp [ownField, List.lookup_cons, ne]
  have within : ¬ bytes.length > maxDhcpStringBytes := by omega
  simp [scanVendorOption, DhcpVendorSpecificEntry.toJsValue, known, code, value, is.code, is.text, Report.ok, parsed,
    within, VendorScan.push, size, Nat.add_assoc]

theorem scanVendorOptions_toJsValue {entries : List DhcpVendorSpecificEntry}
    (each : ∀ entry ∈ entries, IsVendorEntry entry)
    (scan : VendorScan) (k : Nat) :
    ((entries.map (·.toJsValue)).zipIdx k).foldl (scanVendorOption path) scan =
      { scan with
        parsed := scan.parsed ++ entries
        totalBytes := scan.totalBytes + (entries.map vendorSize).sum } := by
  induction entries generalizing scan k with
  | nil => simp
  | cons entry rest ih =>
    rw [List.forall_mem_cons] at each
    rw [List.map_cons, List.zipIdx_cons, List.foldl_cons, scanVendorOption_toJsValue each.1, ih each.2]
    simp [Nat.add_assoc]

theorem parseVendorSpecificOptions_value {options : List DhcpVendorSpecificEntry}
    (read : (parseVendorSpecificOptions value path).value = some options) (other : JsString) :
    parseVendorSpecificOptions (ofVendorOptions options) other = .ok options := by
  cases value with
  | array items =>
    simp only [parseVendorSpecificOptions] at read
    split at read
    · simp [Report.fail] at read
    · have kept (items : List (JsValue × Nat)) : (items.foldl (scanVendorOption path) {}).Sound ∧
          (items.foldl (scanVendorOption path) {}).parsed.length ≤ items.length := by
        induction items using List.reverseRecOn with
        | nil => exact ⟨⟨by simp, rfl⟩, Nat.le_refl _⟩
        | append_singleton front last ih =>
          rw [List.foldl_append, List.foldl_cons, List.foldl_nil, List.length_append]
          exact (scanVendorOption_sound ih.1 last).imp_right fun short => short.trans (Nat.succ_le_succ ih.2)
      obtain ⟨sound, short⟩ := kept items.zipIdx
      rw [List.length_zipIdx] at short
      split at read
      · cases read
      · rename_i small
        cases read
        simp only [parseVendorSpecificOptions, ofVendorOptions, List.length_map]
        rw [if_neg (by omega), scanVendorOptions_toJsValue sound.each]
        simp only [Nat.zero_add]
        rw [← sound.total, if_neg small]
        rfl
  | _ => simp [parseVendorSpecificOptions, Report.fail] at read

end

/-- What every field of a sanitized configuration is: its own check takes it as it stands. -/
structure DhcpAdapterConfig.Sound (numberToString : JsNumber → JsString) (config : DhcpAdapterConfig) : Prop where
  addresses : ∀ field ∈ [config.rangeStart, config.rangeEnd, config.gateway, config.serverId, config.broadcast,
    config.bindAddress, config.nextServer], ∀ text, field = some text → (ipv4ToInt text).isSome = true
  subnet : ∀ mask, config.subnet = some mask → ∀ path, parseSubnet numberToString (.string mask) path = .ok mask
  texts : ∀ field ∈ [config.dns, config.tftpServerAddresses], ∀ texts, field = some texts →
    0 < texts.length ∧ (∀ text ∈ texts, (ipv4ToInt text).isSome = true) ∧ texts.length ≤ maxDhcpArrayEntries
  leaseTimeSec : ∀ seconds, config.leaseTimeSec = some seconds →
    ∀ path, parseLeaseTime (.number seconds) path = .ok seconds
  static : ∀ reservations, config.static = some reservations → 0 < reservations.length ∧
    ∀ path, parseStaticReservations numberToString (ofReservations reservations) path = .ok reservations
  leaseStorePath : ∀ text, config.leaseStorePath = some text →
    ∀ path label, parseBoundedString (.string text) path label maxPathBytes = .ok text
  bootFileName : ∀ text, config.bootFileName = some text →
    ∀ path label, parseBoundedString (.string text) path label maxDhcpStringBytes = .ok text
  vendorClassId : ∀ text, config.vendorClassId = some text →
    ∀ path label, parseTrimmedNonBlankString (.string text) path label maxDhcpStringBytes = .ok text
  vendorSpecificOptions : ∀ options, config.vendorSpecificOptions = some options → 0 < options.length ∧
    ∀ path, parseVendorSpecificOptions (ofVendorOptions options) path = .ok options
  range : rangeFault (config.rangeStart.map fun text => ⟨text, (ipv4ToInt text).getD 0⟩)
    (config.rangeEnd.map fun text => ⟨text, (ipv4ToInt text).getD 0⟩) = none

section

variable {numberToString : JsNumber → JsString} {config : DhcpAdapterConfig}

theorem js_beq (key other : String) : (js key == js other) = (key == other) := by
  rw [Bool.eq_iff_iff, beq_iff_eq, beq_iff_eq, js, js_eq_iff, String.ofList_toList]

theorem ownField_filterMap {properties : List (String × Option JsValue)} (nodup : (properties.map Prod.fst).Nodup)
    (key : String) : ownField (properties.filterMap fun property => property.2.map (js property.1, ·)) key =
      (properties.lookup key).join := by
  induction properties with
  | nil => rfl
  | cons property rest ih =>
    obtain ⟨name, value⟩ := property
    obtain ⟨fresh, nodup⟩ := List.nodup_cons.mp nodup
    have later := ih nodup
    rw [List.lookup_cons]
    cases same : key == name with
    | true =>
      rw [beq_iff_eq.mp same] at later ⊢
      cases value with
      | some value =>
        exact List.lookup_cons_self
      | none =>
        have missing : rest.lookup name = none := List.lookup_eq_none_iff.mpr fun other mem =>
          bne_iff_ne.mpr fun alike => fresh (List.mem_map.mpr ⟨other, mem, alike.symm⟩)
        rw [List.filterMap_cons_none rfl, later, missing]
        rfl
    | false =>
      cases value with
      | some value =>
        change List.lookup (js key) ((js name, value) :: _) = _
        rw [List.lookup_cons, js_beq, same]
        exact later
      | none => rw [List.filterMap_cons_none rfl, later]

theorem ownField_fields (config : DhcpAdapterConfig) (key : String) :
    ownField config.fields key = (config.properties.lookup key).join := by
  refine ownField_filterMap ?_ key
  have keys : config.properties.map Prod.fst = ["rangeStart", "rangeEnd", "subnet", "gateway", "dns", "leaseTimeSec",
    "serverId", "broadcast", "static", "bindAddress", "leaseStorePath", "bootFileName", "nextServer",
    "tftpServerAddresses", "vendorClassId", "vendorSpecificOptions"] := rfl
  rw [keys]
  decide

theorem pushUnknownKeys_fields (config : DhcpAdapterConfig) (path : JsString) :
    pushUnknownKeys config.fields dhcpKeys path = [] := by
  refine pushUnknownKeys_eq_nil.mpr fun field mem => ?_
  obtain ⟨property, listed, stored⟩ := List.mem_filterMap.mp mem
  obtain ⟨-, -, rfl⟩ := Option.map_eq_some_iff.mp stored
  have keys : config.properties.map Prod.fst ⊆ dhcpKeys := by
    have known : ["rangeStart", "rangeEnd", "subnet", "gateway", "dns", "leaseTimeSec", "serverId",
      "broadcast", "static",
      "bindAddress", "leaseStorePath", "bootFileName", "nextServer", "tftpServerAddresses", "vendorClassId",
      "vendorSpecificOptions"] ⊆ dhcpKeys := by decide
    exact known
  exact List.mem_map_of_mem (keys (List.mem_map_of_mem listed))

theorem Report.ofField_held {α : Type} (key : String) (parse : JsValue → Report α) (embed : α → JsValue)
    {held : Option α} (stored : (config.properties.lookup key).join = held.map embed)
    (reads : ∀ value, held = some value → parse (embed value) = .ok value) :
    Report.ofField config.fields key parse = { value := held } := by
  rw [Report.ofField, ownField_fields, stored]
  cases held with
  | none => rfl
  | some value => exact reads value rfl

theorem Report.ofConfigured_fields {α : Type} {parse : JsValue → Report α} {key : String} :
    Report.ofConfigured config.fields key parse = Report.ofField config.fields key parse := by
  have defined : ∀ property ∈ config.properties, property.2 ≠ some .undefined := by
    simp [DhcpAdapterConfig.properties, ofTexts, ofReservations, ofVendorOptions]
  have stored : ownField config.fields key ≠ some .undefined := by
    rw [ownField_fields]
    intro absent
    obtain ⟨pre, after, whole, -⟩ := List.lookup_eq_some_iff.mp (Option.join_eq_some_iff.mp absent)
    exact defined (key, some .undefined) (whole ▸ List.mem_append_right _ List.mem_cons_self) rfl
  unfold ofConfigured ofField
  split <;> simp_all

theorem ofField_address (numberToString : JsNumber → JsString) (key : String) {held : Option JsString}
    (stored : (config.properties.lookup key).join = held.map .string)
    (numbered : ∀ text, held = some text → (ipv4ToInt text).isSome = true) (path label : JsString) :
    Report.ofField config.fields key (fun field => parseIpv4 numberToString field path label) =
      { value := held.map fun text => ⟨text, (ipv4ToInt text).getD 0⟩ } := by
  refine Report.ofField_held key _ (fun addr => .string addr.value) ?_ fun addr hit => ?_
  · rw [stored, Option.map_map]
    rfl
  · obtain ⟨text, given, rfl⟩ := Option.map_eq_some_iff.mp hit
    exact parseIpv4_text (numbered text given) path label

theorem checkRange_eq_nil {start stop : Option ParsedIpv4} (sound : rangeFault start stop = none) (path : JsString) :
    checkRange path start stop = [] := by
  unfold rangeFault at sound
  unfold checkRange
  dsimp only at sound ⊢
  split_ifs at sound ⊢
  all_goals rfl

theorem filter_filled {α : Type} {held : Option (List α)}
    (filled : ∀ items, held = some items → 0 < items.length) :
    held.filter (fun items => decide (items.length > 0)) = held := by
  cases held with
  | none => rfl
  | some items => exact if_pos (decide_eq_true (filled items rfl))

/-- The strict parser takes it as it stands, and sanitizing it again changes nothing. -/
theorem DhcpAdapterConfig.Sound.settled (sound : config.Sound numberToString) :
    parseDhcpConfig numberToString config.toJsValue = .ok config ∧
      sanitizeDhcpConfig numberToString config.toJsValue = (config, []) := by
  have addresses := sound.addresses
  have texts := sound.texts
  simp only [List.forall_mem_cons] at addresses texts
  obtain ⟨start, stop, router, server, cast, bound, next, -⟩ := addresses
  obtain ⟨resolvers, loaders, -⟩ := texts
  have rangeStart := ofField_address numberToString "rangeStart" rfl start
  have rangeEnd := ofField_address numberToString "rangeEnd" rfl stop
  have gateway := ofField_address numberToString "gateway" rfl router
  have serverId := ofField_address numberToString "serverId" rfl server
  have broadcast := ofField_address numberToString "broadcast" rfl cast
  have bindAddress := ofField_address numberToString "bindAddress" rfl bound
  have nextServer := ofField_address numberToString "nextServer" rfl next
  have subnet (path : JsString) := Report.ofField_held "subnet" (parseSubnet numberToString · path) .string rfl
    fun mask held => sound.subnet mask held path
  have dns (path label : JsString) :=
    Report.ofField_held "dns" (parseIpv4Array numberToString · path label 1) ofTexts rfl
    fun texts held =>
      parseIpv4Array_ofTexts (resolvers texts held).2.1 (resolvers texts held).2.2 (resolvers texts held).1
  have tftpServerAddresses (path label : JsString) := Report.ofField_held "tftpServerAddresses"
    (parseIpv4Array numberToString · path label 0) ofTexts rfl
    fun texts held => parseIpv4Array_ofTexts (loaders texts held).2.1 (loaders texts held).2.2 (Nat.zero_le _)
  have leaseTimeSec (path : JsString) := Report.ofField_held "leaseTimeSec" (parseLeaseTime · path) .number rfl
    fun seconds held => sound.leaseTimeSec seconds held path
  have static (path : JsString) := Report.ofField_held "static" (parseStaticReservations numberToString · path)
    ofReservations rfl fun reservations held => (sound.static reservations held).2 path
  have leaseStorePath (path label : JsString) := Report.ofField_held "leaseStorePath"
    (parseBoundedString · path label maxPathBytes) .string rfl fun text held =>
      sound.leaseStorePath text held path label
  have bootFileName (path label : JsString) := Report.ofField_held "bootFileName"
    (parseBoundedString · path label maxDhcpStringBytes) .string rfl
    fun text held => sound.bootFileName text held path label
  have vendorClassId (path label : JsString) := Report.ofField_held "vendorClassId"
    (parseTrimmedNonBlankString · path label maxDhcpStringBytes) .string rfl
    fun text held => sound.vendorClassId text held path label
  have vendorSpecificOptions (path : JsString) := Report.ofField_held "vendorSpecificOptions"
    (parseVendorSpecificOptions · path) ofVendorOptions rfl
    fun opts held => (sound.vendorSpecificOptions opts held).2 path
  constructor
  · simp only [parseDhcpConfig, parseDhcpConfigAt, toJsValue, pushUnknownKeys_fields, rangeStart, rangeEnd, gateway,
      serverId, broadcast, bindAddress, nextServer, subnet, dns, tftpServerAddresses, leaseTimeSec, static,
        leaseStorePath, bootFileName, vendorClassId, vendorSpecificOptions, checkRange_eq_nil sound.range]
    simp [Function.comp_def]
  · simp only [sanitizeDhcpConfig, toJsValue, Report.ofConfigured_fields, pushUnknownKeys_fields, rangeStart, rangeEnd,
      gateway, serverId, broadcast, bindAddress, nextServer, subnet, dns, tftpServerAddresses, leaseTimeSec, static,
      leaseStorePath, bootFileName, vendorClassId, vendorSpecificOptions, sound.range]
    rw [filter_filled fun texts held => (resolvers texts held).1,
      filter_filled fun texts held => (loaders texts held).1,
      filter_filled fun reservations held => (sound.static reservations held).1,
      filter_filled fun opts held => (sound.vendorSpecificOptions opts held).1]
    simp [Function.comp_def]

theorem Report.ofConfigured_value {α : Type} {fields : List (JsString × JsValue)} {key : String}
    {parse : JsValue → Report α} {value : α} (read : (Report.ofConfigured fields key parse).value = some value) :
    ∃ field, (parse field).value = some value := by
  unfold ofConfigured at read
  split at read
  · cases read
  · cases read
  · exact ⟨_, read⟩

theorem Report.ofConfigured_holds {α : Type} {fields : List (JsString × JsValue)} {key : String}
    {parse : JsValue → Report α} {Holds : α → Prop}
    (each : ∀ field value, (parse field).value = some value → Holds value) (value : α)
    (held : (Report.ofConfigured fields key parse).value = some value) : Holds value := by
  obtain ⟨field, read⟩ := ofConfigured_value held
  exact each field value read

theorem Report.ofConfigured_filled {α : Type} {fields : List (JsString × JsValue)} {key : String}
    {parse : JsValue → Report (List α)} {Holds : List α → Prop}
    (each : ∀ field items, (parse field).value = some items → Holds items) (items : List α)
    (kept : (Report.ofConfigured fields key parse).value.filter (fun items => decide (items.length > 0)) = some items) :
    0 < items.length ∧ Holds items := by
  obtain ⟨held, filled⟩ := Option.filter_eq_some_iff.mp kept
  exact ⟨of_decide_eq_true filled, ofConfigured_holds each items held⟩

variable {fields : List (JsString × JsValue)} {key : String} {path label : JsString}

theorem configured_address (text : JsString) (held : (Report.ofConfigured fields key fun field =>
    parseIpv4 numberToString field path label).value.map (·.value) = some text) : (ipv4ToInt text).isSome = true := by
  obtain ⟨addr, read, rfl⟩ := Option.map_eq_some_iff.mp held
  exact Report.ofConfigured_holds (fun _ _ read => Option.isSome_of_eq_some (parseIpv4_numbered read)) addr read

theorem configured_number (fields : List (JsString × JsValue)) (key : String) (path label : JsString) :
    ((Report.ofConfigured fields key fun field => parseIpv4 numberToString field path label).value.map (·.value)).map
        (fun text => ⟨text, (ipv4ToInt text).getD 0⟩) =
      (Report.ofConfigured fields key fun field => parseIpv4 numberToString field path label).value := by
  cases read : (Report.ofConfigured fields key fun field => parseIpv4 numberToString field path label).value with
  | none => rfl
  | some addr =>
    obtain ⟨field, read⟩ := Report.ofConfigured_value read
    rw [Option.map_some, Option.map_some, parseIpv4_numbered read]
    rfl

theorem sanitizeDhcpConfig_sound (numberToString : JsNumber → JsString) (value : JsValue) :
    (sanitizeDhcpConfig numberToString value).1.Sound numberToString := by
  cases value with
  | record fields =>
    simp only [sanitizeDhcpConfig]
    split
    · rename_i sound
      refine ⟨?_, Report.ofConfigured_holds fun _ _ => parseSubnet_value, ?_,
        Report.ofConfigured_holds fun _ _ => parseLeaseTime_value,
        Report.ofConfigured_filled fun _ _ => parseStaticReservations_value,
        Report.ofConfigured_holds fun _ _ => parseBoundedString_value,
        Report.ofConfigured_holds fun _ _ => parseBoundedString_value,
        Report.ofConfigured_holds fun _ _ => parseTrimmedNonBlankString_value,
        Report.ofConfigured_filled fun _ _ => parseVendorSpecificOptions_value, ?_⟩
      · simp only [List.forall_mem_cons]
        exact ⟨configured_address, configured_address, configured_address, configured_address, configured_address,
          configured_address, configured_address, nofun⟩
      · simp only [List.forall_mem_cons]
        exact ⟨Report.ofConfigured_filled fun _ _ => parseIpv4Array_value,
          Report.ofConfigured_filled fun _ _ => parseIpv4Array_value, nofun⟩
      · rw [configured_number, configured_number]
        exact sound
    · refine ⟨?_, Report.ofConfigured_holds fun _ _ => parseSubnet_value, ?_,
        Report.ofConfigured_holds fun _ _ => parseLeaseTime_value,
        Report.ofConfigured_filled fun _ _ => parseStaticReservations_value,
        Report.ofConfigured_holds fun _ _ => parseBoundedString_value,
        Report.ofConfigured_holds fun _ _ => parseBoundedString_value,
        Report.ofConfigured_holds fun _ _ => parseTrimmedNonBlankString_value,
        Report.ofConfigured_filled fun _ _ => parseVendorSpecificOptions_value, rfl⟩
      · simp only [List.forall_mem_cons]
        exact ⟨nofun, nofun, configured_address, configured_address, configured_address, configured_address,
          configured_address, nofun⟩
      · simp only [List.forall_mem_cons]
        exact ⟨Report.ofConfigured_filled fun _ _ => parseIpv4Array_value,
          Report.ofConfigured_filled fun _ _ => parseIpv4Array_value, nofun⟩
  | _ => exact ⟨by simp [sanitizeDhcpConfig], nofun, by simp [sanitizeDhcpConfig], nofun, nofun, nofun, nofun,
    nofun, nofun, rfl⟩

/-- What the settings come to can always be sent to the daemon, and is not warned about twice. -/
theorem sanitized_settled (numberToString : JsNumber → JsString) (value : JsValue) :
    let config := (sanitizeDhcpConfig numberToString value).1
    parseDhcpConfig numberToString config.toJsValue = .ok config ∧
      sanitizeDhcpConfig numberToString config.toJsValue = (config, []) :=
  (sanitizeDhcpConfig_sound numberToString value).settled

end

end NexTerminal.Host
