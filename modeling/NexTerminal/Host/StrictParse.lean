import NexTerminal.Host.ConfigValidation

namespace NexTerminal.Host

open Library

def IsIpv4 (value : JsValue) : Prop := ∃ text numeric, value = .string text ∧ ipv4ToInt text = some numeric

def IsBoundedText (maximumBytes : Nat) (value : JsValue) : Prop :=
  ∃ text, value = .string text ∧ text ≠ [] ∧ utf8Bytes text ≤ maximumBytes

def IsVendorClass (value : JsValue) : Prop :=
  ∃ text, value = .string text ∧ trim text ≠ [] ∧ utf8Bytes (trim text) ≤ maxDhcpStringBytes

def IsLeaseTime (value : JsValue) : Prop :=
  ∃ seconds : Nat, value = .number (.finite seconds) ∧ minLeaseSeconds ≤ seconds ∧ seconds ≤ maxLeaseSeconds

def IsIpv4Array (value : JsValue) : Prop :=
  ∃ items, value = .array items ∧ items.length ≤ maxDhcpArrayEntries ∧ ∀ item ∈ items, IsIpv4 item

def Apart (entry other : JsString × JsValue) : Prop :=
  canonicalMac entry.1 ≠ canonicalMac other.1 ∧ ∀ ip, entry.2 = .string ip → other.2 ≠ .string ip

structure AreReservations (entries : List (JsString × JsValue)) : Prop where
  few : entries.length ≤ maxStaticReservations
  each : ∀ entry ∈ entries, (canonicalMac entry.1).isSome ∧ IsIpv4 entry.2
  apart : entries.Pairwise Apart

/-- One vendor option, the code and the bytes it stands for. -/
structure IsVendorOption (item : JsValue) (entry : DhcpVendorSpecificEntry) (bytes : List UInt8) :
    Prop where
  fields : ∃ fields, item = .record fields ∧ pushUnknownKeys fields ["subOption", "value"] [] = [] ∧
    ownField fields "subOption" = some (.number entry.subOption) ∧
    ownField fields "value" = some (.string entry.value)
  code : isValidSubOptionCode entry.subOption = true
  value : parseVendorOptionValue entry.value = .ok bytes
  fits : bytes.length ≤ maxDhcpStringBytes

variable {fields : List (JsString × JsValue)}

theorem pushUnknownKeys_eq_nil {allowed : List String}
    {path : JsString} : pushUnknownKeys fields allowed path = [] ↔
      ∀ field ∈ fields, field.1 ∈ allowed.map js := by
  rw [pushUnknownKeys, List.map_eq_nil_iff, List.filter_eq_nil_iff]
  simp only [Bool.not_eq_true, Bool.not_eq_false', List.contains_iff_mem]

theorem Report.ofField_errors {α : Type} {key : String}
    {parse : JsValue → Report α} {value : JsValue} (hit : ownField fields key = some value)
    (clean : (Report.ofField fields key parse).errors = []) : (parse value).errors = [] := by
  rwa [Report.ofField, hit] at clean

section
variable {numberToString : JsNumber → JsString} {value : JsValue} {path label : JsString}

theorem parseIpv4_accepted (clean : (parseIpv4 numberToString value path label).errors = []) :
    ∃ text numeric, value = .string text ∧ ipv4ToInt text = some numeric ∧
      (parseIpv4 numberToString value path label).value = some ⟨text, numeric⟩ := by
  cases value with
  | string text =>
    cases read : ipv4ToInt text with
    | none => simp [parseIpv4, read, Report.fail] at clean
    | some numeric => exact ⟨text, numeric, rfl, read, by simp [parseIpv4, read, Report.ok]⟩
  | _ => simp [parseIpv4, Report.fail] at clean

theorem isIpv4_of_accepted (clean : (parseIpv4 numberToString value path label).errors = []) : IsIpv4 value := by
  obtain ⟨text, numeric, is, read, _⟩ := parseIpv4_accepted clean
  exact ⟨text, numeric, is, read⟩

theorem parseBoundedString_accepted {maximumBytes : Nat}
    (clean : (parseBoundedString value path label maximumBytes).errors = []) :
    ∃ text, value = .string text ∧ text ≠ [] ∧ utf8Bytes text ≤ maximumBytes ∧
      (parseBoundedString value path label maximumBytes).value = some text := by
  cases value with
  | string text =>
    simp only [parseBoundedString] at clean ⊢
    split at clean
    · simp [Report.fail] at clean
    · rename_i ne
      split at clean
      · simp [Report.fail] at clean
      · rename_i fits
        refine ⟨text, rfl, fun none => ne (by rw [none]; rfl), by omega, ?_⟩
        rw [if_neg ne, if_neg fits]
        rfl
  | _ => simp [parseBoundedString, Report.fail] at clean

theorem isBoundedText_of_accepted {maximumBytes : Nat}
    (clean : (parseBoundedString value path label maximumBytes).errors = []) : IsBoundedText maximumBytes value := by
  obtain ⟨text, is, ne, fits, _⟩ := parseBoundedString_accepted clean
  exact ⟨text, is, ne, fits⟩

theorem parseTrimmedNonBlankString_accepted
    (clean : (parseTrimmedNonBlankString value path label maxDhcpStringBytes).errors = []) : IsVendorClass value := by
  cases value with
  | string text =>
    simp only [parseTrimmedNonBlankString] at clean
    split at clean
    · simp [Report.fail] at clean
    · rename_i ne
      split at clean
      · simp [Report.fail] at clean
      · exact ⟨text, rfl, fun none => ne (by rw [none]; rfl), by omega⟩
  | _ => simp [parseTrimmedNonBlankString, Report.fail] at clean

theorem parseLeaseTime_accepted (clean : (parseLeaseTime value path).errors = []) : IsLeaseTime value := by
  cases value with
  | number n =>
    simp only [parseLeaseTime] at clean
    split at clean
    · simp [Report.fail] at clean
    · rename_i good
      simp only [Bool.or_eq_true, Bool.not_eq_true', not_or, Bool.not_eq_false] at good
      obtain ⟨safe, range⟩ := good
      cases n with
      | finite q =>
        simp only [JsNumber.isSafeInteger, JsNumber.within, Bool.and_eq_true, decide_eq_true_eq]
          at safe range
        have natural := natCast_of_isInt safe.1 (le_trans (by decide) range.1)
        rw [← natural] at range
        exact ⟨q.num.toNat, by rw [natural], by exact_mod_cast range.1, by exact_mod_cast range.2⟩
      | _ => simp [JsNumber.within] at range
  | _ => simp [parseLeaseTime, Report.fail] at clean

theorem parseIpv4Array_accepted {minimumEntries : Nat}
    (clean : (parseIpv4Array numberToString value path label minimumEntries).errors = []) : IsIpv4Array value := by
  cases value with
  | array items =>
    simp only [parseIpv4Array] at clean
    split at clean
    · simp [Report.fail] at clean
    · split at clean
      · simp [Report.fail] at clean
      · refine ⟨items, rfl, by omega, fun item mem => ?_⟩
        rw [List.flatMap_eq_nil_iff] at clean
        obtain ⟨idx, at_⟩ := List.mem_iff_getElem?.mp mem
        have entry :=
          clean _ (List.mem_map_of_mem (List.mem_zipIdx_iff_getElem?.mpr at_ : (item, idx) ∈ items.zipIdx))
        exact isIpv4_of_accepted entry
  | _ => simp [parseIpv4Array, Report.fail] at clean

theorem parseSubnet_accepted (clean : (parseSubnet numberToString value path).errors = []) :
    ∃ text numeric, value = .string text ∧ ipv4ToInt text = some numeric ∧
      Dhcp.isContiguousMask (.ofNat numeric) = true := by
  cases read : (parseIpv4 numberToString value path (js "Subnet Mask")).value with
  | none =>
    simp only [parseSubnet, read] at clean
    obtain ⟨_, _, _, _, hit⟩ := parseIpv4_accepted clean
    rw [hit] at read
    cases read
  | some mask =>
    simp only [parseSubnet, read] at clean
    split at clean
    · simp at clean
    · rename_i contiguous
      obtain ⟨text, numeric, is, atText, hit⟩ := parseIpv4_accepted clean
      rw [hit] at read
      cases read
      exact ⟨text, numeric, is, atText, by simpa [Dhcp.isContiguousMask] using contiguous⟩

/-- What one turn of the loop does when it reports nothing. -/
theorem scanReservation_clean {scan : StaticScan} {entry : JsString × JsValue}
    (clean : (scanReservation numberToString path scan entry).errors = []) :
    scan.errors = [] ∧ ∃ mac ip numeric, canonicalMac entry.1 = some mac ∧
      entry.2 = .string ip ∧ ipv4ToInt ip = some numeric ∧ scan.parsed.lookup mac = none ∧
      scan.addressOwners.lookup ip = none ∧
      scanReservation numberToString path scan entry =
        { parsed := scan.parsed ++ [(mac, ip)]
          addressOwners := scan.addressOwners ++ [(ip, mac)]
          errors := [] } := by
  unfold scanReservation at clean ⊢
  cases canonical : canonicalMac entry.1 with
  | none => simp [canonical, StaticScan.push] at clean
  | some mac =>
    simp only [canonical] at clean ⊢
    cases known : scan.parsed.lookup mac with
    | some other => simp [known, StaticScan.push] at clean
    | none =>
      simp only [known, Option.isSome_none, Bool.false_eq_true, if_false] at clean ⊢
      generalize js "Static reservation address" = label at clean ⊢
      cases read : (parseIpv4 numberToString entry.2 (path ++ js "." ++ mac) label).value with
      | none =>
        simp only [read, StaticScan.push, List.append_eq_nil_iff] at clean
        obtain ⟨_, _, _, _, hit⟩ := parseIpv4_accepted clean.2
        rw [hit] at read
        cases read
      | some ip =>
        simp only [read, StaticScan.push] at clean ⊢
        cases owned : scan.addressOwners.lookup ip.value with
        | some owner => simp [owned] at clean
        | none =>
          simp only [owned, List.append_eq_nil_iff] at clean ⊢
          obtain ⟨text, numeric, is, atText, hit⟩ := parseIpv4_accepted clean.2
          rw [hit] at read
          cases read
          refine ⟨clean.1, mac, text, numeric, rfl, is, atText, known, owned, ?_⟩
          rw [clean.1, clean.2, List.append_nil]

theorem lookup_append_eq_none {key : JsString} {first rest : List (JsString × JsString)} :
    (first ++ rest).lookup key = none ↔ first.lookup key = none ∧ rest.lookup key = none := by
  rw [List.lookup_append]
  cases first.lookup key <;> simp

theorem scanReservations_clean {entries : List (JsString × JsValue)} {scan : StaticScan}
    (clean : (entries.foldl (scanReservation numberToString path) scan).errors = []) :
    scan.errors = [] ∧ entries.Pairwise Apart ∧ ∀ entry ∈ entries, ∃ mac ip numeric,
      canonicalMac entry.1 = some mac ∧ entry.2 = .string ip ∧ ipv4ToInt ip = some numeric ∧
        scan.parsed.lookup mac = none ∧ scan.addressOwners.lookup ip = none := by
  induction entries generalizing scan with
  | nil => exact ⟨clean, .nil, by simp⟩
  | cons entry rest ih =>
    obtain ⟨later, ne, each⟩ := ih clean
    obtain ⟨pre, mac, ip, numeric, canonical, is, read, newMac, newIp, next⟩ := scanReservation_clean later
    rw [next] at each
    refine ⟨pre, List.pairwise_cons.mpr ⟨fun other mem => ?_, ne⟩, fun other mem => ?_⟩
    · obtain ⟨mac', ip', _, canonical', is', _, fresh, free⟩ := each other mem
      rw [lookup_append_eq_none] at fresh free
      constructor
      · rw [canonical, canonical']
        intro same
        rw [Option.some.inj same] at fresh
        simp at fresh
      · intro text atEntry atOther
        rw [is] at atEntry
        rw [is'] at atOther
        cases atEntry
        cases atOther
        simp at free
    · rcases List.mem_cons.mp mem with rfl | inside
      · exact ⟨mac, ip, numeric, canonical, is, read, newMac, newIp⟩
      · obtain ⟨mac', ip', numeric', canonical', is', read', fresh, free⟩ := each other inside
        exact ⟨mac', ip', numeric', canonical', is', read', (lookup_append_eq_none.mp fresh).1,
          (lookup_append_eq_none.mp free).1⟩

theorem parseStaticReservations_accepted (clean : (parseStaticReservations numberToString value path).errors = []) :
    ∃ entries, value = .record entries ∧ AreReservations entries := by
  cases value with
  | record entries =>
    simp only [parseStaticReservations] at clean
    split at clean
    · simp [Report.fail] at clean
    · obtain ⟨_, ne, each⟩ := scanReservations_clean clean
      refine ⟨entries, rfl, by omega, fun entry mem => ?_, ne⟩
      obtain ⟨mac, ip, numeric, canonical, is, read, _⟩ := each entry mem
      exact ⟨by rw [canonical]; rfl, ip, numeric, is, read⟩
  | _ => simp [parseStaticReservations, Report.fail] at clean

/-- What one turn of the loop does when it reports nothing. -/
theorem scanVendorOption_clean {scan : VendorScan} {item : JsValue × Nat}
    (clean : (scanVendorOption path scan item).errors = []) :
    scan.errors = [] ∧ ∃ entry bytes, IsVendorOption item.1 entry bytes ∧
      scanVendorOption path scan item =
        { parsed := scan.parsed ++ [entry]
          totalBytes := scan.totalBytes + bytes.length + 2
          errors := [] } := by
  obtain ⟨item, idx⟩ := item
  cases item with
  | record fields =>
    unfold scanVendorOption at clean ⊢
    simp only at clean ⊢
    generalize path ++ js "[" ++ natText idx ++ js "]" = entryPath at clean ⊢
    generalize known : pushUnknownKeys fields ["subOption", "value"] entryPath = unknown at clean ⊢
    split at clean
    · rename_i subOption atCode
      split at clean
      · simp [VendorScan.push] at clean
      · rename_i valid
        generalize js "Vendor sub-option value" = label at clean ⊢
        cases read : (parseBoundedString ((ownField fields "value").getD .undefined)
            (entryPath ++ js ".value") label maxDhcpStringBytes).value with
        | none =>
          simp only [read, VendorScan.push, List.append_eq_nil_iff] at clean
          obtain ⟨_, _, _, _, hit⟩ := parseBoundedString_accepted clean.2
          rw [hit] at read
          cases read
        | some optionValue =>
          simp only [read] at clean ⊢
          cases parsed : parseVendorOptionValue optionValue with
          | error msg => simp [parsed, VendorScan.push] at clean
          | ok bytes =>
            simp only [parsed] at clean ⊢
            by_cases long : bytes.length > maxDhcpStringBytes
            · simp [long, VendorScan.push] at clean
            · simp only [if_neg long, VendorScan.push, List.append_eq_nil_iff] at clean ⊢
              obtain ⟨text, is, _, _, hit⟩ := parseBoundedString_accepted clean.2
              rw [hit] at read
              cases read
              have atValue : ownField fields "value" = some (.string optionValue) := by
                cases own : ownField fields "value" with
                | none => rw [own] at is; cases is
                | some value => rw [own] at is; rw [← is]; rfl
              refine ⟨clean.1.1, ⟨subOption, optionValue⟩, bytes, ⟨⟨fields, rfl, ?_, atCode, atValue⟩,
                by simpa using valid, parsed, by omega⟩, ?_⟩
              · rw [clean.1.2, pushUnknownKeys_eq_nil] at known
                exact pushUnknownKeys_eq_nil.mpr known
              · simp [valid, clean]
    · simp [VendorScan.push] at clean
  | _ => simp [scanVendorOption, VendorScan.push] at clean

theorem scanVendorOptions_clean {items : List (JsValue × Nat)} {scan : VendorScan}
    (clean : (items.foldl (scanVendorOption path) scan).errors = []) :
    scan.errors = [] ∧ ∃ opts : List (DhcpVendorSpecificEntry × List UInt8),
      List.Forall₂ (fun item opt => IsVendorOption item.1 opt.1 opt.2) items opts ∧
        (items.foldl (scanVendorOption path) scan).totalBytes =
          scan.totalBytes + (opts.map fun opt => opt.2.length + 2).sum := by
  induction items generalizing scan with
  | nil => exact ⟨clean, [], .nil, rfl⟩
  | cons item rest ih =>
    obtain ⟨later, opts, each, total⟩ := ih clean
    obtain ⟨pre, entry, bytes, is, next⟩ := scanVendorOption_clean later
    refine ⟨pre, (entry, bytes) :: opts, .cons is each, ?_⟩
    rw [List.foldl_cons, total, next, List.map_cons, List.sum_cons]
    simp only
    omega

theorem parseVendorSpecificOptions_accepted
    (clean : (parseVendorSpecificOptions value path).errors = []) :
    ∃ items, value = .array items ∧ ∃ opts : List (DhcpVendorSpecificEntry × List UInt8),
      List.Forall₂ (fun item opt => IsVendorOption item opt.1 opt.2) items opts ∧
        (opts.map fun opt => opt.2.length + 2).sum ≤ maxDhcpStringBytes := by
  cases value with
  | array items =>
    simp only [parseVendorSpecificOptions] at clean
    split at clean
    · simp [Report.fail] at clean
    · split at clean
      · simp at clean
      · rename_i fits
        obtain ⟨_, opts, each, total⟩ := scanVendorOptions_clean clean
        rw [total] at fits
        refine ⟨items, rfl, opts, ?_, by simpa using fits⟩
        have zipped : items = items.zipIdx.map (·.1) := (List.zipIdx_map_fst 0 items).symm
        rw [zipped]
        exact List.forall₂_map_left_iff.mpr each
  | _ => simp [parseVendorSpecificOptions, Report.fail] at clean

def addressKeys : List String :=
  ["rangeStart", "rangeEnd", "gateway", "serverId", "broadcast", "bindAddress", "nextServer", "subnet"]

def HasField (fields : List (JsString × JsValue)) (key : String) (Holds : JsValue → Prop) : Prop :=
  ∀ value, ownField fields key = some value → Holds value

def rangeNumber (fields : List (JsString × JsValue)) (key : String) (fallback : JsString) : Nat :=
  match ownField fields key with
  | some (.string text) => (ipv4ToInt text).getD 0
  | _ => (ipv4ToInt fallback).getD 0

structure Accepted (fields : List (JsString × JsValue)) : Prop where
  known : ∀ field ∈ fields, field.1 ∈ dhcpKeys.map js
  addresses : ∀ key ∈ addressKeys, HasField fields key IsIpv4
  subnet : HasField fields "subnet" fun value => ∃ text numeric, value = .string text ∧
    ipv4ToInt text = some numeric ∧ Dhcp.isContiguousMask (.ofNat numeric) = true
  dns : HasField fields "dns" IsIpv4Array
  tftpServerAddresses : HasField fields "tftpServerAddresses" IsIpv4Array
  leaseTimeSec : HasField fields "leaseTimeSec" IsLeaseTime
  static : HasField fields "static" fun value => ∃ entries, value = .record entries ∧ AreReservations entries
  leaseStorePath : HasField fields "leaseStorePath" (IsBoundedText maxPathBytes)
  bootFileName : HasField fields "bootFileName" (IsBoundedText maxDhcpStringBytes)
  vendorClassId : HasField fields "vendorClassId" IsVendorClass
  vendorSpecificOptions : HasField fields "vendorSpecificOptions" fun value =>
    ∃ items, value = .array items ∧ ∃ options : List (DhcpVendorSpecificEntry × List UInt8),
      List.Forall₂ (fun item option => IsVendorOption item option.1 option.2) items options ∧
        (options.map fun option => option.2.length + 2).sum ≤ maxDhcpStringBytes
  range : rangeNumber fields "rangeStart" Defaults.rangeStart ≤
      rangeNumber fields "rangeEnd" Defaults.rangeEnd ∧
    rangeNumber fields "rangeEnd" Defaults.rangeEnd -
      rangeNumber fields "rangeStart" Defaults.rangeStart + 1 ≤ maxDhcpPoolSize

theorem rangeNumber_eq {fields : List (JsString × JsValue)} {key : String} {fallback : JsString}
    (clean : (Report.ofField fields key fun field =>
      parseIpv4 numberToString field path label).errors = []) :
    rangeNumber fields key fallback =
      ((Report.ofField fields key fun field =>
        parseIpv4 numberToString field path label).value.map (·.numeric)).getD
          ((ipv4ToInt fallback).getD 0) := by
  cases hit : ownField fields key with
  | none => simp [rangeNumber, Report.ofField, hit]
  | some field =>
    obtain ⟨text, numeric, rfl, read, parsed⟩ := parseIpv4_accepted (Report.ofField_errors hit clean)
    simp [rangeNumber, Report.ofField, hit, read, parsed]

theorem checkRange_clean {start stop : Option ParsedIpv4} (clean : checkRange path start stop = []) :
    (start.map (·.numeric)).getD ((ipv4ToInt Defaults.rangeStart).getD 0) ≤
        (stop.map (·.numeric)).getD ((ipv4ToInt Defaults.rangeEnd).getD 0) ∧
      (stop.map (·.numeric)).getD ((ipv4ToInt Defaults.rangeEnd).getD 0) -
        (start.map (·.numeric)).getD ((ipv4ToInt Defaults.rangeStart).getD 0) + 1 ≤ maxDhcpPoolSize := by
  simp only [checkRange] at clean
  split at clean
  · split at clean
    · simp at clean
    · split at clean
      · simp at clean
      · omega
  · rename_i neither
    simp only [Bool.or_eq_true, not_or, Bool.not_eq_true, Option.isSome_eq_false_iff,
      Option.isNone_iff_eq_none] at neither
    rw [neither.1, neither.2]
    decide

theorem parseDhcpConfig_accepted {cfg : DhcpAdapterConfig}
    (parsed : parseDhcpConfig numberToString value = .ok cfg) :
    ∃ fields, value = .record fields ∧ Accepted fields := by
  cases value with
  | record fields =>
    simp only [parseDhcpConfig, parseDhcpConfigAt] at parsed
    split at parsed
    · cases parsed
    · rename_i clean
      rw [Nat.not_lt, Nat.le_zero_eq, List.length_eq_zero_iff] at clean
      simp only [List.append_eq_nil_iff, and_assoc] at clean
      obtain ⟨known, rangeStart, rangeEnd, gateway, serverId, broadcast, bindAddress, subnet, dns,
        tftpServers, leaseTime, static, leaseStore, bootFile, nextServer, vendor, vendorOptions,
        range⟩ := clean
      refine ⟨fields, rfl, {
        known := pushUnknownKeys_eq_nil.mp known
        addresses := ?_
        subnet := fun value hit => parseSubnet_accepted (Report.ofField_errors hit subnet)
        dns := fun value hit => parseIpv4Array_accepted (Report.ofField_errors hit dns)
        tftpServerAddresses := fun value hit =>
          parseIpv4Array_accepted (Report.ofField_errors hit tftpServers)
        leaseTimeSec := fun value hit =>
          parseLeaseTime_accepted (Report.ofField_errors hit leaseTime)
        static := fun value hit =>
          parseStaticReservations_accepted (Report.ofField_errors hit static)
        leaseStorePath := fun value hit =>
          isBoundedText_of_accepted (Report.ofField_errors hit leaseStore)
        bootFileName := fun value hit =>
          isBoundedText_of_accepted (Report.ofField_errors hit bootFile)
        vendorClassId := fun value hit =>
          parseTrimmedNonBlankString_accepted (Report.ofField_errors hit vendor)
        vendorSpecificOptions := fun value hit =>
          parseVendorSpecificOptions_accepted (Report.ofField_errors hit vendorOptions)
        range := ?_ }⟩
      · simp only [addressKeys, List.forall_mem_cons]
        have held : ∀ {key : String} {label : JsString}, (Report.ofField fields key fun field =>
            parseIpv4 numberToString field (js "dhcp" ++ js "." ++ js key) label).errors = [] →
            HasField fields key IsIpv4 :=
          fun clean value hit => isIpv4_of_accepted (Report.ofField_errors hit clean)
        refine ⟨held rangeStart, held rangeEnd, held gateway, held serverId, held broadcast,
          held bindAddress, held nextServer, fun value hit => ?_, by simp⟩
        obtain ⟨text, numeric, is, read, _⟩ := parseSubnet_accepted (Report.ofField_errors hit subnet)
        exact ⟨text, numeric, is, read⟩
      · rw [rangeNumber_eq rangeStart, rangeNumber_eq rangeEnd]
        exact checkRange_clean range
  | _ => simp [parseDhcpConfig, parseDhcpConfigAt] at parsed

end

end NexTerminal.Host
