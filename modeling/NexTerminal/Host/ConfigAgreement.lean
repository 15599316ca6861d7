import NexTerminal.Host.ConfigSent
import Mathlib.Data.List.Pairwise

namespace NexTerminal.Host

open Std Library Daemon
open Dhcp (Text VendorEntry DhcpConfig Ipv4Addr MacKey)

variable {fields : List (JsString × JsValue)}

theorem textOf_ipv4 {value : JsValue} (is : IsIpv4 value) :
    ∃ addr : Ipv4Addr, textOf value = addr.toText ∧ value = .string (encodeUtf16 addr.toText) ∧
      (∃ text, value = .string text ∧ ipv4ToInt text = some addr.toNat) ∧
      Dhcp.parseIpv4 (Dhcp.trim (textOf value)) = some addr ∧
      Dhcp.trim (textOf value) ≠ [] := by
  obtain ⟨units, numeric, rfl, read⟩ := is
  obtain ⟨bound, written⟩ := ipv4ToInt_eq_some read
  have num : (UInt32.ofNat numeric).toNat = numeric := UInt32.toNat_ofNat_of_lt' bound
  refine ⟨.ofNat numeric, ?_, by rw [← written], ⟨units, rfl, by rw [num]; exact read⟩, ?_, ?_⟩
  · rw [textOf, written, decodeUtf16_encodeUtf16]
  · rw [textOf, written, decodeUtf16_encodeUtf16, trim_toText, Dhcp.parseIpv4_toText]
  · rw [textOf, written, decodeUtf16_encodeUtf16, trim_toText]
    exact Ipv4Addr.toText_ne_nil _

theorem parseOptionalIpv4_sent {key : String} (is : HasField fields key IsIpv4) (label : String) :
    ∃ addr, Dhcp.parseOptionalIpv4 ((ownField fields key).map textOf) label = .ok addr ∧
      ∀ (fallback : JsString) (default : Ipv4Addr), ipv4ToInt fallback = some default.toNat →
        (addr.getD default).toNat = rangeNumber fields key fallback := by
  cases hit : ownField fields key with
  | none =>
    refine ⟨none, rfl, fun fallback default same => ?_⟩
    rw [rangeNumber, hit, same]
    rfl
  | some value =>
    obtain ⟨addr, _, _, ⟨text, rfl, read⟩, parsed, ink⟩ := textOf_ipv4 (is value hit)
    refine ⟨some addr, ?_, fun fallback default same => ?_⟩
    · rw [Option.map_some, Dhcp.parseOptionalIpv4, if_neg (by simpa using ink), parsed]
    · rw [rangeNumber, hit]
      change addr.toNat = (ipv4ToInt text).getD 0
      rw [read]
      rfl

theorem mapM_ok {α β ε : Type} (each : α → Except ε β) {items : List α}
    (all : ∀ item ∈ items, ∃ b, each item = .ok b) :
    ∃ results, items.mapM each = .ok results ∧ results.length = items.length := by
  induction items with
  | nil => exact ⟨[], rfl, rfl⟩
  | cons item rest ih =>
    obtain ⟨b, first⟩ := all item List.mem_cons_self
    obtain ⟨results, later, length⟩ := ih fun other mem => all other (List.mem_cons_of_mem _ mem)
    refine ⟨b :: results, ?_, by rw [List.length_cons, List.length_cons, length]⟩
    rw [List.mapM_cons, first, later]
    rfl

theorem parseIpv4List_sent {value : JsValue} (is : IsIpv4Array value) (label : String) :
    ∃ addresses, Dhcp.parseIpv4List (textsOf value) label = .ok addresses := by
  obtain ⟨items, rfl, few, each⟩ := is
  have kept : (items.map textOf).filter (fun text => !(Dhcp.trim text).isEmpty) = items.map textOf := by
    refine List.filter_eq_self.mpr fun text mem => ?_
    obtain ⟨item, inside, rfl⟩ := List.mem_map.mp mem
    obtain ⟨_, _, _, _, _, ink⟩ := textOf_ipv4 (each item inside)
    simpa using ink
  have taken : ∀ text ∈ items.map textOf, ∃ address, Dhcp.parseListedIpv4 label text = .ok address := by
    intro text mem
    obtain ⟨item, inside, rfl⟩ := List.mem_map.mp mem
    obtain ⟨address, _, _, _, parsed, _⟩ := textOf_ipv4 (each item inside)
    exact ⟨address, by rw [Dhcp.parseListedIpv4, parsed]⟩
  obtain ⟨addresses, parsed, len⟩ := mapM_ok (Dhcp.parseListedIpv4 label) taken
  have short : ¬ addresses.length > Dhcp.maxIpv4AddressesPerDhcpOption := by
    have bound : items.length ≤ 16 := few
    rw [len, List.length_map]
    simp only [Dhcp.maxIpv4AddressesPerDhcpOption, Dhcp.maxOptionValueBytes]
    omega
  refine ⟨addresses, ?_⟩
  rw [Dhcp.parseIpv4List, textsOf, kept, parsed]
  change (if addresses.length > _ then _ else _) = _
  rw [if_neg short]
  rfl

/-- What the loop over the reservations needs of two entries. -/
def TextsApart (entry other : Text × Text) : Prop :=
  MacKey.parse entry.1 ≠ MacKey.parse other.1 ∧
    Dhcp.parseIpv4 (Dhcp.trim entry.2) ≠ Dhcp.parseIpv4 (Dhcp.trim other.2)

theorem foldlM_parseReservation_ok {entries : List (Text × Text)} (parsed : Dhcp.ParsedReservations)
    (each : ∀ entry ∈ entries, ∃ key addr, MacKey.parse entry.1 = some key ∧
      Dhcp.parseIpv4 (Dhcp.trim entry.2) = some addr ∧ parsed.1[key]? = none ∧
        parsed.2[addr]? = none) (ne : entries.Pairwise TextsApart) :
    ∃ result, entries.foldlM Dhcp.parseReservation parsed = .ok result := by
  induction entries generalizing parsed with
  | nil => exact ⟨parsed, rfl⟩
  | cons entry rest ih =>
    obtain ⟨first, ne⟩ := List.pairwise_cons.mp ne
    obtain ⟨key, addr, atKey, atAddress, newKey, newAddress⟩ := each entry List.mem_cons_self
    have taken : Dhcp.parseReservation parsed entry =
        .ok (parsed.1.insert key addr, parsed.2.insert addr key) := by
      simp [Dhcp.parseReservation, atAddress, atKey, newAddress, TreeMap.contains_eq_isSome_getElem?, newKey]
    rw [List.foldlM_cons, taken]
    refine ih _ (fun other mem => ?_) ne
    obtain ⟨key', address', atKey', atAddress', newKey', newAddress'⟩ := each other (List.mem_cons_of_mem _ mem)
    have differ := first other mem
    rw [TextsApart, atKey, atKey', atAddress, atAddress'] at differ
    refine ⟨key', address', atKey', atAddress', ?_, ?_⟩
    · rw [TreeMap.getElem?_insert_eq, if_neg fun same => differ.1 (by rw [same])]
      exact newKey'
    · rw [TreeMap.getElem?_insert_eq, if_neg fun same => differ.2 (by rw [same])]
      exact newAddress'

variable {entries : List (JsString × JsValue)}

theorem mem_foldl_insert {map : TreeMap Text Text compare} {mac ip : Text}
    (hit : (entries.foldl (fun map entry => map.insert (decodeUtf16 entry.1) (textOf entry.2))
      map)[mac]? = some ip) :
    map[mac]? = some ip ∨ ∃ entry ∈ entries, decodeUtf16 entry.1 = mac ∧ textOf entry.2 = ip := by
  induction entries generalizing map with
  | nil => exact .inl hit
  | cons entry rest ih =>
    rcases ih hit with held | ⟨other, mem, names⟩
    · rw [TreeMap.getElem?_insert_eq] at held
      split at held
      · rename_i same
        exact .inr ⟨entry, List.mem_cons_self, same, Option.some.inj held⟩
      · exact .inl held
    · exact .inr ⟨other, List.mem_cons_of_mem _ mem, names⟩

theorem size_foldl_insert (entries : List (JsString × JsValue)) (map : TreeMap Text Text compare) :
    (entries.foldl (fun map entry => map.insert (decodeUtf16 entry.1) (textOf entry.2)) map).size ≤
      map.size + entries.length := by
  induction entries generalizing map with
  | nil => simp
  | cons entry rest ih =>
    have grown := TreeMap.size_insert_le (t := map) (k := decodeUtf16 entry.1) (v := textOf entry.2)
    have later := ih (map.insert (decodeUtf16 entry.1) (textOf entry.2))
    simp only [List.foldl_cons, List.length_cons] at *
    omega

theorem reservation_daemon {entry : JsString × JsValue} (canonical : (canonicalMac entry.1).isSome)
    (ip : IsIpv4 entry.2) :
    ∃ key addr, MacKey.parse (decodeUtf16 entry.1) = some key ∧
      canonicalMac entry.1 = some (hostMac key) ∧
      Dhcp.parseIpv4 (Dhcp.trim (textOf entry.2)) = some addr ∧
      entry.2 = .string (encodeUtf16 (Ipv4Addr.toText addr)) := by
  obtain ⟨mac, canonical⟩ := Option.isSome_iff_exists.mp canonical
  obtain ⟨text, key, written, parsed, rfl⟩ := canonicalMac_eq_some canonical
  obtain ⟨addr, _, is, _, atAddress, _⟩ := textOf_ipv4 ip
  refine ⟨key, addr, ?_, canonical, atAddress, is⟩
  rw [written, decodeUtf16_encodeUtf16]
  exact parsed

instance : Std.Symm Apart where
  symm _ _ apart := ⟨apart.1.symm, fun ip atOther atEntry => apart.2 ip atEntry atOther⟩

theorem parseStaticReservations_sent (are : AreReservations entries) :
    ∃ statics, Dhcp.parseStaticReservations (reservationsOf (.record entries)) = .ok statics := by
  generalize atMap : reservationsOf (.record entries) = map
  have size : map.size ≤ entries.length := by
    have bound := size_foldl_insert entries ∅
    rw [reservationsOf] at atMap
    rw [atMap, TreeMap.size_emptyc] at bound
    omega
  have source : ∀ entry ∈ map.toList, ∃ origin ∈ entries,
      decodeUtf16 origin.1 = entry.1 ∧ textOf origin.2 = entry.2 := by
    intro entry mem
    have hit : map[entry.1]? = some entry.2 := TreeMap.mem_toList_iff_getElem?_eq_some.mp mem
    rw [← atMap, reservationsOf] at hit
    rcases mem_foldl_insert hit with held | origin
    · simp at held
    · exact origin
  have each : ∀ entry ∈ map.toList, ∃ key addr, MacKey.parse entry.1 = some key ∧
      Dhcp.parseIpv4 (Dhcp.trim entry.2) = some addr ∧
        (∅ : TreeMap MacKey Ipv4Addr compare)[key]? = none ∧
          (∅ : TreeMap Ipv4Addr MacKey compare)[addr]? = none := by
    intro entry mem
    obtain ⟨origin, inside, mac, ip⟩ := source entry mem
    obtain ⟨key, addr, atKey, _, atAddress, _⟩ :=
      reservation_daemon (are.each origin inside).1 (are.each origin inside).2
    rw [mac] at atKey
    rw [ip] at atAddress
    exact ⟨key, addr, atKey, atAddress, by simp, by simp⟩
  have ne : map.toList.Pairwise TextsApart := by
    refine (TreeMap.distinct_keys_toList (t := map)).imp_of_mem ?_
    intro entry other mem later differ
    obtain ⟨origin, inside, mac, ip⟩ := source entry mem
    obtain ⟨origin', inside', mac', ip'⟩ := source other later
    have nodup : origin ≠ origin' := by
      rintro rfl
      exact differ (by rw [← mac, ← mac']; exact Std.ReflCmp.compare_self)
    obtain ⟨macs, ips⟩ := are.apart.forall inside inside' nodup
    obtain ⟨key, addr, atKey, canonical, atAddress, written⟩ :=
      reservation_daemon (are.each origin inside).1 (are.each origin inside).2
    obtain ⟨key', address', atKey', canonical', atAddress', written'⟩ :=
      reservation_daemon (are.each origin' inside').1 (are.each origin' inside').2
    rw [mac] at atKey
    rw [mac'] at atKey'
    rw [ip] at atAddress
    rw [ip'] at atAddress'
    constructor
    · rw [atKey, atKey']
      intro same
      rw [canonical, canonical', Option.some.inj same] at macs
      exact macs rfl
    · rw [atAddress, atAddress']
      intro same
      rw [← Option.some.inj same] at written'
      exact ips _ written written'
  obtain ⟨res, taken⟩ := foldlM_parseReservation_ok (∅, ∅) each ne
  have few : ¬ map.size > Dhcp.maxStaticReservations := by
    have bound : entries.length ≤ 1024 := are.few
    change ¬ map.size > 1024
    omega
  refine ⟨res.1, ?_⟩
  rw [Dhcp.parseStaticReservations, if_neg few]
  rw [taken]
  rfl

theorem resolveLeaseSecs_sent (is : HasField fields "leaseTimeSec" IsLeaseTime) :
    ∃ seconds, Dhcp.resolveLeaseSecs ((ownField fields "leaseTimeSec").map natOf) = .ok seconds := by
  cases hit : ownField fields "leaseTimeSec" with
  | none => exact ⟨_, rfl⟩
  | some value =>
    obtain ⟨seconds, rfl, low, high⟩ := is value hit
    refine ⟨seconds, ?_⟩
    have natural : natOf (.number (.finite seconds)) = seconds := rfl
    rw [Option.map_some, natural, Dhcp.resolveLeaseSecs, if_neg (by
      rw [not_or, Nat.not_lt, Nat.not_lt]
      exact ⟨low, high⟩)]

theorem byteLen_trim_le (text : Text) : byteLen (Dhcp.trim text) ≤ byteLen text := by
  have parts := trim_parts Dhcp.isWhitespace text
  calc byteLen (Dhcp.trim text)
      ≤ byteLen (leading Dhcp.isWhitespace text ++ trimWith Dhcp.isWhitespace text ++
          trailing Dhcp.isWhitespace text) := by
        rw [byteLen_append, byteLen_append]
        change byteLen (trimWith Dhcp.isWhitespace text) ≤ _
        omega
    _ = byteLen text := by rw [parts]

theorem resolveLeaseStorePath_sent (is : HasField fields "leaseStorePath" (IsBoundedText maxPathBytes)) :
    ∃ path, Dhcp.resolveLeaseStorePath ((ownField fields "leaseStorePath").map textOf) = .ok path := by
  rw [Dhcp.resolveLeaseStorePath]
  split
  · exact ⟨none, rfl⟩
  · rename_i path kept
    obtain ⟨-, ⟨value, hit, rfl⟩, rfl⟩ : ∃ text,
        (∃ value, ownField fields "leaseStorePath" = some value ∧ textOf value = text) ∧
          Dhcp.trim text = path := by
      have source := (Option.filter_eq_some_iff.mp kept).1
      obtain ⟨text, atText, rfl⟩ := Option.map_eq_some_iff.mp source
      obtain ⟨value, hit, rfl⟩ := Option.map_eq_some_iff.mp atText
      exact ⟨_, ⟨value, hit, rfl⟩, rfl⟩
    obtain ⟨units, rfl, _, fits⟩ := is value hit
    have short := byteLen_trim_le (textOf (.string units))
    have bound : byteLen (textOf (.string units)) ≤ 4096 := fits
    rw [if_neg (by
      change ¬ byteLen _ > 4096
      omega)]
    exact ⟨_, rfl⟩

theorem normalizeOptionText_ok {text : Text} (fits : byteLen text ≤ 255) (label : String) :
    ∃ value, Dhcp.normalizeOptionText (some text) label = .ok value := by
  rw [Dhcp.normalizeOptionText]
  split
  · exact ⟨none, rfl⟩
  · rw [if_neg (by
      change ¬ byteLen _ > 255
      omega)]
    exact ⟨some text, rfl⟩

theorem normalizeOptionText_iff {text : Text} (label : String) :
    (∃ value, Dhcp.normalizeOptionText (some text) label = .ok value) ↔
      byteLen text ≤ 255 ∨ Dhcp.trim text = [] := by
  refine ⟨fun ⟨value, ok⟩ => ?_, fun fit => ?_⟩
  · simp only [Dhcp.normalizeOptionText] at ok
    split at ok
    · rename_i blank
      exact .inr (List.isEmpty_iff.mp blank)
    · split at ok
      · cases ok
      · rename_i fits
        exact .inl (Nat.not_lt.mp fits)
  · rcases fit with fits | blank
    · exact normalizeOptionText_ok fits label
    · exact ⟨none, by rw [Dhcp.normalizeOptionText, blank]; rfl⟩

theorem validate_sent {options : Dhcp.EngineOptions} {start stop : Nat} (atStart : options.rangeStart.toNat = start)
    (atStop : options.rangeEnd.toNat = stop) (order : start ≤ stop) (size : stop - start + 1 ≤ maxDhcpPoolSize) :
    options.validate = .ok () := by
  have bound : stop - start + 1 ≤ 65536 := size
  have pool : Dhcp.poolSize options.rangeStart options.rangeEnd = stop - start + 1 := by
    have above : ¬ options.rangeEnd < options.rangeStart := by
      rw [UInt32.lt_iff_toNat_lt, atStart, atStop]
      omega
    rw [Dhcp.poolSize, if_neg above, atStart, atStop]
    omega
  rw [Dhcp.EngineOptions.validate]
  rw [if_neg (by omega), if_neg (by
    change ¬ _ > 65536
    omega)]

theorem vendorEntryOf_asHost {item : JsValue} {entry : DhcpVendorSpecificEntry} {bytes : List UInt8}
    (is : IsVendorOption item entry bytes) (formed : WellFormedUtf16 entry.value) :
    asHost (vendorEntryOf item) = entry := by
  obtain ⟨fields, rfl, _, atCode, atValue⟩ := is.fields
  obtain ⟨code, isCode, _, _⟩ := isValidSubOptionCode_eq is.code
  obtain ⟨subOption, value⟩ := entry
  subst isCode
  simp only [vendorEntryOf, atCode, atValue, asHost]
  congr 1

theorem entryBytes_sent {item : JsValue} {entry : DhcpVendorSpecificEntry} {bytes : List UInt8}
    (is : IsVendorOption item entry bytes) (formed : WellFormedUtf16 entry.value) :
    ∃ part, entryBytes isSpaceChar (vendorEntryOf item) = some part ∧ part.length = bytes.length + 2 := by
  have same := vendorEntryOf_asHost is formed
  have code := is.code
  have value := is.value
  rw [← same, asHost] at code value
  rw [isValidSubOptionCode_host] at code
  have read := parseVendorOptionValue_host (vendorEntryOf item).value
  rw [value] at read
  have fits : bytes.length ≤ 255 := is.fits
  refine ⟨.ofNat (vendorEntryOf item).subOption.toNat :: .ofNat bytes.length :: bytes, ?_, by simp⟩
  rw [entryBytes, if_pos code, ← read]
  simp only [Except.toOption]
  rw [if_pos fits]

variable {options : List (DhcpVendorSpecificEntry × List UInt8)}

theorem payload_sent {items : List JsValue}
    (are : List.Forall₂ (fun item opt => IsVendorOption item opt.1 opt.2) items options)
    (total : (options.map fun opt => opt.2.length + 2).sum ≤ maxDhcpStringBytes)
    (formed : ∀ opt ∈ options, WellFormedUtf16 opt.1.value) :
    (payload isSpaceChar (items.map vendorEntryOf)).isSome := by
  have parts : ∃ parts, (items.map vendorEntryOf).mapM (entryBytes isSpaceChar) = some parts ∧
      parts.flatten.length = (options.map fun opt => opt.2.length + 2).sum := by
    clear total
    induction are with
    | nil => exact ⟨[], rfl, rfl⟩
    | cons is _ ih =>
      obtain ⟨parts, later, len⟩ := ih fun opt mem =>
        formed opt (List.mem_cons_of_mem _ mem)
      obtain ⟨part, first, size⟩ := entryBytes_sent is (formed _ List.mem_cons_self)
      refine ⟨part :: parts, ?_, ?_⟩
      · rw [List.map_cons, List.mapM_cons, first, later]
        rfl
      · rw [List.flatten_cons, List.length_append, size, len, List.map_cons, List.sum_cons]
  obtain ⟨parts, read, len⟩ := parts
  have fits : parts.flatten.length ≤ 255 := len.trans_le total
  rw [payload, read]
  simp only [if_pos fits, Option.isSome_some]

theorem unitTest_bom : UnitTest (· == 0xFEFF) (· == bom) where
  basic c small := by
    rw [Bool.eq_iff_iff, beq_iff_eq, beq_iff_eq, ← UInt16.toNat_inj, ← Char.toNat_inj,
      UInt16.toNat_ofNat_of_lt' small]
    exact Iff.rfl
  astral c large := beq_eq_false_iff_ne.mpr fun same => large (by rw [same]; decide)
  surrogate u is := beq_eq_false_iff_ne.mpr fun same => by
    rw [same] at is
    exact absurd is (by decide)

theorem bom_in_literal (text : Text) : (hexBody text).any (fun body => body.contains bom) = true ↔
    hasHexPrefix (encodeUtf16 text) = true ∧ 0xFEFF ∈ encodeUtf16 text := by
  have units : 0xFEFF ∈ encodeUtf16 text ↔ bom ∈ text := by
    have same := unitTest_bom.any text
    rw [Bool.eq_iff_iff, List.any_eq_true, List.any_eq_true] at same
    simpa using same
  rw [hasHexPrefix_encodeUtf16, units]
  cases literal : hexBody text with
  | none => simp
  | some body =>
    obtain ⟨x, prefixed, rfl⟩ := hexBody_eq_some literal
    have zero : bom ≠ '0' := by decide
    have letter : bom ≠ x := by rcases prefixed with rfl | rfl <;> decide
    simp [zero, letter]

/-- The daemon takes the accepted options unless a hex literal holds a byte order mark. -/
theorem encodeVendorSpecificInfo_sent {items : List JsValue}
    (are : List.Forall₂ (fun item opt => IsVendorOption item opt.1 opt.2) items options)
    (total : (options.map fun opt => opt.2.length + 2).sum ≤ maxDhcpStringBytes)
    (formed : ∀ opt ∈ options, WellFormedUtf16 opt.1.value) :
    (∃ bytes, Dhcp.encodeVendorSpecificInfo (items.map vendorEntryOf) = .ok bytes) ↔
      inLiteral bom (items.map vendorEntryOf) = false := by
  have host := payload_sent are total formed
  rw [isSpaceChar_eq, payload_isSpaceBut (by decide) (by decide)] at host
  have daemon := encodeVendorSpecificInfo_daemon (items.map vendorEntryOf)
  rw [isWhitespace_eq, payload_isSpaceBut (by decide) (by decide)] at daemon
  have any : (payload isAnySpace (items.map vendorEntryOf)).isSome := by
    split at host
    · cases host
    · exact host
  cases holds : inLiteral bom (items.map vendorEntryOf) with
  | true =>
    rw [holds, if_pos rfl] at daemon
    refine ⟨fun ⟨bytes, encoded⟩ => ?_, fun clean => by cases clean⟩
    rw [encoded] at daemon
    cases daemon
  | false =>
    rw [holds, if_neg Bool.false_ne_true] at daemon
    refine ⟨fun _ => rfl, fun _ => ?_⟩
    cases encoded : Dhcp.encodeVendorSpecificInfo (items.map vendorEntryOf) with
    | ok bytes => exact ⟨bytes, rfl⟩
    | error error =>
      rw [encoded] at daemon
      rw [← daemon] at any
      cases any

/-- What the daemon asks of a configuration beyond what the strict parser does. -/
structure DaemonFit (fields : List (JsString × JsValue)) : Prop where
  whole : SentWhole fields
  literals : ∀ items, ownField fields "vendorSpecificOptions" = some (.array items) →
    ∀ item ∈ items, ∀ entry, item = .record entry → ∀ units,
      ownField entry "value" = some (.string units) → hasHexPrefix units = true → 0xFEFF ∉ units
  /-- Its vendor class fits an option as it stands, or the daemon finds it blank. -/
  vendorClass : ∀ units, ownField fields "vendorClassId" = some (.string units) →
    utf8Bytes units ≤ maxDhcpStringBytes ∨ Dhcp.trim (decodeUtf16 units) = []

/-- The daemon reads the value's JSON text and resolves the settings in it. -/
def daemonAccepts (value : JsValue) : Prop :=
  ∃ json config options, toJson value = some json ∧ readDhcpConfig json = some config ∧
    config.resolve = .ok options

theorem checkBindAddress_sent (is : HasField fields "bindAddress" IsIpv4) :
    Dhcp.checkBindAddress ((ownField fields "bindAddress").map textOf) = .ok () := by
  cases hit : ownField fields "bindAddress" with
  | none => rfl
  | some value =>
    obtain ⟨addr, _, _, _, parsed, ink⟩ := textOf_ipv4 (is value hit)
    rw [Option.map_some, Dhcp.checkBindAddress, if_neg (by simpa using ink), parsed]

theorem resolveSubnet_sent (is : HasField fields "subnet" fun value => ∃ text numeric,
    value = .string text ∧ ipv4ToInt text = some numeric ∧
      Dhcp.isContiguousMask (.ofNat numeric) = true) (fallback : Ipv4Addr) :
    ∃ subnet, Dhcp.resolveSubnet ((ownField fields "subnet").map textOf) fallback = .ok subnet := by
  cases hit : ownField fields "subnet" with
  | none => exact ⟨fallback, rfl⟩
  | some value =>
    obtain ⟨text, numeric, rfl, read, contiguous⟩ := is value hit
    obtain ⟨addr, _, _, ⟨_, same, num⟩, parsed, ink⟩ := textOf_ipv4 ⟨text, numeric, rfl, read⟩
    cases same
    rw [read] at num
    rw [Option.some.inj num, UInt32.ofNat_toNat] at contiguous
    refine ⟨addr, ?_⟩
    rw [Option.map_some, Dhcp.resolveSubnet, Dhcp.parseOptionalIpv4, if_neg (by simpa using ink), parsed, ok_bind]
    simp [contiguous]
    rfl

theorem resolveAddresses_sent {key : String} (is : HasField fields key IsIpv4Array) (label : String)
    (fallback : List Ipv4Addr) :
    ∃ addresses, (match (ownField fields key).map textsOf with
      | some list => Dhcp.parseIpv4List list label
      | none => .ok fallback) = .ok addresses := by
  cases hit : ownField fields key with
  | none => exact ⟨fallback, rfl⟩
  | some value => exact parseIpv4List_sent (is value hit) label

theorem resolveStatics_sent (is : HasField fields "static" fun value => ∃ entries,
    value = .record entries ∧ AreReservations entries) :
    ∃ statics, Dhcp.resolveStatics ((ownField fields "static").map reservationsOf) = .ok statics := by
  cases hit : ownField fields "static" with
  | none => exact ⟨∅, rfl⟩
  | some value =>
    obtain ⟨entries, rfl, are⟩ := is value hit
    exact parseStaticReservations_sent are

theorem resolve_sent (ok : Accepted fields) :
    (∃ options, (daemonConfig fields).resolve = .ok options) ↔
      ∃ boot, (daemonConfig fields).resolveBoot = .ok boot := by
  have addr := ok.addresses
  simp only [addressKeys, List.forall_mem_cons] at addr
  obtain ⟨rangeStart, rangeEnd, gateway, serverId, broadcast, bindAddress, _⟩ := addr
  obtain ⟨start, atStart, startNumber⟩ := parseOptionalIpv4_sent rangeStart "Pool Start"
  obtain ⟨stop, atStop, stopNumber⟩ := parseOptionalIpv4_sent rangeEnd "Pool End"
  obtain ⟨gateway, atGateway, _⟩ := parseOptionalIpv4_sent gateway "Gateway"
  obtain ⟨serverId, atServerId, _⟩ := parseOptionalIpv4_sent serverId "Server Identifier"
  obtain ⟨broadcast, atBroadcast, _⟩ := parseOptionalIpv4_sent broadcast "Broadcast"
  obtain ⟨subnet, atSubnet⟩ := resolveSubnet_sent ok.subnet (.new 255 255 255 0)
  obtain ⟨dns, atDns⟩ : ∃ dns, Dhcp.resolveDns ((ownField fields "dns").map textsOf)
      [.new 8 8 8 8, .new 8 8 4 4] = .ok dns := resolveAddresses_sent ok.dns "DNS server" _
  obtain ⟨leaseSecs, atLease⟩ := resolveLeaseSecs_sent ok.leaseTimeSec
  obtain ⟨statics, atStatics⟩ := resolveStatics_sent ok.static
  obtain ⟨path, atPath⟩ := resolveLeaseStorePath_sent ok.leaseStorePath
  have atBind := checkBindAddress_sent bindAddress
  have stages : (daemonConfig fields).resolve = (daemonConfig fields).resolveBoot >>= fun boot =>
      .ok { rangeStart := start.getD (.new 192 168 2 10), rangeEnd := stop.getD (.new 192 168 2 199)
            subnet := subnet, gateway := gateway.getD (.new 192 168 2 1), dns := dns
            leaseSecs := leaseSecs, serverId := serverId.getD (.new 192 168 2 1)
            broadcast := broadcast.getD
              (Dhcp.broadcastAddress (gateway.getD (.new 192 168 2 1)) subnet)
            statics := statics, leaseStorePath := path, boot := boot, allowRelayAgents := false } := by
    simp only [DhcpConfig.resolve, daemonConfig, atBind, ok_bind, atStart, atStop, atSubnet,
      atGateway, atServerId, atBroadcast, atDns, atLease, atStatics, atPath]
    congr 1
    funext boot
    rw [validate_sent (startNumber Defaults.rangeStart (.new 192 168 2 10) (by decide))
      (stopNumber Defaults.rangeEnd (.new 192 168 2 199) (by decide)) ok.range.1
      ok.range.2]
    rfl
  rw [stages]
  constructor
  · rintro ⟨options, resolved⟩
    obtain ⟨boot, built, _⟩ := bind_eq_ok resolved
    exact ⟨boot, built⟩
  · rintro ⟨boot, built⟩
    rw [built]
    exact ⟨_, rfl⟩

theorem resolveBoot_sent (accepted : Accepted fields) :
    (∃ boot, (daemonConfig fields).resolveBoot = .ok boot) ↔
      (∃ value, Dhcp.normalizeOptionText ((ownField fields "vendorClassId").map textOf)
        "Vendor Class Identifier" = .ok value) ∧
      ∃ bytes, Dhcp.encodeVendorSpecificInfo
        (((ownField fields "vendorSpecificOptions").map vendorEntriesOf).getD []) = .ok bytes := by
  obtain ⟨servers, atServers⟩ := resolveAddresses_sent accepted.tftpServerAddresses
    "TFTP server address" []
  obtain ⟨nextServer, atNext⟩ : ∃ value, Dhcp.normalizeOptionText
      ((ownField fields "nextServer").map textOf) "Next Server" = .ok value := by
    cases hit : ownField fields "nextServer" with
    | none => exact ⟨none, rfl⟩
    | some value =>
      obtain ⟨addr, text, _⟩ := textOf_ipv4 (accepted.addresses "nextServer" (by decide) value hit)
      have short := Ipv4Addr.byteLen_toText addr
      rw [Option.map_some, text]
      exact normalizeOptionText_ok (by omega) _
  obtain ⟨bootFile, atFile⟩ : ∃ value, Dhcp.normalizeOptionText
      ((ownField fields "bootFileName").map textOf) "Boot File Name" = .ok value := by
    cases hit : ownField fields "bootFileName" with
    | none => exact ⟨none, rfl⟩
    | some value =>
      obtain ⟨units, rfl, _, fits⟩ := accepted.bootFileName value hit
      exact normalizeOptionText_ok fits _
  have stages : (daemonConfig fields).resolveBoot =
      ((do
        let vendor ← Dhcp.normalizeOptionText ((ownField fields "vendorClassId").map textOf)
          "Vendor Class Identifier"
        let bytes ← Dhcp.encodeVendorSpecificInfo
          (((ownField fields "vendorSpecificOptions").map vendorEntriesOf).getD [])
        return { nextServer := nextServer, bootFileName := bootFile, tftpServerAddresses := servers
                 vendorClassId := vendor, vendorSpecific := bytes } :
        Except Dhcp.BootOptionError Dhcp.BootOptions).mapError
          fun error => s!"invalid DHCP boot options: {error.display}") := by
    simp only [DhcpConfig.resolveBoot, daemonConfig, Dhcp.BootOptions.new, atNext, atFile]
    cases held : (ownField fields "tftpServerAddresses").map textsOf with
    | none =>
      rw [held] at atServers
      cases atServers
      simp only [Except.mapError, bind, Except.bind]
      split <;> rename_i built <;> rw [built] <;> rfl
    | some list =>
      rw [held] at atServers
      simp only [atServers, Except.mapError, bind, Except.bind]
      split <;> rename_i built <;> rw [built] <;> rfl
  rw [stages]
  cases Dhcp.normalizeOptionText ((ownField fields "vendorClassId").map textOf)
      "Vendor Class Identifier" with
  | error error => simp [Except.mapError, bind, Except.bind]
  | ok vendor =>
    cases Dhcp.encodeVendorSpecificInfo
        (((ownField fields "vendorSpecificOptions").map vendorEntriesOf).getD []) with
    | error error => simp [Except.mapError, bind, Except.bind]
    | ok bytes => simp [Except.mapError, bind, Except.bind, pure, Except.pure]

theorem bootOptions_sent (ok : Accepted fields) (whole : SentWhole fields) :
    (∃ boot, (daemonConfig fields).resolveBoot = .ok boot) ↔ DaemonFit fields := by
  have vendor : (∃ value, Dhcp.normalizeOptionText
      ((ownField fields "vendorClassId").map textOf) "Vendor Class Identifier" = .ok value) ↔
      ∀ units, ownField fields "vendorClassId" = some (.string units) →
        utf8Bytes units ≤ maxDhcpStringBytes ∨ Dhcp.trim (decodeUtf16 units) = [] := by
    cases hit : ownField fields "vendorClassId" with
    | none => exact ⟨fun _ units none => (by cases none), fun _ => ⟨none, rfl⟩⟩
    | some value =>
      obtain ⟨units, rfl, _⟩ := ok.vendorClassId value hit
      rw [Option.map_some, normalizeOptionText_iff]
      constructor
      · intro fit other same
        cases same
        exact fit
      · exact fun fit => fit units rfl
  have options : (∃ bytes, Dhcp.encodeVendorSpecificInfo
      (((ownField fields "vendorSpecificOptions").map vendorEntriesOf).getD []) = .ok bytes) ↔
      ∀ items, ownField fields "vendorSpecificOptions" = some (.array items) →
        ∀ item ∈ items, ∀ entry, item = .record entry → ∀ units,
          ownField entry "value" = some (.string units) → hasHexPrefix units = true → 0xFEFF ∉ units := by
    cases hit : ownField fields "vendorSpecificOptions" with
    | none => exact ⟨fun _ items none => (by cases none), fun _ => ⟨[], rfl⟩⟩
    | some value =>
      obtain ⟨items, rfl, entries, are, total⟩ := ok.vendorSpecificOptions value hit
      have formed : ∀ opt ∈ entries, WellFormedUtf16 opt.1.value := by
        intro opt mem
        obtain ⟨item, inside, is⟩ := exists_of_forall₂_right are mem
        obtain ⟨entry, isRecord, _, _, atValue⟩ := is.fields
        exact whole.values items hit item inside entry isRecord _ atValue
      have encoded := encodeVendorSpecificInfo_sent are total formed
      rw [Option.map_some, Option.getD_some, vendorEntriesOf, encoded, inLiteral, List.any_eq_false]
      simp only [List.forall_mem_map, Option.some.injEq, JsValue.array.injEq, forall_eq']
      refine forall₂_congr fun item inside => ?_
      obtain ⟨opt, mem, is⟩ := exists_of_forall₂ are inside
      have same := vendorEntryOf_asHost is (formed opt mem)
      obtain ⟨record, rfl, _, _, atValue⟩ := is.fields
      have text : encodeUtf16 (vendorEntryOf (.record record)).value = opt.1.value :=
        congrArg DhcpVendorSpecificEntry.value same
      rw [bom_in_literal, text]
      simp [atValue]
  rw [resolveBoot_sent ok, vendor, options]
  exact ⟨fun ⟨fits, clean⟩ => ⟨whole, clean, fits⟩, fun fit => ⟨fit.vendorClass, fit.literals⟩⟩

theorem daemonAccepts_iff {numberToString : JsNumber → JsString} {cfg : DhcpAdapterConfig}
    (nodup : JsValue.DistinctKeys (.record fields))
    (parsed : parseDhcpConfig numberToString (.record fields) = .ok cfg) :
    daemonAccepts (.record fields) ↔ DaemonFit fields := by
  obtain ⟨_, same, ok⟩ := parseDhcpConfig_accepted parsed
  cases same
  constructor
  · rintro ⟨json, read, options, sent, readBack, resolved⟩
    have whole := sentWhole_of_toJson sent
    obtain ⟨json', sent', readBack'⟩ := toJson_accepted ok nodup whole
    rw [sent'] at sent
    cases sent
    rw [readBack'] at readBack
    cases readBack
    exact (bootOptions_sent ok whole).mp ((resolve_sent ok).mp ⟨options, resolved⟩)
  · intro fit
    obtain ⟨json, sent, readBack⟩ := toJson_accepted ok nodup fit.whole
    obtain ⟨options, resolved⟩ := (resolve_sent ok).mpr
      ((bootOptions_sent ok fit.whole).mpr fit)
    exact ⟨json, _, options, sent, readBack, resolved⟩

end NexTerminal.Host
