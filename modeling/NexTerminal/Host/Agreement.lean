import NexTerminal.Host.ConfigAgreement
import NexTerminal.Host.VendorClass

namespace NexTerminal.Host

open Library
open Dhcp (Text VendorEntry toAsciiLower)

def OptionsAgree (numberToString : JsNumber → JsString) (entries : List VendorEntry) : Prop :=
  (encodeVendorSpecificInfo numberToString (entries.map asHost)).toOption =
    (Dhcp.encodeVendorSpecificInfo entries).toOption

def GatesAgree (toLowerCase : JsString → JsString) (configured observed : Text) : Prop :=
  matchesVendorClass toLowerCase (some (encodeUtf16 configured)) (some (encodeUtf16 observed)) =
    Dhcp.matchesVendorClass (some configured) (some observed)

/-- What the daemon asks of a value beyond what the strict parser does. -/
def DaemonFits : JsValue → Prop
  | .record fields => DaemonFit fields
  | _ => False

/-- Exactly where the host and the daemon agree: on vendor options, on vendor classes and on whole configurations. -/
theorem host_daemon_agree (numberToString : JsNumber → JsString) {toLowerCase : JsString → JsString}
    (lower : LowerCases toLowerCase) :
    (∀ entries, OptionsAgree numberToString entries ↔
      ((payload isAnySpace entries).isSome → inLiteral nel entries = inLiteral bom entries)) ∧
    (∀ configured observed, GatesAgree toLowerCase configured observed ↔
      VendorClassesAgree toLowerCase configured observed) ∧
    ∀ value config, value.DistinctKeys → parseDhcpConfig numberToString value = .ok config →
      (daemonAccepts value ↔ DaemonFits value) := by
  refine ⟨fun entries => ?_, matchesVendorClass_agree lower, fun value config distinct parsed => ?_⟩
  · rw [OptionsAgree, encodeVendorSpecificInfo_host, encodeVendorSpecificInfo_daemon, isSpaceChar_eq,
      isWhitespace_eq]
    exact payload_agree entries
  · obtain ⟨fields, rfl, _⟩ := parseDhcpConfig_accepted parsed
    exact daemonAccepts_iff distinct parsed

theorem unitTest_upper : UnitTest (fun u => 0x41 ≤ u && u ≤ 0x5A)
    fun c => decide ('A' ≤ c ∧ c ≤ 'Z') where
  basic c small := by
    rw [Bool.eq_iff_iff, Bool.and_eq_true, decide_eq_true_eq, decide_eq_true_eq, decide_eq_true_eq,
      upper_iff, UInt16.le_iff_toNat_le, UInt16.le_iff_toNat_le, UInt16.toNat_ofNat_of_lt' small]
    exact Iff.rfl
  astral c large := by
    rw [decide_eq_false_iff_not, upper_iff]
    omega
  surrogate u is := by
    have range := surrogate_range is
    rw [Bool.and_eq_false_iff, decide_eq_false_iff_not, decide_eq_false_iff_not,
      UInt16.le_iff_toNat_le, UInt16.le_iff_toNat_le]
    change ¬ 0x41 ≤ u.toNat ∨ ¬ u.toNat ≤ 0x5A
    omega

theorem asciiLower_encodeUtf16 (text : Text) :
    asciiLower (encodeUtf16 text) = encodeUtf16 (text.map toAsciiLower) := by
  have each : ∀ c, (utf16Units c).map asciiLowerUnit = utf16Units (toAsciiLower c) := by
    intro c
    by_cases upper : 'A' ≤ c ∧ c ≤ 'Z'
    · obtain ⟨-, high⟩ := (upper_iff c).mp upper
      have table : ∀ n : Fin 128, 'A' ≤ Char.ofNat n ∧ Char.ofNat n ≤ 'Z' →
          (utf16Units (Char.ofNat n)).map asciiLowerUnit = utf16Units (toAsciiLower (Char.ofNat n)) := by
        decide
      have entry := table ⟨c.toNat, by omega⟩
      rw [Char.ofNat_toNat] at entry
      exact entry upper
    · rw [toAsciiLower, if_neg upper]
      refine (List.map_congr_left fun u mem => if_neg ?_).trans (List.map_id _)
      rw [(unitTest_upper.units c).2 u mem]
      simpa using upper
  rw [asciiLower, encodeUtf16, List.map_flatMap, encodeUtf16, List.flatMap_map]
  simp [each]

theorem lowerCases_asciiLower : LowerCases asciiLower where
  ascii text other same := by rw [asciiLower_encodeUtf16, asciiLower_encodeUtf16, same]
  margins front core back pre after := by
    have whole := asciiFold.margins front core back pre after
    rw [asciiLower_encodeUtf16, asciiLower_encodeUtf16, whole]
    simp
  trims text := by
    rw [asciiLower_encodeUtf16, asciiLower_encodeUtf16, unitTest_anySpace.trim, asciiFold.trims]
  empty text := by
    rw [asciiLower_encodeUtf16]
    refine ⟨fun none => ?_, fun none => by rw [none]; rfl⟩
    exact List.map_eq_nil_iff.mp (encodeUtf16_injective (none.trans encodeUtf16_nil.symm))

theorem host_daemon_agree_cisco :
    ¬ OptionsAgree (fun _ => []) [⟨1, "0x41".toList ++ [bom]⟩] ∧
    OptionsAgree (fun _ => []) [⟨1, "0x41".toList ++ [bom, nel]⟩] ∧
    GatesAgree asciiLower "Cisco".toList " cisco".toList ∧
    daemonAccepts (.record [(js "vendorClassId", .string (js "Cisco"))]) := by
  obtain ⟨options, gates, configs⟩ := host_daemon_agree (fun _ => []) lowerCases_asciiLower
  refine ⟨fun agree => ?_, (options _).mpr fun _ => by decide, (gates _ _).mpr ?_, ?_⟩
  · exact absurd ((options _).mp agree (by decide)) (by decide)
  · rw [VendorClassesAgree, if_neg (by decide), if_pos (by decide)]
    decide
  · have parsed : (parseDhcpConfig (fun _ => [])
        (.record [(js "vendorClassId", .string (js "Cisco"))])).toBool = true := by
      decide
    obtain ⟨config, parsed⟩ := ok_of_toBool parsed
    have distinct : JsValue.DistinctKeys (.record [(js "vendorClassId", .string (js "Cisco"))]) := by
      simp [JsValue.DistinctKeys, fieldsDistinct, fieldDistinct]
    have only : ∀ {key : String} {value : JsValue}, ownField [(js "vendorClassId",
        .string (js "Cisco"))] key = some value → value = .string (js "Cisco") := fun found =>
      (Prod.ext_iff.mp (List.mem_singleton.mp (mem_of_ownField found))).2
    refine (configs _ config distinct parsed).mpr ⟨⟨fun key _ units found => ?_, ?_⟩, ?_, ?_⟩
    · cases only found
      exact wellFormed_encodeUtf16 _
    · intro items found
      cases only found
    · intro items found
      cases only found
    · intro units found
      cases only found
      exact .inl (by decide)

/-- A byte order mark at the end of a pasted value: the host skips it, the daemon does not. -/
def markedValue : Text := "0x41".toList ++ [bom]

def markedClass : Text := "Cisco".toList ++ [bom]

def markedConfig : JsValue :=
  .record [(js "vendorSpecificOptions", .array [.record [(js "subOption", .number (.finite 1)),
    (js "value", .string (encodeUtf16 markedValue))]])]

theorem host_daemon_disagree :
    (¬ ∀ entries, OptionsAgree (fun _ => []) entries) ∧
    (¬ ∀ configured observed, GatesAgree asciiLower configured observed) ∧
    ¬ ∀ value config, value.DistinctKeys → parseDhcpConfig (fun _ => []) value = .ok config →
      daemonAccepts value := by
  refine ⟨fun agree => ?_, fun agree => ?_, fun accepts => ?_⟩
  · have apart : (encodeVendorSpecificInfo (fun _ => []) ([⟨1, markedValue⟩].map asHost)).toOption ≠
        (Dhcp.encodeVendorSpecificInfo [⟨1, markedValue⟩]).toOption := by
      decide
    exact apart (agree [⟨1, markedValue⟩])
  · have apart : matchesVendorClass asciiLower (some (encodeUtf16 "Cisco".toList))
        (some (encodeUtf16 markedClass)) ≠
        Dhcp.matchesVendorClass (some "Cisco".toList) (some markedClass) := by
      decide
    exact apart (agree "Cisco".toList markedClass)
  · have parsed : (parseDhcpConfig (fun _ => []) markedConfig).toBool = true := by
      decide
    obtain ⟨config, parsed⟩ := ok_of_toBool parsed
    have apart : js "subOption" ≠ js "value" := by decide
    have distinct : markedConfig.DistinctKeys := by
      simp [markedConfig, JsValue.DistinctKeys, itemsDistinct, fieldsDistinct, fieldDistinct, apart]
    have fit := (daemonAccepts_iff distinct parsed).mp (accepts _ config distinct parsed)
    have options : ownField [(js "vendorSpecificOptions", JsValue.array [.record
        [(js "subOption", .number (.finite 1)), (js "value", .string (encodeUtf16 markedValue))]])]
        "vendorSpecificOptions" = some (.array [.record [(js "subOption", .number (.finite 1)),
          (js "value", .string (encodeUtf16 markedValue))]]) := by
      simp [ownField]
    have value : ownField [(js "subOption", JsValue.number (.finite 1)),
        (js "value", .string (encodeUtf16 markedValue))] "value" = some (.string (encodeUtf16 markedValue)) := by
      rw [ownField, List.lookup_cons, beq_eq_false_iff_ne.mpr apart.symm]
      simp
    exact fit.literals _ options _ List.mem_cons_self _ rfl _ value (by decide)
      (by decide)

end NexTerminal.Host
