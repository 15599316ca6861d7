import NexTerminal.Host.StrictParse
import NexTerminal.Host.AddressAgreement
import NexTerminal.Daemon.ConfigValues

namespace NexTerminal.Host

open Std Library Daemon
open Dhcp (Text VendorEntry DhcpConfig)

variable {units : JsString}

theorem stringToText_eq_some {text : Text} : stringToText units = some text ↔ units = encodeUtf16 text := by
  rw [stringToText]
  constructor
  · intro read
    split at read
    · rename_i formed
      rw [← Option.some.inj read]
      exact formed.symm
    · cases read
  · rintro rfl
    rw [if_pos (wellFormed_encodeUtf16 text), decodeUtf16_encodeUtf16]

theorem wellFormedUtf16_iff : WellFormedUtf16 units ↔ ∃ text, units = encodeUtf16 text :=
  ⟨fun formed => ⟨decodeUtf16 units, formed.symm⟩,
    fun ⟨text, is⟩ => is ▸ wellFormed_encodeUtf16 text⟩

theorem js_eq_iff {text : Text} {key : String} : encodeUtf16 text = js key ↔ String.ofList text = key := by
  constructor
  · intro same
    rw [encodeUtf16_injective same, String.ofList_toList]
  · rintro rfl
    rw [js, String.toList_ofList]

variable {value : JsValue}

theorem isOmitted_of_toJson {json : Json} (sent : toJson value = some json) : value.isOmitted = false := by
  cases value with
  | undefined | exotic kind => cases sent
  | _ => rfl

variable {fields : List (JsString × JsValue)}

/-- A record whose fields all have a JSON text is read field by field. -/
theorem fieldsToJson_of_each (each : ∀ field ∈ fields, (∃ key : String, field.1 = js key) ∧
    (toJson field.2).isSome) :
    ∃ sent, fieldsToJson fields = some sent ∧
      (∀ key, sent.lookup key = (ownField fields key).bind toJson) ∧
      ∀ field ∈ sent, js field.1 ∈ fields.map (·.1) := by
  induction fields with
  | nil => exact ⟨[], rfl, fun key => rfl, by simp⟩
  | cons field rest ih =>
    obtain ⟨sent, rest_sent, lookup, keys⟩ := ih fun other mem =>
      each other (List.mem_cons_of_mem _ mem)
    obtain ⟨⟨key, atKey⟩, value_sent⟩ := each field List.mem_cons_self
    obtain ⟨json, toJson_eq⟩ := Option.isSome_iff_exists.mp value_sent
    obtain ⟨units, value⟩ := field
    subst atKey
    have head : fieldToJson (js key, value) = some (key, json) := by
      have text : stringToText (js key) = some key.toList := stringToText_eq_some.mpr rfl
      rw [fieldToJson, text, toJson_eq]
      simp
    refine ⟨(key, json) :: sent, ?_, fun other => ?_, ?_⟩
    · rw [fieldsToJson, head, rest_sent]
      simp [isOmitted_of_toJson toJson_eq]
    · rw [ownField, List.lookup_cons, List.lookup_cons]
      by_cases same : other = key
      · subst same
        simp [toJson_eq]
      · have ne : js other ≠ js key := fun equal => same (by
          simpa using js_eq_iff.mp equal)
        rw [beq_eq_false_iff_ne.mpr same, beq_eq_false_iff_ne.mpr ne]
        exact lookup other
    · intro other mem
      rcases List.mem_cons.mp mem with rfl | inside
      · exact List.mem_cons_self
      · exact List.mem_cons_of_mem _ (keys other inside)

variable {sent : List (String × Json)}

theorem toJson_isSome_of_mem (whole : fieldsToJson fields = some sent) {field : JsString × JsValue}
    (mem : field ∈ fields) (kept : field.2.isOmitted = false) : (toJson field.2).isSome := by
  induction fields generalizing sent with
  | nil => cases mem
  | cons first rest ih =>
    rw [fieldsToJson] at whole
    cases rest_sent : fieldsToJson rest with
    | none => cases first_sent : fieldToJson first <;> simp [rest_sent] at whole
    | some later =>
      rcases List.mem_cons.mp mem with rfl | inside
      · cases first_sent : fieldToJson field with
        | none => simp [rest_sent, first_sent, kept] at whole
        | some sent =>
          obtain ⟨key, value⟩ := field
          rw [fieldToJson] at first_sent
          cases value_sent : toJson value with
          | none => cases text : stringToText key <;> simp [value_sent] at first_sent
          | some json => rfl
      · exact ih rest_sent inside

variable {items : List JsValue}

theorem toJson_isSome_of_item (whole : (itemsToJson items).isSome) {item : JsValue} (mem : item ∈ items)
    (kept : item.isOmitted = false) : (toJson item).isSome := by
  induction items with
  | nil => cases mem
  | cons first rest ih =>
    rw [itemsToJson] at whole
    cases rest_sent : itemsToJson rest with
    | none => cases first.isOmitted <;> cases toJson first <;> simp [rest_sent] at whole
    | some later =>
      rcases List.mem_cons.mp mem with rfl | inside
      · cases item_sent : toJson item with
        | none => simp [kept, item_sent] at whole
        | some json => rfl
      · exact ih (by rw [rest_sent]; rfl) inside

def textOf : JsValue → Text
  | .string units => decodeUtf16 units
  | _ => []

def textsOf : JsValue → List Text
  | .array items => items.map textOf
  | _ => []

def natOf : JsValue → Nat
  | .number (.finite q) => q.num.toNat
  | _ => 0

def reservationsOf : JsValue → TreeMap Text Text compare
  | .record entries =>
    entries.foldl (fun map entry => map.insert (decodeUtf16 entry.1) (textOf entry.2)) ∅
  | _ => ∅

def vendorEntryOf : JsValue → VendorEntry
  | .record fields =>
    { subOption := match ownField fields "subOption" with
        | some (.number (.finite q)) => q.num
        | _ => 0
      value := ((ownField fields "value").map textOf).getD [] }
  | _ => ⟨0, []⟩

def vendorEntriesOf : JsValue → List VendorEntry
  | .array items => items.map vendorEntryOf
  | _ => []

/-- The value has a JSON text, and the daemon reads it as it should. -/
def ReadsAs {α : Type} (read : Json → Option α) (conv : JsValue → α) (value : JsValue) : Prop :=
  ∃ json, toJson value = some json ∧ read json = some (conv value)

theorem readsAs_string (formed : WellFormedUtf16 units) : ReadsAs readString textOf (.string units) := by
  obtain ⟨text, rfl⟩ := wellFormedUtf16_iff.mp formed
  refine ⟨.string text, ?_, ?_⟩
  · rw [toJson, stringToText_eq_some.mpr rfl]
    rfl
  · simp [readString, textOf]

theorem wellFormed_of_toJson (sent : (toJson (.string units)).isSome) : WellFormedUtf16 units := by
  rw [toJson, Option.isSome_map] at sent
  obtain ⟨text, read⟩ := Option.isSome_iff_exists.mp sent
  exact wellFormedUtf16_iff.mpr ⟨text, stringToText_eq_some.mp read⟩

theorem readsAs_ipv4 (is : IsIpv4 value) : ReadsAs readString textOf value := by
  obtain ⟨text, numeric, rfl, read⟩ := is
  exact readsAs_string (wellFormedUtf16_iff.mpr ⟨_, (ipv4ToInt_eq_some read).2⟩)

theorem readsAs_list {α : Type} {read : Json → Option α} {conv : JsValue → α}
    (each : ∀ item ∈ items, ReadsAs read conv item) :
    ∃ json, toJson (.array items) = some json ∧ readList read json = some (items.map conv) := by
  have all : ∃ sent, itemsToJson items = some sent ∧ sent.mapM read = some (items.map conv) := by
    induction items with
    | nil => exact ⟨[], rfl, rfl⟩
    | cons item rest ih =>
      obtain ⟨sent, rest_sent, rest_read⟩ := ih fun other mem =>
        each other (List.mem_cons_of_mem _ mem)
      obtain ⟨json, item_sent, item_read⟩ := each item List.mem_cons_self
      refine ⟨json :: sent, ?_, ?_⟩
      · rw [itemsToJson, isOmitted_of_toJson item_sent, item_sent, rest_sent]
        rfl
      · rw [List.mapM_cons, item_read, rest_read]
        rfl
  obtain ⟨sent, items_sent, items_read⟩ := all
  exact ⟨.array sent, by rw [toJson, items_sent]; rfl, items_read⟩

theorem readsAs_ipv4Array (is : IsIpv4Array value) : ReadsAs (readList readString) textsOf value := by
  obtain ⟨items, rfl, _, each⟩ := is
  exact readsAs_list fun item mem => readsAs_ipv4 (each item mem)

theorem numberToJson_natCast {n : Nat} (small : n < 2 ^ 64) :
    numberToJson (.finite (n : ℚ)) = .number (.posInt n) := by
  have whole : (n : ℚ).isInt = true := rfl
  have high : (n : ℚ) < 2 ^ 64 := by exact_mod_cast small
  simp [numberToJson, whole, high]

theorem readsAs_leaseTime (is : IsLeaseTime value) : ReadsAs (readUnsigned 32) natOf value := by
  obtain ⟨seconds, rfl, _, most⟩ := is
  have bound : seconds ≤ 604800 := most
  refine ⟨.number (.posInt seconds), ?_, ?_⟩
  · rw [toJson, numberToJson_natCast (by omega)]
  · rw [readUnsigned, if_pos (by omega)]
    simp [natOf]

theorem readsAs_reservations {entries : List (JsString × JsValue)} (are : AreReservations entries) :
    ReadsAs readTextMap reservationsOf (.record entries) := by
  have all : ∃ sent, fieldsToJson entries = some sent ∧ ∀ map : TreeMap Text Text compare,
      sent.foldlM (fun map field => (readString field.2).map (map.insert field.1.toList)) map =
        some (entries.foldl (fun map entry => map.insert (decodeUtf16 entry.1) (textOf entry.2))
          map) := by
    have each := are.each
    clear are
    induction entries with
    | nil => exact ⟨[], rfl, fun map => rfl⟩
    | cons entry rest ih =>
      obtain ⟨sent, rest_sent, rest_read⟩ := ih fun other mem =>
        each other (List.mem_cons_of_mem _ mem)
      obtain ⟨canonical, ip⟩ := each entry List.mem_cons_self
      obtain ⟨mac, canonical⟩ := Option.isSome_iff_exists.mp canonical
      obtain ⟨text, _, units, _⟩ := canonicalMac_eq_some canonical
      obtain ⟨json, ip_sent, ip_read⟩ := readsAs_ipv4 ip
      obtain ⟨key, value⟩ := entry
      subst units
      have head : fieldToJson (encodeUtf16 text, value) = some (String.ofList text, json) := by
        rw [fieldToJson, stringToText_eq_some.mpr rfl, ip_sent]
      refine ⟨(String.ofList text, json) :: sent, ?_, fun map => ?_⟩
      · rw [fieldsToJson, head, rest_sent]
        simp [isOmitted_of_toJson ip_sent]
      · rw [List.foldlM_cons, ip_read]
        simpa using rest_read (map.insert text (textOf value))
  obtain ⟨sent, entries_sent, entries_read⟩ := all
  exact ⟨.object sent, by rw [toJson, entries_sent]; rfl, entries_read ∅⟩

theorem isValidSubOptionCode_eq {code : JsNumber} (valid : isValidSubOptionCode code = true) :
    ∃ n : Nat, code = .finite n ∧ 1 ≤ n ∧ n ≤ 254 := by
  cases code with
  | finite q =>
    simp only [isValidSubOptionCode, JsNumber.within, Bool.and_eq_true,
      decide_eq_true_eq] at valid
    obtain ⟨whole, low, high⟩ := valid
    have natural := natCast_of_isInt whole ((by decide : (0 : ℚ) ≤ 1).trans low)
    rw [← natural] at low high
    exact ⟨q.num.toNat, by rw [natural], by exact_mod_cast low, by exact_mod_cast high⟩
  | _ => simp [isValidSubOptionCode, JsNumber.isInteger] at valid

theorem knownKeys_of_known {known : List String} (keys : ∀ field ∈ sent, js field.1 ∈ fields.map (·.1))
    (all : ∀ field ∈ fields, field.1 ∈ known.map js) : knownKeys sent known = true := by
  refine List.all_eq_true.mpr fun field mem => ?_
  obtain ⟨source, inside, same⟩ := List.mem_map.mp (keys field mem)
  obtain ⟨key, isKnown, is⟩ := List.mem_map.mp (all source inside)
  rw [List.contains_iff_mem, ← js_injective (is.trans same)]
  exact isKnown

theorem readsAs_vendorOption {item : JsValue} {entry : DhcpVendorSpecificEntry} {bytes : List UInt8}
    (is : IsVendorOption item entry bytes) (nodup : item.DistinctKeys)
    (formed : WellFormedUtf16 entry.value) : ReadsAs readVendorOption vendorEntryOf item := by
  obtain ⟨fields, rfl, known, atCode, atValue⟩ := is.fields
  obtain ⟨code, isCode, -, high⟩ := isValidSubOptionCode_eq is.code
  obtain ⟨json, value_sent, value_read⟩ := readsAs_string formed
  rw [pushUnknownKeys_eq_nil] at known
  have code_sent : toJson (.number entry.subOption) = some (.number (.posInt code)) := by
    rw [toJson, isCode, numberToJson_natCast (by omega)]
  have each : ∀ field ∈ fields, (∃ key : String, field.1 = js key) ∧ (toJson field.2).isSome := by
    rintro ⟨units, value⟩ mem
    obtain ⟨key, isKey, rfl⟩ := List.mem_map.mp (known _ mem)
    refine ⟨⟨key, rfl⟩, ?_⟩
    have own := ownField_of_mem nodup.1 mem
    rcases List.mem_cons.mp isKey with rfl | second
    · rw [atCode] at own
      rw [← Option.some.inj own, code_sent]
      rfl
    · rw [List.mem_singleton.mp second, atValue] at own
      rw [← Option.some.inj own, value_sent]
      rfl
  obtain ⟨sent, fields_sent, lookup, keys⟩ := fieldsToJson_of_each each
  refine ⟨.object sent, by rw [toJson, fields_sent]; rfl, ?_⟩
  have codeBound : code < 2 ^ 63 := by omega
  have code_read : readI64 (.number (.posInt code)) = some (code : Int) := if_pos codeBound
  rw [isCode] at atCode code_sent
  simp [readVendorOption, knownKeys_of_known keys known, lookup, atCode, atValue, code_sent, value_sent,
    value_read, code_read, vendorEntryOf]

theorem readsAs_vendorOptions {value : List (DhcpVendorSpecificEntry × List UInt8)}
    (are : List.Forall₂ (fun item opt => IsVendorOption item opt.1 opt.2) items value)
    (nodup : itemsDistinct items) (formed : ∀ opt ∈ value, WellFormedUtf16 opt.1.value) :
    ReadsAs (readList readVendorOption) vendorEntriesOf (.array items) := by
  refine readsAs_list fun item mem => ?_
  obtain ⟨opt, inside, is⟩ := exists_of_forall₂ are mem
  exact readsAs_vendorOption is (distinctKeys_of_mem_items nodup mem) (formed _ inside)

def daemonConfig (fields : List (JsString × JsValue)) : DhcpConfig where
  rangeStart := (ownField fields "rangeStart").map textOf
  rangeEnd := (ownField fields "rangeEnd").map textOf
  subnet := (ownField fields "subnet").map textOf
  gateway := (ownField fields "gateway").map textOf
  dns := (ownField fields "dns").map textsOf
  leaseTimeSec := (ownField fields "leaseTimeSec").map natOf
  serverId := (ownField fields "serverId").map textOf
  broadcast := (ownField fields "broadcast").map textOf
  statics := (ownField fields "static").map reservationsOf
  bindAddress := (ownField fields "bindAddress").map textOf
  leaseStorePath := (ownField fields "leaseStorePath").map textOf
  bootFileName := (ownField fields "bootFileName").map textOf
  nextServer := (ownField fields "nextServer").map textOf
  tftpServerAddresses := (ownField fields "tftpServerAddresses").map textsOf
  vendorClassId := (ownField fields "vendorClassId").map textOf
  vendorSpecificOptions := (ownField fields "vendorSpecificOptions").map vendorEntriesOf

/-- No text that is passed on as it stands holds a lone surrogate. -/
structure SentWhole (fields : List (JsString × JsValue)) : Prop where
  texts : ∀ key ∈ ["leaseStorePath", "bootFileName", "vendorClassId"], ∀ units,
    ownField fields key = some (.string units) → WellFormedUtf16 units
  values : ∀ items, ownField fields "vendorSpecificOptions" = some (.array items) →
    ∀ item ∈ items, ∀ entry, item = .record entry → ∀ units,
      ownField entry "value" = some (.string units) → WellFormedUtf16 units

theorem readField_sent {α : Type} (lookup : ∀ key, sent.lookup key = (ownField fields key).bind toJson)
    {key : String}
    {read : Json → Option α} {conv : JsValue → α} (each : HasField fields key (ReadsAs read conv)) :
    readField sent key read = some ((ownField fields key).map conv) := by
  rw [readField, lookup]
  cases hit : ownField fields key with
  | none => rfl
  | some value =>
    obtain ⟨json, value_sent, value_read⟩ := each value hit
    simp [value_sent, value_read]

theorem readsAs_text (whole : SentWhole fields) {key : String}
    (passed : key ∈ ["leaseStorePath", "bootFileName", "vendorClassId"])
    (is : HasField fields key fun value => ∃ units, value = .string units) :
    HasField fields key (ReadsAs readString textOf) := by
  intro value hit
  obtain ⟨units, rfl⟩ := is value hit
  exact readsAs_string (whole.texts key passed units hit)

theorem toJson_accepted (ok : Accepted fields) (nodup : JsValue.DistinctKeys (.record fields))
    (whole : SentWhole fields) :
    ∃ json, toJson (.record fields) = some json ∧ readDhcpConfig json = some (daemonConfig fields) := by
  have addr : ∀ key ∈ addressKeys, HasField fields key (ReadsAs readString textOf) :=
    fun key isAddress value hit => readsAs_ipv4 (ok.addresses key isAddress value hit)
  simp only [addressKeys, List.forall_mem_cons] at addr
  obtain ⟨rangeStart, rangeEnd, gateway, serverId, broadcast, bindAddress, nextServer, subnet, _⟩ := addr
  have dns : HasField fields "dns" (ReadsAs (readList readString) textsOf) :=
    fun value hit => readsAs_ipv4Array (ok.dns value hit)
  have tftpServers : HasField fields "tftpServerAddresses" (ReadsAs (readList readString) textsOf) :=
    fun value hit => readsAs_ipv4Array (ok.tftpServerAddresses value hit)
  have leaseTime : HasField fields "leaseTimeSec" (ReadsAs (readUnsigned 32) natOf) :=
    fun value hit => readsAs_leaseTime (ok.leaseTimeSec value hit)
  have static : HasField fields "static" (ReadsAs readTextMap reservationsOf) := by
    intro value hit
    obtain ⟨entries, rfl, are⟩ := ok.static value hit
    exact readsAs_reservations are
  have leaseStore : HasField fields "leaseStorePath" (ReadsAs readString textOf) :=
    readsAs_text whole (by simp) fun value hit => by
      obtain ⟨units, is, _⟩ := ok.leaseStorePath value hit
      exact ⟨units, is⟩
  have bootFile : HasField fields "bootFileName" (ReadsAs readString textOf) :=
    readsAs_text whole (by simp) fun value hit => by
      obtain ⟨units, is, _⟩ := ok.bootFileName value hit
      exact ⟨units, is⟩
  have vendor : HasField fields "vendorClassId" (ReadsAs readString textOf) :=
    readsAs_text whole (by simp) fun value hit => by
      obtain ⟨units, is, _⟩ := ok.vendorClassId value hit
      exact ⟨units, is⟩
  have vendorOptions : HasField fields "vendorSpecificOptions"
      (ReadsAs (readList readVendorOption) vendorEntriesOf) := by
    intro value hit
    obtain ⟨items, rfl, opts, are, _⟩ := ok.vendorSpecificOptions value hit
    refine readsAs_vendorOptions are
      (distinctKeys_of_mem_fields nodup.2 (mem_of_ownField hit)) fun opt mem => ?_
    obtain ⟨item, inside, is⟩ := exists_of_forall₂_right are mem
    obtain ⟨entry, isRecord, _, _, atValue⟩ := is.fields
    exact whole.values items hit item inside entry isRecord _ atValue
  have each : ∀ field ∈ fields, (∃ key : String, field.1 = js key) ∧ (toJson field.2).isSome := by
    rintro ⟨units, value⟩ mem
    obtain ⟨key, isKey, rfl⟩ := List.mem_map.mp (ok.known _ mem)
    have own := ownField_of_mem nodup.1 mem
    refine ⟨⟨key, rfl⟩, ?_⟩
    have isSome : ∀ {α : Type} {read : Json → Option α} {conv : JsValue → α},
        HasField fields key (ReadsAs read conv) → (toJson value).isSome := fun reads => by
      obtain ⟨json, value_sent, _⟩ := reads value own
      rw [value_sent]
      rfl
    simp only [dhcpKeys, List.mem_cons, List.not_mem_nil, or_false] at isKey
    rcases isKey with rfl | rfl | rfl | rfl | rfl | rfl | rfl | rfl | rfl | rfl | rfl | rfl | rfl | rfl
      | rfl | rfl
    exacts [isSome rangeStart, isSome rangeEnd, isSome subnet, isSome gateway, isSome dns,
      isSome leaseTime, isSome serverId, isSome broadcast, isSome static, isSome bindAddress,
      isSome leaseStore, isSome bootFile, isSome nextServer, isSome tftpServers, isSome vendor,
      isSome vendorOptions]
  obtain ⟨sent, fields_sent, lookup, keys⟩ := fieldsToJson_of_each each
  refine ⟨.object sent, by rw [toJson, fields_sent]; rfl, ?_⟩
  have absent : ∀ key : String, key ∉ dhcpKeys → sent.lookup key = none := by
    intro key unknown
    rw [lookup]
    cases hit : ownField fields key with
    | none => rfl
    | some value =>
      obtain ⟨other, isKey, same⟩ := List.mem_map.mp (ok.known _ (mem_of_ownField hit))
      exact absurd (js_injective same ▸ isKey) unknown
  have port : readField sent "port" (readUnsigned 16) = some none := by
    rw [readField, absent "port" (by decide)]
  have relay : readField sent "allowRelayAgents" readBool = some none := by
    rw [readField, absent "allowRelayAgents" (by decide)]
  have known : knownKeys sent dhcpFields = true :=
    knownKeys_of_known keys fun field mem => by
      obtain ⟨key, isKey, is⟩ := List.mem_map.mp (ok.known field mem)
      have within : ∀ key ∈ dhcpKeys, key ∈ dhcpFields := by decide
      exact List.mem_map.mpr ⟨key, within key isKey, is⟩
  simp [readDhcpConfig, known, port, relay, readField_sent lookup rangeStart,
    readField_sent lookup rangeEnd, readField_sent lookup subnet, readField_sent lookup gateway,
    readField_sent lookup dns, readField_sent lookup leaseTime, readField_sent lookup serverId,
    readField_sent lookup broadcast, readField_sent lookup static, readField_sent lookup bindAddress,
    readField_sent lookup leaseStore, readField_sent lookup bootFile,
    readField_sent lookup nextServer, readField_sent lookup tftpServers,
    readField_sent lookup vendor, readField_sent lookup vendorOptions, daemonConfig]

theorem sentWhole_of_toJson {json : Json} (sent : toJson (.record fields) = some json) : SentWhole fields := by
  rw [toJson, Option.map_eq_some_iff] at sent
  obtain ⟨sent, fields_sent, _⟩ := sent
  have held : ∀ {key : String} {value : JsValue}, ownField fields key = some value →
      value.isOmitted = false → (toJson value).isSome :=
    fun hit kept => toJson_isSome_of_mem fields_sent (mem_of_ownField hit) kept
  refine ⟨fun key _ units hit => wellFormed_of_toJson (held hit rfl), ?_⟩
  rintro items hit _ inside entry rfl units atValue
  have array := held hit rfl
  rw [toJson, Option.isSome_map] at array
  have item := toJson_isSome_of_item array inside rfl
  rw [toJson, Option.isSome_map] at item
  obtain ⟨entry_sent, entry_fields⟩ := Option.isSome_iff_exists.mp item
  exact wellFormed_of_toJson (toJson_isSome_of_mem entry_fields (mem_of_ownField atValue) rfl)

end NexTerminal.Host
