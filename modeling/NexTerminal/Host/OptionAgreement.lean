import NexTerminal.Host.JsValue
import NexTerminal.Dhcp.Boot

/-! The host's option 43 and vendor class rules (`dhcpBootOptions.ts`). How a number
that is not a natural one is written, and how a string is lower-cased, is left open. -/

namespace NexTerminal.Host

open Library

def maxOptionValueBytes : Nat := 255

structure DhcpVendorSpecificEntry where
  subOption : JsNumber
  value : JsString

/-- Sub-option codes 0 (PAD) and 255 (END) cannot carry a value. -/
def isValidSubOptionCode (code : JsNumber) : Bool := code.isInteger && code.within 1 254

/-- `/^0x/i`. -/
def hasHexPrefix : JsString → Bool
  | zero :: x :: _ => zero == 0x30 && (x == 0x78 || x == 0x58)
  | _ => false

/-- `/[\s:_-]/`. -/
def isHexSeparator (u : UInt16) : Bool := isSpace u || u == 0x3A || u == 0x5F || u == 0x2D

/-- `/[0-9a-f]/i`. -/
def isHexDigit (u : UInt16) : Bool :=
  (0x30 ≤ u && u ≤ 0x39) || (0x61 ≤ u && u ≤ 0x66) || (0x41 ≤ u && u ≤ 0x46)

def hexDigitValue (u : UInt16) : Nat :=
  if u ≤ 0x39 then u.toNat - 0x30 else if 0x61 ≤ u then u.toNat - 0x61 + 10 else u.toNat - 0x41 + 10

/-- `Buffer.from(body, "hex")` of an even number of hex digits. -/
def bufferFromHex : JsString → List UInt8
  | high :: low :: rest => .ofNat (hexDigitValue high * 16 + hexDigitValue low) :: bufferFromHex rest
  | _ => []

def parseVendorOptionValue (raw : JsString) : Except JsString (List UInt8) :=
  if !hasHexPrefix raw then .ok (bufferFromUtf8 raw)
  else
    let body := (raw.drop 2).filter fun u => !isHexSeparator u
    if !body.all isHexDigit then
      .error (js "Invalid hex value \"" ++ raw
        ++ js "\": only 0-9 and a-f are allowed after the 0x prefix.")
    else if body.length % 2 ≠ 0 then
      .error (js "Invalid hex value \"" ++ raw ++ js "\": " ++ natText body.length
        ++ js " digits is not a whole number of bytes.")
    else .ok (bufferFromHex body)

section
variable (numberToString : JsNumber → JsString)

def encodeVendorEntry (entry : DhcpVendorSpecificEntry) : Except JsString (List UInt8) := do
  if !isValidSubOptionCode entry.subOption then
    throw (js "Invalid option 43 sub-option code " ++ numberToString entry.subOption
      ++ js ": expected an integer between 1 and 254 (0 is PAD, 255 is END).")
  let value ← parseVendorOptionValue entry.value
  if value.length > maxOptionValueBytes then
    throw (js "Option 43 sub-option " ++ numberToString entry.subOption ++ js " is "
      ++ natText value.length ++ js " bytes; the length field carries at most "
      ++ natText maxOptionValueBytes ++ js ".")
  let code := match entry.subOption with
    | .finite q => q.num.toNat
    | _ => 0
  return [.ofNat code, .ofNat value.length] ++ value

def encodeVendorSpecificInfo (entries : List DhcpVendorSpecificEntry) : Except JsString (List UInt8) := do
  let encoded := (← entries.mapM (encodeVendorEntry numberToString)).flatten
  if encoded.length > maxOptionValueBytes then
    throw (js "Option 43 payload is " ++ natText encoded.length
      ++ js " bytes; a single DHCP option carries at most " ++ natText maxOptionValueBytes
      ++ js ". Remove or shorten sub-options.")
  return encoded

end

/-- Decides whether the boot options apply to the client behind a request; an
observed value that is no string is `none`. -/
def matchesVendorClass (toLowerCase : JsString → JsString) (configured observed : Option JsString) : Bool :=
  match (configured.map trim).filter fun expected => !expected.isEmpty with
  | none => true
  | some expected =>
    match observed with
    | none => false
    | some observed => toLowerCase (trim observed) == toLowerCase expected

open Dhcp (Text Bytes VendorEntry isAsciiHexdigit isWhitespace)

/-- NEXT LINE, which only the daemon takes for white space. -/
def nel : Char := Char.ofNat 0x85

/-- The byte order mark, which only the host takes for white space. -/
def bom : Char := Char.ofNat 0xFEFF

/-- `isSpace` of a character; no surrogate is white space. -/
def isSpaceChar (c : Char) : Bool := decide (c.toNat < 0x10000) && isSpace (.ofNat c.toNat)

def isAnySpace (c : Char) : Bool := isWhitespace c || c == bom

/-- White space to a side that does not know one character. -/
def isSpaceBut (stray c : Char) : Bool := isAnySpace c && c != stray

theorem isWhitespace_eq : isWhitespace = isSpaceBut bom := by
  funext c
  have bomIs : bom.toNat = 0xFEFF := by decide
  rw [Bool.eq_iff_iff]
  simp only [isSpaceBut, isAnySpace, isWhitespace, Bool.or_eq_true, Bool.and_eq_true,
    decide_eq_true_eq, beq_iff_eq, bne_iff_ne, ne_eq, ← Char.toNat_inj]
  omega

theorem isSpaceChar_eq : isSpaceChar = isSpaceBut nel := by
  funext c
  have bomIs : bom.toNat = 0xFEFF := by decide
  have nelIs : nel.toNat = 0x85 := by decide
  rw [Bool.eq_iff_iff]
  by_cases small : c.toNat < 0x10000
  · have size : (UInt16.ofNat c.toNat).toNat = c.toNat := UInt16.toNat_ofNat_of_lt' small
    simp only [isSpaceChar, isSpace, isSpaceBut, isAnySpace, isWhitespace, Bool.or_eq_true,
      Bool.and_eq_true, decide_eq_true_eq, beq_iff_eq, bne_iff_ne, ne_eq, ← Char.toNat_inj]
    omega
  · simp only [isSpaceChar, isSpaceBut, isAnySpace, isWhitespace, Bool.or_eq_true,
      Bool.and_eq_true, decide_eq_true_eq, beq_iff_eq, ← Char.toNat_inj]
    omega

def isSeparator (c : Char) : Bool := c == ':' || c == '-' || c == '_'

def hexBody : Text → Option Text
  | '0' :: x :: body => if x = 'x' ∨ x = 'X' then some body else none
  | _ => none

/-- The bytes of an option value, with a given idea of white space. -/
def valueBytes (space : Char → Bool) (raw : Text) : Option Bytes :=
  match hexBody raw with
  | none => some (raw.flatMap String.utf8EncodeChar)
  | some body =>
    let digits := body.filter fun c => !(isSeparator c || space c)
    if digits.all isAsciiHexdigit && digits.length % 2 == 0 then some (Dhcp.hexBytes digits) else none

def entryBytes (space : Char → Bool) (entry : VendorEntry) : Option Bytes :=
  if Dhcp.isValidSubOptionCode entry.subOption then
    match valueBytes space entry.value with
    | none => none
    | some value =>
      if value.length ≤ 255 then some (.ofNat entry.subOption.toNat :: .ofNat value.length :: value)
      else none
  else none

def payload (space : Char → Bool) (entries : List VendorEntry) : Option Bytes :=
  match entries.mapM (entryBytes space) with
  | none => none
  | some parts => if parts.flatten.length ≤ 255 then some parts.flatten else none

def inLiteral (c : Char) (entries : List VendorEntry) : Bool :=
  entries.any fun entry => (hexBody entry.value).any fun body => body.contains c

section
variable {stray : Char} (odd : isAsciiHexdigit stray = false) (plain : isSeparator stray = false)
include odd plain

theorem valueBytes_isSpaceBut (raw : Text) :
    valueBytes (isSpaceBut stray) raw =
      if (hexBody raw).any fun body => body.contains stray then none
      else valueBytes isAnySpace raw := by
  cases literal : hexBody raw with
  | none => simp [valueBytes, literal]
  | some body =>
    by_cases holds : stray ∈ body
    · have kept : stray ∈ body.filter fun c => !(isSeparator c || isSpaceBut stray c) :=
        List.mem_filter.mpr ⟨holds, by simp [plain, isSpaceBut]⟩
      have bad : (body.filter fun c => !(isSeparator c || isSpaceBut stray c)).all
          isAsciiHexdigit = false := List.all_eq_false.mpr ⟨stray, kept, by simp [odd]⟩
      simp only [valueBytes, literal, bad, Bool.false_and, Option.any_some, List.contains_eq_mem,
        holds, decide_true, Bool.false_eq_true, if_false, if_true]
    · have same : body.filter (fun c => !(isSeparator c || isSpaceBut stray c)) =
          body.filter fun c => !(isSeparator c || isAnySpace c) := by
        refine List.filter_congr fun c mem => ?_
        have ne : (c != stray) = true := bne_iff_ne.mpr fun same => holds (same ▸ mem)
        rw [isSpaceBut, ne, Bool.and_true]
      simp only [valueBytes, literal, same, Option.any_some, List.contains_eq_mem, holds,
        decide_false, Bool.false_eq_true, if_false]

theorem entryBytes_isSpaceBut (entry : VendorEntry) :
    entryBytes (isSpaceBut stray) entry =
      if (hexBody entry.value).any fun body => body.contains stray then none
      else entryBytes isAnySpace entry := by
  rw [entryBytes, entryBytes, valueBytes_isSpaceBut odd plain]
  cases (hexBody entry.value).any fun body => body.contains stray with
  | true | false => simp

omit odd plain in
theorem inLiteral_cons (entry : VendorEntry) (rest : List VendorEntry) :
    inLiteral stray (entry :: rest) =
      (((hexBody entry.value).any fun body => body.contains stray) || inLiteral stray rest) := rfl

theorem payload_isSpaceBut (entries : List VendorEntry) :
    payload (isSpaceBut stray) entries =
      if inLiteral stray entries then none else payload isAnySpace entries := by
  have parts : entries.mapM (entryBytes (isSpaceBut stray)) =
      if inLiteral stray entries then none else entries.mapM (entryBytes isAnySpace) := by
    induction entries with
    | nil => rfl
    | cons entry rest ih =>
      rw [List.mapM_cons, List.mapM_cons, ih, entryBytes_isSpaceBut odd plain, inLiteral_cons]
      cases (hexBody entry.value).any fun body => body.contains stray with
      | true => rfl
      | false =>
        cases inLiteral stray rest with
        | true => cases entryBytes isAnySpace entry <;> rfl
        | false => rfl
  rw [payload, payload, parts]
  cases inLiteral stray entries <;> rfl

end

theorem payload_agree (entries : List VendorEntry) :
    payload (isSpaceBut nel) entries = payload (isSpaceBut bom) entries ↔
      ((payload isAnySpace entries).isSome → inLiteral nel entries = inLiteral bom entries) := by
  rw [payload_isSpaceBut (by decide) (by decide), payload_isSpaceBut (by decide) (by decide)]
  cases inLiteral nel entries <;> cases inLiteral bom entries <;>
    cases payload isAnySpace entries <;> simp

theorem hexBody_plain {raw : Text} (other : ∀ (x : Char) (body : Text), raw = '0' :: x :: body → False) :
    hexBody raw = none := by
  unfold hexBody
  split
  · exact absurd rfl (other _ _)
  · rfl

theorem parseVendorOptionValue_daemon (raw : Text) :
    (Dhcp.parseVendorOptionValue raw).toOption = valueBytes isWhitespace raw := by
  unfold Dhcp.parseVendorOptionValue valueBytes
  split
  · rename_i x body
    rw [hexBody]
    by_cases prefixed : x = 'x' ∨ x = 'X'
    · have digits : (body.filter fun c =>
          !(c == ':' || c == '-' || c == '_') && !isWhitespace c) =
          body.filter fun c => !(isSeparator c || isWhitespace c) :=
        List.filter_congr fun c _ => by simp [isSeparator]
      simp only [if_pos prefixed, digits]
      generalize (body.filter fun c => !(isSeparator c || isWhitespace c)) = digits
      cases hex : digits.all isAsciiHexdigit with
      | false => rfl
      | true =>
        by_cases odd : digits.length % 2 = 1
        · simp [odd, Except.toOption]
        · have even : digits.length % 2 = 0 := by omega
          simp [even, Except.toOption]
    · simp only [if_neg prefixed]
      rfl
  · rename_i other
    rw [hexBody_plain other]
    rfl

theorem encodeVendorEntry_daemon (entry : VendorEntry) :
    (Dhcp.encodeVendorEntry entry).toOption = entryBytes isWhitespace entry := by
  rw [entryBytes, ← parseVendorOptionValue_daemon, Dhcp.encodeVendorEntry]
  cases Dhcp.isValidSubOptionCode entry.subOption with
  | false => rfl
  | true =>
    cases Dhcp.parseVendorOptionValue entry.value with
    | error error => rfl
    | ok value =>
      change Except.toOption (if value.length > 255 then _ else _) = ite (value.length ≤ 255) _ _
      by_cases long : value.length > 255
      · rw [if_pos long, if_neg (by omega)]; rfl
      · rw [if_neg long, if_pos (by omega)]; rfl

theorem encodeVendorSpecificInfo_daemon (entries : List VendorEntry) :
    (Dhcp.encodeVendorSpecificInfo entries).toOption = payload isWhitespace entries := by
  rw [payload, Dhcp.encodeVendorSpecificInfo, toOption_bind, toOption_mapM]
  simp only [encodeVendorEntry_daemon]
  cases entries.mapM (entryBytes isWhitespace) with
  | none => rfl
  | some parts =>
    change Except.toOption (if parts.flatten.length > 255 then _ else _) = ite (parts.flatten.length ≤ 255) _ _
    by_cases long : parts.flatten.length > 255
    · rw [if_pos long, if_neg (by omega)]; rfl
    · rw [if_neg long, if_pos (by omega)]; rfl

def asHost (entry : VendorEntry) : DhcpVendorSpecificEntry :=
  ⟨.finite entry.subOption, encodeUtf16 entry.value⟩

theorem surrogate_range {u : UInt16} (is : isSurrogate u = true) : 0xD800 ≤ u.toNat ∧ u.toNat < 0xE000 := by
  simp only [isSurrogate, Bool.and_eq_true, decide_eq_true_eq] at is
  exact is

theorem isAsciiHexdigit_iff (c : Char) : isAsciiHexdigit c = true ↔
    (0x30 ≤ c.toNat ∧ c.toNat ≤ 0x39) ∨ (0x61 ≤ c.toNat ∧ c.toNat ≤ 0x66) ∨
      (0x41 ≤ c.toNat ∧ c.toNat ≤ 0x46) := by
  simp only [isAsciiHexdigit, Char.isDigit, Bool.or_eq_true, Bool.and_eq_true, decide_eq_true_eq,
    or_assoc]
  exact Iff.rfl

theorem isHexDigit_iff (u : UInt16) : isHexDigit u = true ↔
    (0x30 ≤ u.toNat ∧ u.toNat ≤ 0x39) ∨ (0x61 ≤ u.toNat ∧ u.toNat ≤ 0x66) ∨
      (0x41 ≤ u.toNat ∧ u.toNat ≤ 0x46) := by
  simp only [isHexDigit, Bool.or_eq_true, Bool.and_eq_true, decide_eq_true_eq, or_assoc]
  exact Iff.rfl

theorem unitTest_hexDigit : UnitTest isHexDigit isAsciiHexdigit where
  basic c small := by
    rw [Bool.eq_iff_iff, isHexDigit_iff, isAsciiHexdigit_iff, UInt16.toNat_ofNat_of_lt' small]
  astral c large := by
    rw [Bool.eq_false_iff, Ne, isAsciiHexdigit_iff]
    omega
  surrogate u is := by
    have range := surrogate_range is
    rw [Bool.eq_false_iff, Ne, isHexDigit_iff]
    omega

theorem unitTest_space : UnitTest isSpace isSpaceChar where
  basic c small := by
    rw [isSpaceChar, decide_eq_true small, Bool.true_and]
  astral c large := by
    rw [isSpaceChar, decide_eq_false large, Bool.false_and]
  surrogate u is := by
    have range := surrogate_range is
    simp only [isSpace, Bool.or_eq_false_iff, Bool.and_eq_false_iff, decide_eq_false_iff_not, beq_eq_false_iff_ne]
    omega

theorem unitTest_separator :
    UnitTest isHexSeparator fun c => isSeparator c || isSpaceChar c where
  basic c small := by
    have size : (UInt16.ofNat c.toNat).toNat = c.toNat := UInt16.toNat_ofNat_of_lt' small
    rw [Bool.eq_iff_iff]
    simp only [isHexSeparator, isSeparator, unitTest_space.basic c small, Bool.or_eq_true,
      beq_iff_eq, ← UInt16.toNat_inj, size, ← Char.toNat_inj]
    tauto
  astral c large := by
    have space := unitTest_space.astral c large
    simp only [isSeparator, space, Bool.or_false, Bool.or_eq_false_iff, beq_eq_false_iff_ne,
      ne_eq, ← Char.toNat_inj]
    change (¬ c.toNat = 58 ∧ ¬ c.toNat = 45) ∧ ¬ c.toNat = 95
    omega
  surrogate u is := by
    have range := surrogate_range is
    have space := unitTest_space.surrogate u is
    simp only [isHexSeparator, space, Bool.false_or, Bool.or_eq_false_iff, beq_eq_false_iff_ne,
      ne_eq, ← UInt16.toNat_inj]
    change (¬ u.toNat = 58 ∧ ¬ u.toNat = 95) ∧ ¬ u.toNat = 45
    omega
theorem hexDigitValue_ofNat {c : Char} (hex : isAsciiHexdigit c = true) :
    hexDigitValue (.ofNat c.toNat) = Dhcp.hexValue c := by
  rw [isAsciiHexdigit_iff] at hex
  have size : (UInt16.ofNat c.toNat).toNat = c.toNat :=
    UInt16.toNat_ofNat_of_lt' (by simp only [UInt16.size]; omega)
  simp only [hexDigitValue, Dhcp.hexValue, Char.isDigit, Bool.and_eq_true, decide_eq_true_eq,
    UInt16.le_iff_toNat_le, size]
  change ite (c.toNat ≤ 57) (c.toNat - 48) (ite (97 ≤ c.toNat) _ _) =
    ite (48 ≤ c.toNat ∧ c.toNat ≤ 57) (c.toNat - 48)
      (ite (97 ≤ c.toNat) (c.toNat - 97 + 10) (c.toNat - 65 + 10))
  grind

theorem bufferFromHex_encodeUtf16 {digits : Text} (hex : digits.all isAsciiHexdigit = true) :
    bufferFromHex (encodeUtf16 digits) = Dhcp.hexBytes digits ∧ (encodeUtf16 digits).length = digits.length := by
  rw [List.all_eq_true] at hex
  have basic : ∀ c ∈ digits, c.toNat < 0x10000 := fun c mem => by
    have range := (isAsciiHexdigit_iff c).mp (hex c mem)
    omega
  rw [encodeUtf16_basic basic]
  refine ⟨?_, List.length_map _⟩
  fun_induction Dhcp.hexBytes digits with
  | case1 high low rest ih =>
    rw [List.map_cons, List.map_cons, bufferFromHex, hexDigitValue_ofNat (hex high (by simp)),
      hexDigitValue_ofNat (hex low (by simp)), ih (fun c mem => hex c (by simp [mem]))
        fun c mem => basic c (by simp [mem])]
  | case2 digits short =>
    match digits with
    | [] | [_] => rfl
    | high :: low :: rest => exact absurd rfl (short high low rest)

theorem hexBody_eq_some {raw body : Text} (literal : hexBody raw = some body) :
    ∃ x, (x = 'x' ∨ x = 'X') ∧ raw = '0' :: x :: body := by
  unfold hexBody at literal
  split at literal
  · rename_i x rest
    split at literal
    · rename_i prefixed
      exact ⟨x, prefixed, by rw [Option.some.inj literal]⟩
    · cases literal
  · cases literal

theorem hasHexPrefix_encodeUtf16 (raw : Text) : hasHexPrefix (encodeUtf16 raw) = (hexBody raw).isSome := by
  cases literal : hexBody raw with
  | some body =>
    obtain ⟨x, rfl | rfl, rfl⟩ := hexBody_eq_some literal <;> rfl
  | none =>
    cases prefixed : hasHexPrefix (encodeUtf16 raw) with
    | false => rfl
    | true =>
      -- Reading the units back, the text starts with the prefix after all.
      unfold hasHexPrefix at prefixed
      split at prefixed
      · rename_i zero x rest units
        simp only [Bool.and_eq_true, Bool.or_eq_true, beq_iff_eq] at prefixed
        have back := decodeUtf16_encodeUtf16 raw
        rw [units] at back
        obtain ⟨rfl, rfl | rfl⟩ := prefixed
        all_goals
          rw [decodeUtf16_cons (by decide), decodeUtf16_cons (by decide)] at back
          rw [← back] at literal
          cases literal
      · cases prefixed

theorem parseVendorOptionValue_host (raw : Text) :
    (parseVendorOptionValue (encodeUtf16 raw)).toOption = valueBytes isSpaceChar raw := by
  rw [parseVendorOptionValue, hasHexPrefix_encodeUtf16, valueBytes]
  cases literal : hexBody raw with
  | none =>
    simp [bufferFromUtf8, Except.toOption]
  | some body =>
    obtain ⟨x, prefixed, rfl⟩ := hexBody_eq_some literal
    have tail : (encodeUtf16 ('0' :: x :: body)).drop 2 = encodeUtf16 body := by
      obtain rfl | rfl := prefixed <;> rfl
    simp only [tail,
      unitTest_separator.filterNot, unitTest_hexDigit.all]
    generalize (body.filter fun c => !(isSeparator c || isSpaceChar c)) = digits
    cases hex : digits.all isAsciiHexdigit with
    | false => rfl
    | true =>
      obtain ⟨bytes, len⟩ := bufferFromHex_encodeUtf16 hex
      rw [bytes, len]
      by_cases even : digits.length % 2 = 0
      · simp [even, Except.toOption]
      · have odd : digits.length % 2 = 1 := by omega
        simp [odd, Except.toOption]

theorem isValidSubOptionCode_host (code : Int) :
    isValidSubOptionCode (.finite code) = Dhcp.isValidSubOptionCode code := by
  have whole : JsNumber.isInteger (.finite code) = true := rfl
  have low : (1 : ℚ) ≤ code ↔ 1 ≤ code := by exact_mod_cast Iff.rfl
  have high : (code : ℚ) ≤ 254 ↔ code ≤ 254 := by exact_mod_cast Iff.rfl
  simp [isValidSubOptionCode, whole, JsNumber.within, low, high, Dhcp.isValidSubOptionCode]

section
variable (numberToString : JsNumber → JsString)

theorem encodeVendorEntry_host (entry : VendorEntry) :
    (encodeVendorEntry numberToString (asHost entry)).toOption = entryBytes isSpaceChar entry := by
  rw [entryBytes, ← parseVendorOptionValue_host, encodeVendorEntry, asHost, isValidSubOptionCode_host]
  cases Dhcp.isValidSubOptionCode entry.subOption with
  | false => rfl
  | true =>
    cases parseVendorOptionValue (encodeUtf16 entry.value) with
    | error error => rfl
    | ok value =>
      change Except.toOption (if value.length > 255 then _ else _) = ite (value.length ≤ 255) _ _
      by_cases long : value.length > 255
      · rw [if_pos long, if_neg (by omega)]; rfl
      · rw [if_neg long, if_pos (by omega)]; rfl

/-- What the host makes of vendor options is the payload for its own white space. -/
theorem encodeVendorSpecificInfo_host (entries : List VendorEntry) :
    (encodeVendorSpecificInfo numberToString (entries.map asHost)).toOption = payload isSpaceChar entries := by
  rw [payload, encodeVendorSpecificInfo, toOption_bind, toOption_mapM, List.mapM_map]
  simp only [Function.comp_def, encodeVendorEntry_host]
  cases entries.mapM (entryBytes isSpaceChar) with
  | none => rfl
  | some parts =>
    change Except.toOption (if parts.flatten.length > 255 then _ else _) = ite (parts.flatten.length ≤ 255) _ _
    by_cases long : parts.flatten.length > 255
    · rw [if_pos long, if_neg (by omega)]; rfl
    · rw [if_neg long, if_pos (by omega)]; rfl

end

end NexTerminal.Host
