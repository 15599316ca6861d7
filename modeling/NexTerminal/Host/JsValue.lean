import NexTerminal.Library.Json
import NexTerminal.Library.Utf16

/-! JavaScript values as the host's validators see them. A record is a plain object
with its own enumerable fields; accessors and proxies are left out. -/

namespace NexTerminal.Host

open Library

/-- A JavaScript string: UTF-16 code units, lone surrogates included. -/
abbrev JsString := List UInt16

def js (text : String) : JsString := encodeUtf16 text.toList

/-- `${n}` of a whole number that is not negative. -/
def natText (n : Nat) : JsString := js (toString n)

/-- `Buffer.byteLength(value, "utf8")`. -/
def utf8Bytes (value : JsString) : Nat := byteLen (decodeUtf16 value)

/-- `Buffer.from(value, "utf8")`. -/
def bufferFromUtf8 (value : JsString) : List UInt8 := (decodeUtf16 value).flatMap String.utf8EncodeChar

/-- White space and line terminators: what `trim` drops and `\s` matches. -/
def isSpace (u : UInt16) : Bool :=
  let n := u.toNat
  (0x09 ≤ n && n ≤ 0x0D) || n == 0x20 || n == 0xA0 || n == 0x1680 || (0x2000 ≤ n && n ≤ 0x200A)
    || n == 0x2028 || n == 0x2029 || n == 0x202F || n == 0x205F || n == 0x3000 || n == 0xFEFF

/-- `String.prototype.trim`. -/
def trim (value : JsString) : JsString := trimWith isSpace value

def asciiLowerUnit (u : UInt16) : UInt16 := if 0x41 ≤ u && u ≤ 0x5A then u + 32 else u

/-- `toLowerCase` of a string of ASCII characters. -/
def asciiLower (value : JsString) : JsString := value.map asciiLowerUnit

inductive JsNumber
  | finite (q : ℚ)
  | nan
  | infinity
  | negInfinity

def JsNumber.isInteger : JsNumber → Bool
  | .finite q => q.isInt
  | _ => false

/-- `Number.MAX_SAFE_INTEGER`. -/
def maxSafeInteger : Nat := 2 ^ 53 - 1

def JsNumber.isSafeInteger : JsNumber → Bool
  | .finite q => q.isInt && decide (|q| ≤ maxSafeInteger)
  | _ => false

theorem natCast_of_isInt {q : ℚ} (whole : q.isInt = true) (positive : 0 ≤ q) : ((q.num.toNat : ℕ) : ℚ) = q := by
  have integer : (q.num : ℚ) = q := (Rat.den_eq_one_iff q).mp (by simpa [Rat.isInt] using whole)
  have cast : ((q.num.toNat : ℕ) : ℤ) = q.num := Int.toNat_of_nonneg (Rat.num_nonneg.mpr positive)
  calc ((q.num.toNat : ℕ) : ℚ) = ((q.num.toNat : ℤ) : ℚ) := (Int.cast_natCast _).symm
    _ = (q.num : ℚ) := by rw [cast]
    _ = q := integer

/-- `minimum <= value && value <= maximum`. -/
def JsNumber.within (minimum maximum : ℚ) : JsNumber → Bool
  | .finite q => decide (minimum ≤ q) && decide (q ≤ maximum)
  | _ => false

/-- What `typeof` and the default branch tell apart among the other values. -/
inductive JsExotic
  | bigint
  | symbol
  | function
  /-- An object that is neither an array nor a plain record. -/
  | object

inductive JsValue
  | undefined
  | null
  | boolean (b : Bool)
  | number (n : JsNumber)
  | string (text : JsString)
  | array (items : List JsValue)
  | record (fields : List (JsString × JsValue))
  | exotic (kind : JsExotic)

mutual

/-- Every record names each of its fields once, as an object of the language does. -/
def JsValue.DistinctKeys : JsValue → Prop
  | .array items => itemsDistinct items
  | .record fields => (fields.map (·.1)).Nodup ∧ fieldsDistinct fields
  | _ => True

def itemsDistinct : List JsValue → Prop
  | [] => True
  | item :: rest => item.DistinctKeys ∧ itemsDistinct rest

def fieldDistinct : JsString × JsValue → Prop
  | (_, value) => value.DistinctKeys

def fieldsDistinct : List (JsString × JsValue) → Prop
  | [] => True
  | field :: rest => fieldDistinct field ∧ fieldsDistinct rest

end

theorem distinctKeys_of_mem_items {items : List JsValue} (nodup : itemsDistinct items)
    {item : JsValue} (mem : item ∈ items) : item.DistinctKeys := by
  induction items with
  | nil => cases mem
  | cons first rest ih =>
    rcases List.mem_cons.mp mem with rfl | inside
    · exact nodup.1
    · exact ih nodup.2 inside

variable {fields : List (JsString × JsValue)}

theorem distinctKeys_of_mem_fields (nodup : fieldsDistinct fields) {field : JsString × JsValue}
    (mem : field ∈ fields) : field.2.DistinctKeys := by
  induction fields with
  | nil => cases mem
  | cons first rest ih =>
    rcases List.mem_cons.mp mem with rfl | inside
    · obtain ⟨units, value⟩ := field
      exact nodup.1
    · exact ih nodup.2 inside

def ownField (fields : List (JsString × JsValue)) (key : String) : Option JsValue := fields.lookup (js key)

theorem mem_of_ownField {key : String} {value : JsValue} (hit : ownField fields key = some value) :
    (js key, value) ∈ fields := by
  obtain ⟨pre, after, whole, _⟩ := List.lookup_eq_some_iff.mp hit
  rw [whole]
  simp

theorem ownField_of_mem (nodup : (fields.map (·.1)).Nodup) {key : String} {value : JsValue}
    (mem : (js key, value) ∈ fields) : ownField fields key = some value := by
  induction fields with
  | nil => cases mem
  | cons first rest ih =>
    obtain ⟨fresh, nodup⟩ := List.nodup_cons.mp nodup
    rw [ownField, List.lookup_cons]
    rcases List.mem_cons.mp mem with rfl | inside
    · simp
    · have ne : js key ≠ first.1 := fun same =>
        fresh (List.mem_map.mpr ⟨_, inside, same⟩)
      rw [beq_eq_false_iff_ne.mpr ne]
      exact ih nodup inside

/-- What a validator hands back: a value, or none, and the errors it pushed. -/
structure Report (α : Type) where
  value : Option α := none
  errors : List JsString := []

namespace Report
variable {α β : Type}

def ok (value : α) : Report α := { value := some value }

def fail (error : JsString) : Report α := { errors := [error] }

def ofField (fields : List (JsString × JsValue)) (key : String) (parse : JsValue → Report α) : Report α :=
  match ownField fields key with
  | none => {}
  | some value => parse value

end Report

/-- A whole number is written with its digits; the daemon keeps it as an integer when
64 bits hold it. -/
def numberToJson : JsNumber → Json
  | .finite q =>
    if q.isInt && decide (0 ≤ q) && decide (q < 2 ^ 64) then .number (.posInt q.num.toNat)
    else if q.isInt && decide (q < 0) && decide (-2 ^ 63 ≤ q) then .number (.negInt q.num)
    else .number (.float q)
  | _ => .null

def stringToText (text : JsString) : Option (List Char) :=
  if WellFormedUtf16 text then some (decodeUtf16 text) else none

/-- `JSON.stringify` leaves it out of a record and writes `null` for it in an array. -/
def JsValue.isOmitted : JsValue → Bool
  | .undefined | .exotic .symbol | .exotic .function => true
  | _ => false

mutual

def toJson : JsValue → Option Json
  | .null => some .null
  | .boolean b => some (.bool b)
  | .number n => some (numberToJson n)
  | .string text => (stringToText text).map .string
  | .array items => (itemsToJson items).map .array
  | .record fields => (fieldsToJson fields).map .object
  | .undefined => none
  | .exotic _ => none

def itemsToJson : List JsValue → Option (List Json)
  | [] => some []
  | item :: rest =>
    match (if item.isOmitted then some .null else toJson item), itemsToJson rest with
    | some item, some rest => some (item :: rest)
    | _, _ => none

def fieldToJson : JsString × JsValue → Option (String × Json)
  | (key, value) =>
    match stringToText key, toJson value with
    | some key, some value => some (String.ofList key, value)
    | _, _ => none

def fieldsToJson : List (JsString × JsValue) → Option (List (String × Json))
  | [] => some []
  | field :: rest =>
    match fieldToJson field, fieldsToJson rest with
    | some field', some rest' => if field.2.isOmitted then some rest' else some (field' :: rest')
    | none, some rest' => if field.2.isOmitted then some rest' else none
    | _, none => none

end

def numberFromJson : JsonNumber → ℚ
  | .posInt n => f64OfNat n
  | .negInt i => -(f64OfNat i.natAbs : ℚ)
  | .float q => q

mutual

def fromJson : Json → JsValue
  | .null => .null
  | .bool b => .boolean b
  | .number n => .number (.finite (numberFromJson n))
  | .string text => .string (encodeUtf16 text)
  | .array items => .array (itemsFromJson items)
  | .object fields => .record (fieldsFromJson fields)

def itemsFromJson : List Json → List JsValue
  | [] => []
  | item :: rest => fromJson item :: itemsFromJson rest

def fieldFromJson : String × Json → JsString × JsValue
  | (key, value) => (js key, fromJson value)

def fieldsFromJson : List (String × Json) → List (JsString × JsValue)
  | [] => []
  | field :: rest => fieldFromJson field :: fieldsFromJson rest

end

theorem itemsFromJson_eq (items : List Json) : itemsFromJson items = items.map fromJson := by
  induction items with
  | nil => rw [itemsFromJson, List.map_nil]
  | cons item rest ih => rw [itemsFromJson, ih, List.map_cons]

theorem js_injective {a b : String} (same : js a = js b) : a = b :=
  String.toList_inj.mp (encodeUtf16_injective same)

theorem ownField_fromJson (fields : List (String × Json)) (key : String) :
    ownField (fieldsFromJson fields) key = (fields.lookup key).map fromJson := by
  unfold ownField
  induction fields with
  | nil => rfl
  | cons field rest ih =>
    obtain ⟨name, -⟩ := field
    rw [fieldsFromJson, fieldFromJson, List.lookup_cons, List.lookup_cons, ih]
    by_cases same : key = name
    · rw [same]
      simp
    · rw [beq_eq_false_iff_ne.mpr fun units => same (js_injective units), beq_eq_false_iff_ne.mpr same]

end NexTerminal.Host
