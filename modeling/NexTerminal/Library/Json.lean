import Mathlib.Algebra.Order.Floor.Ring
import Mathlib.Data.Rat.Floor
import NexTerminal.Library.Text

namespace NexTerminal.Library

inductive JsonNumber
  | posInt (n : Nat)
  | negInt (i : Int)
  | float (q : ℚ)

/-- Objects list their fields in key order, as a map printed in order does. -/
inductive Json
  | null
  | bool (b : Bool)
  | number (n : JsonNumber)
  | string (text : List Char)
  | array (items : List Json)
  | object (fields : List (String × Json))

def f64OfNat (n : Nat) : Nat :=
  if n < 2 ^ 53 then n
  else
    let shift := Nat.log2 n - 52
    let kept := n / 2 ^ shift
    let dropped := n % 2 ^ shift
    let half := 2 ^ (shift - 1)
    if half < dropped ∨ (dropped = half ∧ kept % 2 = 1) then (kept + 1) * 2 ^ shift
    else kept * 2 ^ shift

theorem f64OfNat_exact {n : Nat} (small : n < 2 ^ 53) : f64OfNat n = n := if_pos small

namespace Json

def get (value : Json) (key : String) : Option Json :=
  match value with
  | .object fields => fields.lookup key
  | _ => none

def asStr : Json → Option (List Char)
  | .string text => some text
  | _ => none

def asArray : Json → Option (List Json)
  | .array items => some items
  | _ => none

def asU64 : Json → Option Nat
  | .number (.posInt n) => some n
  | _ => none

def asF64 : Json → Option ℚ
  | .number (.posInt n) => some (f64OfNat n)
  | .number (.negInt i) => some (-(f64OfNat i.natAbs : ℚ))
  | .number (.float q) => some q
  | _ => none

def hexDigits : List Char := "0123456789abcdef".toList

def escapeChar (c : Char) : List Char :=
  if c = '"' then ['\\', '"']
  else if c = '\\' then ['\\', '\\']
  else if c.toNat = 0x08 then ['\\', 'b']
  else if c.toNat = 0x0C then ['\\', 'f']
  else if c.toNat = 0x0A then ['\\', 'n']
  else if c.toNat = 0x0D then ['\\', 'r']
  else if c.toNat = 0x09 then ['\\', 't']
  else if c.toNat < 0x20 then
    ['\\', 'u', '0', '0', hexDigits[c.toNat / 16]?.getD '0', hexDigits[c.toNat % 16]?.getD '0']
  else [c]

def printString (text : List Char) : List Char := '"' :: text.flatMap escapeChar ++ ['"']

def printNumber (printFloat : ℚ → List Char) : JsonNumber → List Char
  | .posInt n => Nat.toDigits 10 n
  | .negInt i => '-' :: Nat.toDigits 10 i.natAbs
  | .float q => printFloat q

def newline (level : Nat) : List Char := '\n' :: List.replicate (2 * level) ' '

/-- The body of a non-empty array or object: one line an element. -/
def printLines (level : Nat) (lines : List (List Char)) : List Char :=
  List.intercalate [','] (lines.map fun line => newline (level + 1) ++ line) ++ newline level

/-- `serde_json::to_string_pretty`, started at an indentation level. How a float
is printed is left open. -/
def toStringPretty (printFloat : ℚ → List Char) (level : Nat) : Json → List Char
  | .null => "null".toList
  | .bool b => if b then "true".toList else "false".toList
  | .number n => printNumber printFloat n
  | .string text => printString text
  | .array items =>
    if items.isEmpty then "[]".toList
    else
      let lines := items.attach.map fun ⟨item, _⟩ => item.toStringPretty printFloat (level + 1)
      '[' :: printLines level lines ++ [']']
  | .object fields =>
    if fields.isEmpty then "{}".toList
    else
      let lines := fields.attach.map fun ⟨field, _⟩ =>
        printString field.1.toList ++ ": ".toList ++ field.2.toStringPretty printFloat (level + 1)
      '\x7b' :: printLines level lines ++ ['\x7d']
termination_by value => sizeOf value
decreasing_by
  · have := List.sizeOf_lt_of_mem ‹_›
    simp only [Json.array.sizeOf_spec]; omega
  · obtain ⟨key, item⟩ := field
    have := List.sizeOf_lt_of_mem ‹_›
    simp only [Json.object.sizeOf_spec]
    simp only [Prod.mk.sizeOf_spec] at this
    omega

mutual

/-- `serde_json::to_string`: no space between tokens. -/
def toStringCompact (printFloat : ℚ → List Char) : Json → List Char
  | .null => "null".toList
  | .bool b => if b then "true".toList else "false".toList
  | .number n => printNumber printFloat n
  | .string text => printString text
  | .array items => '[' :: List.intercalate [','] (itemsCompact printFloat items) ++ [']']
  | .object fields => '\x7b' :: List.intercalate [','] (fieldsCompact printFloat fields) ++ ['\x7d']

def itemsCompact (printFloat : ℚ → List Char) : List Json → List (List Char)
  | [] => []
  | item :: rest => item.toStringCompact printFloat :: itemsCompact printFloat rest

def fieldCompact (printFloat : ℚ → List Char) : String × Json → List Char
  | (key, value) => printString key.toList ++ [':'] ++ value.toStringCompact printFloat

def fieldsCompact (printFloat : ℚ → List Char) : List (String × Json) → List (List Char)
  | [] => []
  | field :: rest => fieldCompact printFloat field :: fieldsCompact printFloat rest

end

variable {printFloat : ℚ → List Char} {level : Nat}

theorem toStringPretty_array {items : List Json} (ne : items ≠ []) :
    (Json.array items).toStringPretty printFloat level =
      '[' :: printLines level (items.map fun item => item.toStringPretty printFloat (level + 1))
        ++ [']'] := by
  rw [toStringPretty, if_neg (by simpa using ne)]
  simp

theorem toStringPretty_object {fields : List (String × Json)} (ne : fields ≠ []) :
    (Json.object fields).toStringPretty printFloat level =
      '\x7b' :: printLines level (fields.map fun field =>
        printString field.1.toList ++ ": ".toList ++ field.2.toStringPretty printFloat (level + 1))
        ++ ['\x7d'] := by
  rw [toStringPretty, if_neg (by simpa using ne)]
  simp only [List.map_subtype, List.unattach_attach]

theorem byteLen_newline (level : Nat) : byteLen (newline level) = 2 * level + 1 := by
  have space : ' '.utf8Size = 1 := by decide
  have feed : '\n'.utf8Size = 1 := by decide
  rw [newline, byteLen_cons, byteLen_replicate, space, feed]
  omega

theorem byteLen_printLines (level : Nat) (lines : List (List Char)) :
    byteLen (printLines level lines) ≤
      (lines.map fun line => byteLen line + 2 * level + 4).sum + 2 * level + 1 := by
  have comma : ','.utf8Size = 1 := by decide
  have joined := byteLen_intercalate ',' (lines.map fun line => newline (level + 1) ++ line)
  have total : ((lines.map fun line => newline (level + 1) ++ line).map byteLen).sum + lines.length =
      (lines.map fun line => byteLen line + 2 * level + 4).sum := by
    clear joined
    induction lines with
    | nil => rfl
    | cons line rest ih =>
      simp only [List.map_cons, List.sum_cons, List.length_cons, byteLen_append, byteLen_newline] at *
      omega
  rw [comma, List.length_map] at joined
  rw [printLines, byteLen_append, byteLen_newline]
  omega

theorem byteLen_array_le (printFloat : ℚ → List Char) (level : Nat) (items : List Json) {bound : Nat}
    (each : ∀ item ∈ items, byteLen (item.toStringPretty printFloat (level + 1)) ≤ bound) :
    byteLen ((Json.array items).toStringPretty printFloat level) ≤
      items.length * (bound + 2 * level + 4) + 2 * level + 3 := by
  by_cases empty : items = []
  · subst empty
    rw [toStringPretty, if_pos List.isEmpty_nil]
    have two : byteLen "[]".toList = 2 := by decide
    omega
  · rw [toStringPretty_array empty]
    have lines := byteLen_printLines level
      (items.map fun item => item.toStringPretty printFloat (level + 1))
    have total : ((items.map fun item => item.toStringPretty printFloat (level + 1)).map
        fun line => byteLen line + 2 * level + 4).sum ≤ items.length * (bound + 2 * level + 4) := by
      clear empty lines
      induction items with
      | nil => simp
      | cons item rest ih =>
        have first := each item List.mem_cons_self
        have later := ih fun other mem => each other (List.mem_cons_of_mem _ mem)
        simp only [List.map_cons, List.sum_cons, List.length_cons, Nat.add_mul] at *
        omega
    have brackets : '['.utf8Size = 1 ∧ ']'.utf8Size = 1 := by decide
    simp only [byteLen_cons, byteLen_append, byteLen_nil]
    omega

theorem byteLen_object_le {fields : List (String × Json)} (ne : fields ≠ []) :
    byteLen ((Json.object fields).toStringPretty printFloat level) ≤
      (fields.map fun field => byteLen (printString field.1.toList) +
        byteLen (field.2.toStringPretty printFloat (level + 1)) + 2 * level + 6).sum + 2 * level + 3 := by
  rw [toStringPretty_object ne]
  have lines := byteLen_printLines level (fields.map fun field =>
    printString field.1.toList ++ ": ".toList ++ field.2.toStringPretty printFloat (level + 1))
  have colon : byteLen ": ".toList = 2 := by decide
  have braces : '\x7b'.utf8Size = 1 ∧ '\x7d'.utf8Size = 1 := by decide
  have each : ((fun line => byteLen line + 2 * level + 4) ∘ fun field : String × Json =>
      printString field.1.toList ++ ": ".toList ++ field.2.toStringPretty printFloat (level + 1)) =
      fun field => byteLen (printString field.1.toList) +
        byteLen (field.2.toStringPretty printFloat (level + 1)) + 2 * level + 6 := by
    funext field
    simp only [Function.comp_apply, byteLen_append]
    omega
  rw [List.map_map, each] at lines
  simp only [byteLen_cons, byteLen_append, byteLen_nil]
  omega

/-- Escaping at most doubles text without control characters. -/
theorem byteLen_printString {text : List Char} (plain : ∀ c ∈ text, 0x20 ≤ c.toNat) :
    byteLen (printString text) ≤ 2 * byteLen text + 2 := by
  have quote : '"'.utf8Size = 1 ∧ byteLen ['\\', '"'] = 2 ∧ byteLen ['\\', '\\'] = 2 := by decide
  have escaped : byteLen (text.flatMap escapeChar) ≤ 2 * byteLen text := by
    induction text with
    | nil => simp
    | cons c rest ih =>
      have first := plain c List.mem_cons_self
      have later := ih fun d mem => plain d (List.mem_cons_of_mem _ mem)
      have size := c.utf8Size_pos
      have one : byteLen (escapeChar c) ≤ 2 * c.utf8Size := by
        unfold escapeChar
        split
        · omega
        · split
          · omega
          · rw [if_neg (by omega), if_neg (by omega), if_neg (by omega), if_neg (by omega),
              if_neg (by omega), if_neg (by omega)]
            simp only [byteLen_cons, byteLen_nil]
            omega
      rw [List.flatMap_cons, byteLen_append, byteLen_cons]
      omega
  simp only [printString, byteLen_cons, byteLen_append, byteLen_nil]
  omega

theorem byteLen_printString_verbatim {text : List Char} (plain : ∀ c ∈ text, escapeChar c = [c]) :
    byteLen (printString text) = byteLen text + 2 := by
  have quote : '"'.utf8Size = 1 := by decide
  have same : text.flatMap escapeChar = text := by
    induction text with
    | nil => rfl
    | cons c rest ih =>
      rw [List.flatMap_cons, plain c List.mem_cons_self,
        ih fun d mem => plain d (List.mem_cons_of_mem _ mem), List.singleton_append]
  simp only [printString, same, byteLen_cons, byteLen_append, byteLen_nil]
  omega

end Json

end NexTerminal.Library
