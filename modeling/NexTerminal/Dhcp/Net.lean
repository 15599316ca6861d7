import Std.Data.TreeMap
import NexTerminal.Library.Text
import Mathlib.Data.UInt

/-! IPv4 arithmetic and the canonical MAC key (`net.rs`). Rust strings the code
computes on are lists of characters; text that is only printed is a `String`. -/

namespace NexTerminal.Dhcp

open Library

abbrev Text := List Char

/-- `char::is_whitespace`: the Unicode White_Space characters. -/
def isWhitespace (c : Char) : Bool :=
  let n := c.toNat
  (0x09 ≤ n && n ≤ 0x0D) || n == 0x20 || n == 0x85 || n == 0xA0 || n == 0x1680
    || (0x2000 ≤ n && n ≤ 0x200A) || n == 0x2028 || n == 0x2029 || n == 0x202F || n == 0x205F
    || n == 0x3000

/-- `str::trim`. -/
def trim (text : Text) : Text := ((text.dropWhile isWhitespace).reverse.dropWhile isWhitespace).reverse

/-- Every address is a `u32` from the start. -/
abbrev Ipv4Addr := UInt32

def Ipv4Addr.new (a b c d : UInt8) : Ipv4Addr :=
  .ofNat (((a.toNat * 256 + b.toNat) * 256 + c.toNat) * 256 + d.toNat)

def Ipv4Addr.octets (ip : Ipv4Addr) : List UInt8 :=
  [.ofNat (ip.toNat / 16777216), .ofNat (ip.toNat / 65536 % 256), .ofNat (ip.toNat / 256 % 256),
    .ofNat (ip.toNat % 256)]

def Ipv4Addr.unspecified : Ipv4Addr := 0

def Ipv4Addr.isUnspecified (ip : Ipv4Addr) : Bool := ip == 0

/-- Decimal digits of one octet, as `Display` writes them. -/
def octetToText (octet : UInt8) : Text := Nat.toDigits 10 octet.toNat

/-- `Ipv4Addr::to_string`. -/
def Ipv4Addr.toText (ip : Ipv4Addr) : Text := List.intercalate ['.'] (ip.octets.map octetToText)

def digitValue (c : Char) : Nat := c.toNat - '0'.toNat

/-- One decimal octet as `Ipv4Addr::from_str` reads it: one to three digits,
no leading zero, at most 255. -/
def parseOctet (digits : Text) : Option UInt8 :=
  if digits.length = 0 ∨ 3 < digits.length ∨ !digits.all Char.isDigit then none
  else if 1 < digits.length ∧ digits.head? = some '0' then none
  else
    let value := digits.foldl (fun n c => n * 10 + digitValue c) 0
    if 255 < value then none else some (.ofNat value)

/-- `str::parse::<Ipv4Addr>`. -/
def parseIpv4 (raw : Text) : Option Ipv4Addr :=
  match (raw.splitOn '.').mapM parseOctet with
  | some [a, b, c, d] => some (.new a b c d)
  | _ => none

def Ipv4Addr.display (ip : Ipv4Addr) : String := String.ofList ip.toText

/-- Largest `chaddr` the fixed header can carry. -/
def maxHardwareLen : Nat := 16

/-- A MAC address in the one spelling the lease table is keyed by:
uppercase hex pairs joined by dashes. -/
structure MacKey where
  text : Text
deriving DecidableEq

instance : ToString MacKey := ⟨fun mac => String.ofList mac.text⟩

instance : Ord MacKey := ⟨fun a b => compare a.text b.text⟩

instance : Std.TransOrd MacKey where
  eq_swap {a b} := (Std.OrientedCmp.eq_swap : compare a.text b.text = (compare b.text a.text).swap)
  isLE_trans {a b c} :=
    (Std.TransCmp.isLE_trans : (compare a.text b.text).isLE → (compare b.text c.text).isLE →
      (compare a.text c.text).isLE)

instance : Std.LawfulEqOrd MacKey where
  compare_self {a} := (Std.ReflCmp.compare_self : compare a.text a.text = .eq)
  eq_of_compare {a b} same := by
    have text : a.text = b.text :=
      (Std.LawfulEqCmp.eq_of_compare : compare a.text b.text = .eq → a.text = b.text) same
    cases a; cases b
    exact congrArg MacKey.mk text

def hexDigit (n : Nat) : Char := ("0123456789ABCDEF".toList)[n]?.getD '0'

def hexPair (byte : UInt8) : Text := [hexDigit (byte.toNat / 16), hexDigit (byte.toNat % 16)]

/-- Builds the key from the raw `chaddr` bytes of a packet. -/
def MacKey.fromHardware (bytes : List UInt8) : MacKey :=
  ⟨List.intercalate ['-'] (bytes.map hexPair)⟩

def isAsciiHexdigit (c : Char) : Bool := c.isDigit || ('a' ≤ c && c ≤ 'f') || ('A' ≤ c && c ≤ 'F')

def isUpperHexdigit (c : Char) : Bool := c.isDigit || ('A' ≤ c && c ≤ 'F')

/-- Accepts only a key `fromHardware` could have produced. -/
def MacKey.fromWireKey (raw : Text) : Option MacKey :=
  let pairs := raw.splitOn '-'
  if pairs.all (fun pair => pair.length == 2 && pair.all isUpperHexdigit) ∧
      1 ≤ pairs.length ∧ pairs.length ≤ maxHardwareLen
  then some ⟨raw⟩ else none

/-- `chunks(2)` of a list of digits. -/
def chunkPairs : Text → List Text
  | a :: b :: rest => [a, b] :: chunkPairs rest
  | [a] => [[a]]
  | [] => []

/-- Canonicalises a configured MAC address, rejecting values that cannot map to
the six octets carried on the wire. -/
def MacKey.parse (raw : Text) : Option MacKey :=
  let hex := raw.filter isAsciiHexdigit
  if hex.length ≠ 12 then none
  else some ⟨List.intercalate ['-'] (chunkPairs (hex.map Char.toUpper))⟩

/-- Number of addresses in the inclusive range, or `0` when it is inverted;
saturating, since the whole space is one more than a `u32` holds. -/
def poolSize (start stop : Ipv4Addr) : Nat :=
  if stop < start then 0 else min (stop.toNat - start.toNat + 1) (2 ^ 32 - 1)

def isIpInPool (ip start stop : Ipv4Addr) : Bool :=
  if start > stop then false else decide (ip ≥ start) && decide (ip ≤ stop)

def isContiguousMask (mask : Ipv4Addr) : Bool := (~~~mask + 1) &&& ~~~mask == 0

theorem hexDigit_injective {n m : Nat} (small : n < 16) (small' : m < 16)
    (same : hexDigit n = hexDigit m) : n = m := by
  have table : ∀ a b : Fin 16, hexDigit a = hexDigit b → a = b := by decide
  exact congrArg Fin.val (table ⟨n, small⟩ ⟨m, small'⟩ same)

theorem hexDigit_upper {n : Nat} (small : n < 16) : isUpperHexdigit (hexDigit n) = true := by
  have table : ∀ a : Fin 16, isUpperHexdigit (hexDigit a) = true := by decide
  exact table ⟨n, small⟩

theorem hexPair_injective {byte other : UInt8} (same : hexPair byte = hexPair other) : byte = other := by
  have bound := byte.toNat_lt
  have bound' := other.toNat_lt
  simp only [hexPair, List.cons.injEq, and_true] at same
  have high := hexDigit_injective (by omega) (by omega) same.1
  have low := hexDigit_injective (by omega) (by omega) same.2
  exact UInt8.toNat_inj.mp (by omega)

theorem hexPair_upper (byte : UInt8) : (hexPair byte).all isUpperHexdigit = true := by
  have bound := byte.toNat_lt
  simp only [hexPair, List.all_cons, List.all_nil, Bool.and_true, Bool.and_eq_true]
  exact ⟨hexDigit_upper (by omega), hexDigit_upper (by omega)⟩

theorem dash_notMem_hexPair {byte : UInt8} : '-' ∉ hexPair byte := by
  intro mem
  have upper := List.all_eq_true.mp (hexPair_upper byte) _ mem
  exact absurd upper (by decide)

theorem splitOn_fromHardware {bytes : List UInt8} (ne : bytes ≠ []) :
    (MacKey.fromHardware bytes).text.splitOn '-' = bytes.map hexPair := by
  refine List.splitOn_intercalate '-' ?_ (by simpa using ne)
  intro pair mem
  obtain ⟨-, _, rfl⟩ := List.mem_map.mp mem
  exact dash_notMem_hexPair

theorem fromHardware_nil_text {bytes : List UInt8} (blank : (MacKey.fromHardware bytes).text = []) : bytes = [] := by
  by_contra ne
  have pairs := splitOn_fromHardware ne
  rw [blank, List.splitOn_nil] at pairs
  cases bytes with
  | nil => exact ne rfl
  | cons byte rest => simp [hexPair] at pairs

/-- Clients with different hardware addresses have different keys. -/
theorem MacKey.fromHardware_injective {bytes other : List UInt8}
    (same : fromHardware bytes = fromHardware other) : bytes = other := by
  by_cases ne : bytes = []
  · subst ne
    exact (fromHardware_nil_text (same ▸ rfl)).symm
  · have nonempty' : other ≠ [] := by
      rintro rfl
      exact ne (fromHardware_nil_text (same ▸ rfl))
    have pairs := splitOn_fromHardware ne
    rw [same, splitOn_fromHardware nonempty'] at pairs
    exact ((List.map_injective_iff.mpr fun _ _ => hexPair_injective) pairs).symm

theorem isIpInPool_iff {ip start stop : Ipv4Addr} :
    isIpInPool ip start stop = true ↔ start.toNat ≤ ip.toNat ∧ ip.toNat ≤ stop.toNat := by
  simp only [isIpInPool, UInt32.lt_iff_toNat_lt, UInt32.le_iff_toNat_le]
  split
  · simp only [Bool.false_eq_true, false_iff]; omega
  · simp

end NexTerminal.Dhcp
