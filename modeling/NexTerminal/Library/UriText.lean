import Mathlib.Data.UInt
import Mathlib.Tactic.Cases

namespace NexTerminal.Library

theorem flatMap_injective {α β : Type*} {code : α → List β} (ne : ∀ a, code a ≠ [])
    (free : ∀ a b rest tail, code a ++ rest = code b ++ tail → a = b) :
    Function.Injective fun items : List α => items.flatMap code := by
  intro first second same
  induction first generalizing second with
  | nil =>
    cases second with
    | nil => rfl
    | cons b tail =>
      exact absurd (List.append_eq_nil_iff.mp same.symm).1 (ne b)
  | cons a rest ih =>
    cases second with
    | nil =>
      exact absurd (List.append_eq_nil_iff.mp same).1 (ne a)
    | cons b tail =>
      obtain rfl := free a b _ _ same
      rw [ih (List.append_cancel_left same)]

def bytesOfText (text : List Char) : List UInt8 := (String.ofList text).toByteArray.data.toList

def upperHex (n : Nat) : Char := ("0123456789ABCDEF".toList)[n]?.getD '0'

def isUriUnreserved (b : UInt8) : Bool :=
  let n := b.toNat
  (0x30 ≤ n && n ≤ 0x39) || (0x41 ≤ n && n ≤ 0x5A) || (0x61 ≤ n && n ≤ 0x7A)
    || [0x21, 0x27, 0x28, 0x29, 0x2A, 0x2D, 0x2E, 0x5F, 0x7E].contains n

def encodeUriByte (b : UInt8) : List Char :=
  if isUriUnreserved b then [Char.ofNat b.toNat]
  else ['%', upperHex (b.toNat / 16), upperHex (b.toNat % 16)]

def encodeURIComponent (text : List Char) : List Char := (bytesOfText text).flatMap encodeUriByte

theorem upperHex_injective {n m : Nat} (small : n < 16) (small' : m < 16) (same : upperHex n = upperHex m) : n = m := by
  have table : ∀ a b : Fin 16, upperHex a = upperHex b → a = b := by decide
  exact congrArg Fin.val (table ⟨n, small⟩ ⟨m, small'⟩ same)

theorem uriUnreserved_char {b : UInt8} (unreserved : isUriUnreserved b = true) :
    (Char.ofNat b.toNat).toNat = b.toNat ∧ b.toNat ≠ 0x25 ∧ b.toNat ≠ 0x26 ∧ b.toNat ≠ 0x2C ∧
      b.toNat ≠ 0x3D := by
  have table : ∀ n : Fin 128, (Char.ofNat n).toNat = n := by decide
  simp only [isUriUnreserved, Bool.or_eq_true, Bool.and_eq_true, decide_eq_true_eq, List.contains_iff_mem,
    List.mem_cons, List.not_mem_nil, or_false] at unreserved
  exact ⟨table ⟨b.toNat, by omega⟩, by omega, by omega, by omega, by omega⟩

theorem encodeUriByte_prefix_free (a b : UInt8) (rest tail : List Char)
    (same : encodeUriByte a ++ rest = encodeUriByte b ++ tail) : a = b := by
  have bound := a.toNat_lt
  have bound' := b.toNat_lt
  have percent : ('%' : Char).toNat = 0x25 := rfl
  unfold encodeUriByte at same
  split at same
  · rename_i plain
    obtain ⟨whole, ne, -⟩ := uriUnreserved_char plain
    split at same
    · rename_i plain'
      obtain ⟨whole', -⟩ := uriUnreserved_char plain'
      have first := congrArg Char.toNat (List.cons.inj same).1
      rw [whole, whole'] at first
      exact UInt8.toNat_inj.mp first
    · have first := congrArg Char.toNat (List.cons.inj same).1
      rw [whole, percent] at first
      exact absurd first ne
  · split at same
    · rename_i plain'
      obtain ⟨whole', apart', -⟩ := uriUnreserved_char plain'
      have first := congrArg Char.toNat (List.cons.inj same).1
      rw [whole', percent] at first
      exact absurd first.symm apart'
    · have digits := (List.cons.inj same).2
      have high := upperHex_injective (by omega) (by omega) (List.cons.inj digits).1
      have low := upperHex_injective (by omega) (by omega) (List.cons.inj (List.cons.inj digits).2).1
      exact UInt8.toNat_inj.mp (by omega)

theorem encodeUriByte_ne_nil (b : UInt8) : encodeUriByte b ≠ [] := by
  unfold encodeUriByte
  split
  · exact List.cons_ne_nil _ _
  · exact List.cons_ne_nil _ _

theorem bytesOfText_injective : Function.Injective bytesOfText := by
  intro first second same
  have bytes : (String.ofList first).toByteArray = (String.ofList second).toByteArray :=
    ByteArray.ext (Array.toList_inj.mp same)
  exact String.ofList_injective (String.toByteArray_inj.mp bytes)

/-- Nothing is lost in the encoding. -/
theorem encodeURIComponent_injective : Function.Injective encodeURIComponent := fun _ _ same =>
  bytesOfText_injective (flatMap_injective encodeUriByte_ne_nil encodeUriByte_prefix_free same)

theorem encodeURIComponent_plain {text : List Char} {c : Char} (mem : c ∈ encodeURIComponent text) :
    c ≠ '&' ∧ c ≠ ',' ∧ c ≠ '=' := by
  obtain ⟨b, -, inside⟩ := List.mem_flatMap.mp mem
  have bound := b.toNat_lt
  unfold encodeUriByte at inside
  split at inside
  · rename_i plain
    obtain ⟨whole, -, amp, comma, equals⟩ := uriUnreserved_char plain
    obtain rfl := List.mem_singleton.mp inside
    refine ⟨?_, ?_, ?_⟩
    · rintro hit
      exact amp (whole ▸ congrArg Char.toNat hit)
    · rintro hit
      exact comma (whole ▸ congrArg Char.toNat hit)
    · rintro hit
      exact equals (whole ▸ congrArg Char.toNat hit)
  · have table : ∀ n : Fin 16, upperHex n ≠ '&' ∧ upperHex n ≠ ',' ∧ upperHex n ≠ '=' := by decide
    simp only [List.mem_cons, List.not_mem_nil, or_false] at inside
    rcases inside with rfl | rfl | rfl
    · decide
    · exact table ⟨b.toNat / 16, by omega⟩
    · exact table ⟨b.toNat % 16, by omega⟩

theorem encodeURIComponent_ne_nil {text : List Char} (ne : text ≠ []) : encodeURIComponent text ≠ [] := by
  intro nothing
  have bare : encodeURIComponent [] = [] := rfl
  exact ne (encodeURIComponent_injective (nothing.trans bare.symm))

def hexValue? (b : UInt8) : Option Nat :=
  let n := b.toNat
  if 0x30 ≤ n ∧ n ≤ 0x39 then some (n - 0x30)
  else if 0x41 ≤ n ∧ n ≤ 0x46 then some (n - 0x41 + 10)
  else if 0x61 ≤ n ∧ n ≤ 0x66 then some (n - 0x61 + 10)
  else none

def percentDecode : List UInt8 → List UInt8
  | b :: high :: low :: rest =>
    match decide (b = 0x25), hexValue? high, hexValue? low with
    | true, some h, some l => .ofNat (h * 16 + l) :: percentDecode rest
    | _, _, _ => b :: percentDecode (high :: low :: rest)
  | bytes => bytes

/-- `new URLSearchParams(text)`, in order. `utf8Decode` reads bytes that need not be UTF-8. -/
def searchParams (utf8Decode : List UInt8 → List Char) (text : List Char) : List (List Char × List Char) :=
  let query := if text.head? = some '?' then text.tail else text
  let read (part : List UInt8) : List Char :=
    utf8Decode (percentDecode (part.map fun b => if b = 0x2B then 0x20 else b))
  (((bytesOfText query).splitOn 0x26).filter fun piece => !piece.isEmpty).map fun piece =>
    (read (piece.takeWhile (· ≠ 0x3D)), read ((piece.dropWhile (· ≠ 0x3D)).drop 1))

end NexTerminal.Library
