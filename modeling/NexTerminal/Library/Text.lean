import Mathlib.Algebra.GroupWithZero.Nat
import Mathlib.Data.List.Basic
import Mathlib.Data.List.Infix

namespace NexTerminal.Library

def includes (text part : String) : Bool := part.toList <:+: text.toList

def byteLen (text : List Char) : Nat := (text.map Char.utf8Size).sum

@[simp] theorem byteLen_nil : byteLen [] = 0 := rfl

@[simp] theorem byteLen_cons (c : Char) (rest : List Char) : byteLen (c :: rest) = c.utf8Size + byteLen rest := rfl

@[simp] theorem byteLen_append (first rest : List Char) : byteLen (first ++ rest) = byteLen first + byteLen rest := by
  simp [byteLen]

theorem byteLen_ascii {text : List Char} (ascii : ∀ c ∈ text, c.utf8Size = 1) : byteLen text = text.length := by
  induction text with
  | nil => rfl
  | cons c rest ih =>
    rw [byteLen_cons, ascii c List.mem_cons_self, List.length_cons,
      ih fun d mem => ascii d (List.mem_cons_of_mem _ mem)]
    omega

theorem utf8Size_of_isDigit {c : Char} (digit : c.isDigit = true) : c.utf8Size = 1 := by
  simp only [Char.isDigit, Bool.and_eq_true, decide_eq_true_eq] at digit
  have small : c.val ≤ 127 := UInt32.le_trans digit.2 (by decide)
  exact if_pos small

theorem byteLen_toDigits {n digits : Nat} (positive : 0 < digits) (small : n < 10 ^ digits) :
    byteLen (Nat.toDigits 10 n) ≤ digits := by
  rw [byteLen_ascii fun c mem =>
    utf8Size_of_isDigit (Nat.isDigit_of_mem_toDigits (by decide) (by decide) mem)]
  exact (Nat.length_toDigits_le_iff (by decide) positive).mpr small

theorem byteLen_replicate (count : Nat) (c : Char) : byteLen (List.replicate count c) = count * c.utf8Size := by
  simp [byteLen]

/-- A bound for the bytes of a joined text. -/
theorem byteLen_intercalate (c : Char) (parts : List (List Char)) :
    byteLen (List.intercalate [c] parts) ≤ (parts.map byteLen).sum + parts.length * c.utf8Size := by
  induction parts with
  | nil => simp
  | cons part rest ih =>
    cases rest with
    | nil => simp
    | cons next rest =>
      rw [List.intercalate_cons_cons]
      simp only [byteLen_append, byteLen_cons, byteLen_nil, List.map_cons, List.sum_cons,
        List.length_cons, Nat.add_mul] at *
      omega

theorem forall_mem_intercalate {Holds : Char → Prop} {sep : Char} {parts : List (List Char)}
    (between : Holds sep) (within : ∀ part ∈ parts, ∀ c ∈ part, Holds c) :
    ∀ c ∈ List.intercalate [sep] parts, Holds c := by
  induction parts with
  | nil => simp
  | cons part rest ih =>
    have first := within part List.mem_cons_self
    have later := ih fun other mem => within other (List.mem_cons_of_mem _ mem)
    cases rest with
    | nil => simpa using first
    | cons next rest =>
      intro c mem
      rw [List.intercalate_cons_cons] at mem
      rcases List.mem_append.mp mem with inside | inside
      · rcases List.mem_append.mp inside with inside | inside
        · exact first c inside
        · exact List.mem_singleton.mp inside ▸ between
      · exact later c inside

end NexTerminal.Library
