import Mathlib.Data.UInt
import Mathlib.Data.Int.Log
import NexTerminal.Library.Json

namespace NexTerminal.Library

def serial (position : Nat) : UInt16 := .ofNat position

def serialDistance (start stop : UInt16) : Nat := (stop - start).toNat

@[simp] theorem serial_toNat (pos : Nat) : (serial pos).toNat = pos % 65536 := UInt16.toNat_ofNat'

@[simp] theorem serial_succ (pos : Nat) : serial pos + 1 = serial (pos + 1) := by
  apply UInt16.toNat_inj.mp
  simp

theorem serialDistance_eq (a b : Nat) :
    serialDistance (serial a) (serial b) = (65536 - a % 65536 + b % 65536) % 65536 := by
  unfold serialDistance
  rw [UInt16.toNat_sub, serial_toNat, serial_toNat]

theorem serialDistance_forward {a b : Nat} (ordered : a ≤ b) (near : b < a + 65536) :
    serialDistance (serial a) (serial b) = b - a := by
  rw [serialDistance_eq]
  omega

theorem serialDistance_backward {a b : Nat} (behind : b < a) (near : a ≤ b + 65536) :
    serialDistance (serial a) (serial b) = (65536 - (a - b)) % 65536 := by
  rw [serialDistance_eq]
  omega

theorem serial_eq_iff {a b : Nat} (above : a < b + 65536) (below : b < a + 65536) : serial a = serial b ↔ a = b := by
  rw [← UInt16.toNat_inj, serial_toNat, serial_toNat]
  omega

theorem exists_serial (num : UInt16) (start : Nat) :
    ∃ position, start ≤ position ∧ position < start + 65536 ∧ num = serial position := by
  have bound := num.toNat_lt
  refine ⟨start + (65536 - start % 65536 + num.toNat) % 65536, by omega, by omega, ?_⟩
  apply UInt16.toNat_inj.mp
  rw [serial_toNat]
  omega

def roundHalfEven (q : ℚ) : Int :=
  let low := ⌊q⌋
  if q - low < 1 / 2 then low
  else if 1 / 2 < q - low then low + 1
  else if low % 2 = 0 then low
  else low + 1

def f64OfRat (q : ℚ) : ℚ :=
  if q = 0 then 0
  else
    let unit : ℚ := (2 : ℚ) ^ (Int.log 2 |q| - 52)
    roundHalfEven (q / unit) * unit

theorem roundHalfEven_nonneg {q : ℚ} (positive : 0 ≤ q) : 0 ≤ roundHalfEven q := by
  have low : 0 ≤ ⌊q⌋ := Int.floor_nonneg.mpr positive
  unfold roundHalfEven
  dsimp only
  split_ifs <;> omega

theorem f64OfRat_nonneg {q : ℚ} (positive : 0 ≤ q) : 0 ≤ f64OfRat q := by
  unfold f64OfRat
  split_ifs with zero
  · exact le_refl _
  · have unit : (0 : ℚ) < (2 : ℚ) ^ (Int.log 2 |q| - 52) := zpow_pos (by norm_num) _
    have whole := roundHalfEven_nonneg (div_nonneg positive unit.le)
    exact mul_nonneg (by exact_mod_cast whole) unit.le

theorem le_f64OfNat {n : Nat} (large : 2 ^ 53 ≤ n) : 2 ^ 53 ≤ f64OfNat n := by
  have nonzero : n ≠ 0 := by omega
  have exponent : 53 ≤ Nat.log2 n := (Nat.le_log2 nonzero).mpr large
  have leading : 2 ^ Nat.log2 n ≤ n := Nat.log2_self_le nonzero
  have kept : 2 ^ 53 ≤ n / 2 ^ (Nat.log2 n - 52) * 2 ^ (Nat.log2 n - 52) := by
    have split : 2 ^ Nat.log2 n = 2 ^ 52 * 2 ^ (Nat.log2 n - 52) := by
      rw [← Nat.pow_add]
      congr 1
      omega
    have digits : 2 ^ 52 ≤ n / 2 ^ (Nat.log2 n - 52) :=
      (Nat.le_div_iff_mul_le (by positivity)).mpr (split ▸ leading)
    calc 2 ^ 53 ≤ 2 ^ Nat.log2 n := Nat.pow_le_pow_right (by decide) exponent
      _ = 2 ^ 52 * 2 ^ (Nat.log2 n - 52) := split
      _ ≤ _ := Nat.mul_le_mul_right _ digits
  rw [f64OfNat, if_neg (by omega)]
  dsimp only
  split_ifs
  · exact kept.trans (Nat.mul_le_mul_right _ (Nat.le_succ _))
  · exact kept

/-- Below 2^53 a bound on the float is a bound on the number. -/
theorem f64OfNat_le_iff {n limit : Nat} (small : limit < 2 ^ 53) : f64OfNat n ≤ limit ↔ n ≤ limit := by
  by_cases exact : n < 2 ^ 53
  · rw [f64OfNat_exact exact]
  · have above := le_f64OfNat (Nat.le_of_not_lt exact)
    omega

end NexTerminal.Library
