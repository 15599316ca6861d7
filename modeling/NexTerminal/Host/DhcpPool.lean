import Mathlib.Data.Set.Card
import Mathlib.Order.Interval.Finset.Nat
import NexTerminal.Host.AddressAgreement

/-! The pool arithmetic of the host (`dhcpNetworkUtils.ts`). JavaScript's bitwise operators
work on 32 bits, and their results are signed numbers. -/

namespace NexTerminal.Host

open Library

/-- `25[0-5]|2[0-4][0-9]|1[0-9]{2}|[1-9]?[0-9]`. -/
def isQuadOctet : JsString → Bool
  | [a, b, c] =>
    a == 0x32 && b == 0x35 && 0x30 ≤ c && c ≤ 0x35 || a == 0x32 && 0x30 ≤ b && b ≤ 0x34 && isDigitUnit c
      || a == 0x31 && isDigitUnit b && isDigitUnit c
  | [a, b] => 0x31 ≤ a && a ≤ 0x39 && isDigitUnit b
  | [a] => isDigitUnit a
  | _ => false

/-- `DOTTED_QUAD`: an octet and a dot three times, then an octet. -/
def isValidIpv4 (value : JsString) : Bool :=
  let parts := value.splitOn 0x2E
  parts.length == 4 && parts.all isQuadOctet

/-- `n >>> 0`. -/
def unsigned (n : Int) : Nat := (BitVec.ofInt 32 n).toNat

def intToIp (n : Int) : JsString :=
  let u := BitVec.ofInt 32 n
  [0x2E].intercalate ([u >>> 24 &&& 255, u >>> 16 &&& 255, u >>> 8 &&& 255, u &&& 255].map fun octet =>
    natText octet.toNat)

section

-- `Number(part) >>> 0`
variable (number : JsString → BitVec 32)

def ipToInt (ip : JsString) : Int :=
  match (ip.splitOn 0x2E).map number with
  | [a, b, c, d] =>
    if [a, b, c, d].any (255 < ·) then 0 else (a <<< 24 ||| b <<< 16 ||| c <<< 8 ||| d).toInt
  | _ => 0

def computePoolSize (rangeStart rangeEnd : JsString) : Int :=
  let a := ipToInt number rangeStart
  let b := ipToInt number rangeEnd
  if a = 0 ∨ b = 0 ∨ b < a then 0 else b - a + 1

def computeRangeEnd (rangeStart : JsString) (count : JsNumber) : JsString :=
  let start := unsigned (ipToInt number rangeStart)
  match count with
  | .finite count =>
    if start = 0 ∨ count.isInt = false ∨ count < 1 then []
    else
      let last := start + count.num - 1
      if last > 0xffffffff then [] else intToIp last
  | _ => []

def isIpInPool (ip rangeStart rangeEnd : JsString) : Bool :=
  let address := unsigned (ipToInt number ip)
  let first := unsigned (ipToInt number rangeStart)
  let last := unsigned (ipToInt number rangeEnd)
  if address = 0 ∨ first = 0 ∨ last = 0 then false else first ≤ address && address ≤ last

end

theorem natText_digits (n : Nat) : natText n = encodeUtf16 (Nat.toDigits 10 n) :=
  congrArg encodeUtf16 Nat.toList_repr

theorem natText_octet {n : Nat} (small : n < 256) : natText n = encodeUtf16 (Dhcp.octetToText (.ofNat n)) := by
  have back : (UInt8.ofNat n).toNat = n := UInt8.toNat_ofNat_of_lt' small
  rw [natText_digits, Dhcp.octetToText, back]

theorem isQuadOctet_digits {part : JsString} (quad : isQuadOctet part = true) :
    ∀ u ∈ part, isDigitUnit u = true := by
  match part with
  | [a] => simpa [isQuadOctet] using quad
  | [a, b] =>
    simp only [isQuadOctet, Bool.and_eq_true, decide_eq_true_eq] at quad
    obtain ⟨⟨low, high⟩, rest⟩ := quad
    have digit : isDigitUnit a = true := by
      simp only [isDigitUnit, Bool.and_eq_true, decide_eq_true_eq]
      exact ⟨UInt16.le_trans (by decide) low, high⟩
    simp [digit, rest]
  | [a, b, c] =>
    simp only [isQuadOctet, Bool.or_eq_true, Bool.and_eq_true, beq_iff_eq, decide_eq_true_eq] at quad
    rcases quad with (⟨⟨⟨rfl, rfl⟩, low⟩, high⟩ | ⟨⟨⟨rfl, low⟩, high⟩, last⟩) |
      ⟨⟨rfl, middle⟩, last⟩
    · have digit : isDigitUnit c = true := by
        simp only [isDigitUnit, Bool.and_eq_true, decide_eq_true_eq]
        exact ⟨low, UInt16.le_trans high (by decide)⟩
      simp only [List.forall_mem_cons]
      exact ⟨by decide, by decide, digit, by simp⟩
    · have digit : isDigitUnit b = true := by
        simp only [isDigitUnit, Bool.and_eq_true, decide_eq_true_eq]
        exact ⟨low, UInt16.le_trans high (by decide)⟩
      simp only [List.forall_mem_cons]
      exact ⟨by decide, digit, last, by simp⟩
    · simp only [List.forall_mem_cons]
      exact ⟨by decide, middle, last, by simp⟩
  | [] => simp
  | _ :: _ :: _ :: _ :: _ => simp [isQuadOctet] at quad

theorem octet_table : ∀ n : Fin 256, isQuadOctet (natText n) = true ∧ 0x2E ∉ natText n ∧
    digitsToNumber (natText n) = n := by
  simp only [natText_digits]
  decide +kernel

theorem isQuadOctet_iff {part : JsString} : isQuadOctet part = true ↔ ∃ n < 256, part = natText n := by
  constructor
  · intro quad
    have octet : isOctetText part = true ∧ digitsToNumber part ≤ 255 := by
      refine @of_digits (fun part => isQuadOctet part = true →
        isOctetText part = true ∧ digitsToNumber part ≤ 255) ?_ ?_ ?_ ?_ ?_ part (isQuadOctet_digits quad) quad
      · simp [isQuadOctet]
      · decide
      · decide
      · decide
      · simp [isQuadOctet]
    have small : digitsToNumber part < 256 := Nat.lt_succ_of_le octet.2
    exact ⟨digitsToNumber part, small, (octetText_spelling octet.1 octet.2).trans (natText_octet small).symm⟩
  · rintro ⟨n, small, rfl⟩
    exact (octet_table ⟨n, small⟩).1

theorem dot_notMem_natText {n : Nat} (small : n < 256) : 0x2E ∉ natText n := (octet_table ⟨n, small⟩).2.1

def quad (a b c d : Nat) : JsString := [0x2E].intercalate ([a, b, c, d].map natText)

section

variable {a b c d : Nat}

theorem splitOn_quad (small : ∀ n ∈ [a, b, c, d], n < 256) :
    (quad a b c d).splitOn 0x2E = [a, b, c, d].map natText := by
  refine List.splitOn_intercalate _ (fun part mem => ?_) (by simp)
  obtain ⟨n, listed, rfl⟩ := List.mem_map.mp mem
  exact dot_notMem_natText (small n listed)

theorem isValidIpv4_quad (small : ∀ n ∈ [a, b, c, d], n < 256) : isValidIpv4 (quad a b c d) = true := by
  unfold isValidIpv4
  rw [splitOn_quad small]
  refine Bool.and_eq_true_iff.mpr ⟨rfl, List.all_eq_true.mpr fun part mem => ?_⟩
  obtain ⟨n, listed, rfl⟩ := List.mem_map.mp mem
  exact isQuadOctet_iff.mpr ⟨n, small n listed, rfl⟩

theorem eq_quad_of_valid {value : JsString} (valid : isValidIpv4 value = true) :
    ∃ a b c d, (∀ n ∈ [a, b, c, d], n < 256) ∧ value = quad a b c d := by
  obtain ⟨len, octets⟩ := Bool.and_eq_true_iff.mp valid
  have whole : [0x2E].intercalate (value.splitOn 0x2E) = value := List.intercalate_splitOn _
  match parts : value.splitOn 0x2E, beq_iff_eq.mp len with
  | [p, q, r, s], _ =>
    rw [parts] at octets whole
    simp only [List.all_cons, List.all_nil, Bool.and_true, Bool.and_eq_true] at octets
    obtain ⟨a, ha, rfl⟩ := isQuadOctet_iff.mp octets.1
    obtain ⟨b, hb, rfl⟩ := isQuadOctet_iff.mp octets.2.1
    obtain ⟨c, hc, rfl⟩ := isQuadOctet_iff.mp octets.2.2.1
    obtain ⟨d, hd, rfl⟩ := isQuadOctet_iff.mp octets.2.2.2
    exact ⟨a, b, c, d, by simp [ha, hb, hc, hd], whole.symm⟩

theorem toNat_joined (small : ∀ n ∈ [a, b, c, d], n < 256) :
    (BitVec.ofNat 32 a <<< 24 ||| BitVec.ofNat 32 b <<< 16 ||| BitVec.ofNat 32 c <<< 8 ||| BitVec.ofNat 32 d).toNat =
      a * 2 ^ 24 + b * 2 ^ 16 + c * 2 ^ 8 + d := by
  simp only [List.forall_mem_cons] at small
  have bits (n shift : Nat) (fits : n * 2 ^ shift < 2 ^ 32) : (n % 2 ^ 32) <<< shift % 2 ^ 32 = n <<< shift := by
    have positive := Nat.two_pow_pos shift
    have within : n < 2 ^ 32 := Nat.lt_of_le_of_lt (Nat.le_mul_of_pos_right n positive) fits
    rw [Nat.mod_eq_of_lt within, Nat.shiftLeft_eq, Nat.mod_eq_of_lt fits]
  rw [BitVec.toNat_or, BitVec.toNat_or, BitVec.toNat_or, BitVec.toNat_shiftLeft, BitVec.toNat_shiftLeft,
    BitVec.toNat_shiftLeft, BitVec.toNat_ofNat, BitVec.toNat_ofNat, BitVec.toNat_ofNat, BitVec.toNat_ofNat,
    bits a 24 (by omega), bits b 16 (by omega), bits c 8 (by omega), Nat.mod_eq_of_lt (by omega), Nat.or_assoc,
    Nat.or_assoc]
  rw [← Nat.shiftLeft_add_eq_or_of_lt (by omega) c]
  rw [← Nat.shiftLeft_add_eq_or_of_lt (by omega) b]
  rw [← Nat.shiftLeft_add_eq_or_of_lt (by omega) a]
  omega

end

/-- The octets of a word, in the order they are written in. -/
theorem intToIp_eq (u : BitVec 32) : intToIp u.toNat =
    quad (u.toNat / 2 ^ 24 % 256) (u.toNat / 2 ^ 16 % 256) (u.toNat / 2 ^ 8 % 256) (u.toNat % 256) := by
  have low (n : Nat) : n &&& 255 = n % 256 := Nat.and_two_pow_sub_one_eq_mod n 8
  unfold intToIp quad
  simp [low, Nat.shiftRight_eq_div_pow]

theorem octets_small (m : Nat) : ∀ n ∈ [m / 2 ^ 24 % 256, m / 2 ^ 16 % 256, m / 2 ^ 8 % 256, m % 256], n < 256 := by
  intro n mem
  simp only [List.mem_cons, List.not_mem_nil, or_false] at mem
  omega

section

variable {number : JsString → BitVec 32} (reads : ∀ n < 256, number (natText n) = BitVec.ofNat 32 n)

include reads in
theorem ipToInt_quad {a b c d : Nat} (small : ∀ n ∈ [a, b, c, d], n < 256) :
    ipToInt number (quad a b c d) = (BitVec.ofNat 32 (a * 2 ^ 24 + b * 2 ^ 16 + c * 2 ^ 8 + d)).toInt := by
  have octets : ∀ n ∈ [a, b, c, d], ¬ (255 : BitVec 32) < BitVec.ofNat 32 n := by
    intro n mem large
    have within := small n mem
    rw [BitVec.lt_def, BitVec.toNat_ofNat, Nat.mod_eq_of_lt (by omega)] at large
    exact absurd large (by simpa using Nat.le_of_lt_succ within)
  have parts : ((quad a b c d).splitOn 0x2E).map number = [a, b, c, d].map (BitVec.ofNat 32) := by
    rw [splitOn_quad small, List.map_map]
    exact List.map_congr_left fun n mem => reads n (small n mem)
  have joined :
    BitVec.ofNat 32 a <<< 24 ||| BitVec.ofNat 32 b <<< 16 ||| BitVec.ofNat 32 c <<< 8 ||| BitVec.ofNat 32 d =
      .ofNat 32 (a * 2 ^ 24 + b * 2 ^ 16 + c * 2 ^ 8 + d) := by
    rw [← toNat_joined small, BitVec.ofNat_toNat]
    rfl
  unfold ipToInt
  rw [parts]
  rw [List.map_cons, List.map_cons, List.map_cons, List.map_cons, List.map_nil]
  dsimp only
  rw [if_neg, joined]
  simpa using octets

include reads in
theorem ipToInt_intToIp (u : BitVec 32) : ipToInt number (intToIp u.toNat) = u.toInt := by
  have whole : u.toNat / 2 ^ 24 % 256 * 2 ^ 24 + u.toNat / 2 ^ 16 % 256 * 2 ^ 16 + u.toNat / 2 ^ 8 % 256 * 2 ^ 8 +
      u.toNat % 256 = u.toNat := by omega
  rw [intToIp_eq, ipToInt_quad reads (octets_small u.toNat), whole, BitVec.ofNat_toNat]
  rfl

include reads in
theorem unsigned_intToIp (u : BitVec 32) : unsigned (ipToInt number (intToIp u.toNat)) = u.toNat := by
  rw [ipToInt_intToIp reads, unsigned, BitVec.ofInt_toInt]

end

theorem isValidIpv4_iff {value : JsString} :
    isValidIpv4 value = true ↔ ∃ u : BitVec 32, value = intToIp u.toNat := by
  constructor
  · intro valid
    obtain ⟨a, b, c, d, small, rfl⟩ := eq_quad_of_valid valid
    simp only [List.forall_mem_cons] at small
    have whole : (BitVec.ofNat 32 (a * 2 ^ 24 + b * 2 ^ 16 + c * 2 ^ 8 + d)).toNat =
        a * 2 ^ 24 + b * 2 ^ 16 + c * 2 ^ 8 + d := by
      rw [BitVec.toNat_ofNat, Nat.mod_eq_of_lt (by omega)]
    refine ⟨.ofNat 32 (a * 2 ^ 24 + b * 2 ^ 16 + c * 2 ^ 8 + d), ?_⟩
    rw [intToIp_eq, whole]
    exact (congr (congr (congr (congrArg quad (by omega)) (by omega)) (by omega)) (by omega))
  · rintro ⟨u, rfl⟩
    rw [intToIp_eq]
    exact isValidIpv4_quad (octets_small u.toNat)

section

variable {number : JsString → BitVec 32} (reads : ∀ n < 256, number (natText n) = BitVec.ofNat 32 n)

def addresses (number : JsString → BitVec 32) (rangeStart rangeEnd : JsString) : Set JsString :=
  { address | isValidIpv4 address = true ∧ isIpInPool number address rangeStart rangeEnd = true }

include reads in
theorem computePoolSize_words {u v : BitVec 32} (positive : 0 < u.toNat) (ordered : u.toNat ≤ v.toNat) :
    computePoolSize number (intToIp u.toNat) (intToIp v.toNat) =
      if u.toNat < 2 ^ 31 ∧ 2 ^ 31 ≤ v.toNat then 0 else (v.toNat : Int) - u.toNat + 1 := by
  have first := BitVec.toInt_eq_toNat_cond u
  have last := BitVec.toInt_eq_toNat_cond v
  have bound := v.isLt
  unfold computePoolSize
  rw [ipToInt_intToIp reads, ipToInt_intToIp reads, first, last]
  dsimp only
  split_ifs <;> omega

include reads in
theorem ncard_addresses {u v : BitVec 32} (positive : 0 < u.toNat) :
    (addresses number (intToIp u.toNat) (intToIp v.toNat)).ncard = v.toNat + 1 - u.toNat := by
  have numbered (m : Nat) (small : m ≤ v.toNat) : unsigned (ipToInt number (intToIp m)) = m := by
    have within : m < 2 ^ 32 := Nat.lt_of_le_of_lt small v.isLt
    have same : (BitVec.ofNat 32 m).toNat = m := by rw [BitVec.toNat_ofNat, Nat.mod_eq_of_lt within]
    have read := unsigned_intToIp reads (.ofNat 32 m)
    rw [same] at read
    exact read
  have image : addresses number (intToIp u.toNat) (intToIp v.toNat) =
      (fun m : Nat => intToIp m) '' Set.Icc u.toNat v.toNat := by
    ext addr
    constructor
    · rintro ⟨valid, inside⟩
      obtain ⟨w, rfl⟩ := isValidIpv4_iff.mp valid
      simp only [isIpInPool, unsigned_intToIp reads] at inside
      split at inside
      · cases inside
      · simp only [Bool.and_eq_true, decide_eq_true_eq] at inside
        exact ⟨w.toNat, inside, rfl⟩
    · rintro ⟨m, ⟨low, high⟩, rfl⟩
      have within : m < 2 ^ 32 := Nat.lt_of_le_of_lt high v.isLt
      refine ⟨isValidIpv4_iff.mpr ⟨.ofNat 32 m, ?_⟩, ?_⟩
      · rw [BitVec.toNat_ofNat, Nat.mod_eq_of_lt within]
      · simp only [isIpInPool, unsigned_intToIp reads, numbered m high]
        rw [if_neg (by omega)]
        simp [low, high]
  have ne : Set.InjOn (fun m : Nat => intToIp m) (Set.Icc u.toNat v.toNat) := by
    intro m inside other alike same
    have numbers := congrArg (fun ip => unsigned (ipToInt number ip)) same
    dsimp only at numbers
    rwa [numbered m inside.2, numbered other alike.2] at numbers
  rw [image, ne.ncard_image, ← Finset.coe_Icc, Set.ncard_coe_finset, Nat.card_Icc]

include reads in
/-- The pool has the size asked for, counted both ways, unless it crosses `128.0.0.0` or starts at `0.0.0.0`. -/
theorem computePoolSize_iff {rangeStart : JsString} (valid : isValidIpv4 rangeStart = true) (n : Nat)
    (fits : unsigned (ipToInt number rangeStart) + n ≤ 2 ^ 32) :
    (computePoolSize number rangeStart (computeRangeEnd number rangeStart (.finite n)) = n ∧
        n = (addresses number rangeStart (computeRangeEnd number rangeStart (.finite n))).ncard) ↔
      n = 0 ∨ unsigned (ipToInt number rangeStart) ≠ 0 ∧
        ¬ (unsigned (ipToInt number rangeStart) < 2 ^ 31 ∧ 2 ^ 31 < unsigned (ipToInt number rangeStart) + n) := by
  obtain ⟨u, rfl⟩ := isValidIpv4_iff.mp valid
  rw [unsigned_intToIp reads] at fits ⊢
  have unread : ipToInt number [] = 0 := rfl
  by_cases empty : u.toNat = 0 ∨ n = 0
  · have ends : computeRangeEnd number (intToIp u.toNat) (.finite n) = [] := by
      rw [computeRangeEnd, unsigned_intToIp reads]
      refine if_pos (empty.imp_right fun none => .inr ?_)
      rw [none]
      decide
    have none : addresses number (intToIp u.toNat) [] = ∅ := by
      refine Set.eq_empty_iff_forall_notMem.mpr ?_
      rintro address ⟨-, inside⟩
      simp [isIpInPool, unread, unsigned] at inside
    rw [ends, none, computePoolSize, unread]
    simp
    omega
  · rw [not_or] at empty
    have last : (BitVec.ofNat 32 (u.toNat + n - 1)).toNat = u.toNat + n - 1 := by
      rw [BitVec.toNat_ofNat, Nat.mod_eq_of_lt (by omega)]
    have ends : computeRangeEnd number (intToIp u.toNat) (.finite n) =
        intToIp (BitVec.ofNat 32 (u.toNat + n - 1)).toNat := by
      have positive : ¬ (n : ℚ) < 1 := not_lt.mpr (by exact_mod_cast Nat.one_le_iff_ne_zero.mpr empty.2)
      have number : (u.toNat : Int) + (n : ℚ).num - 1 = (u.toNat + n - 1 : Nat) := by
        rw [Rat.num_natCast]
        omega
      rw [computeRangeEnd, unsigned_intToIp reads, last]
      dsimp only
      rw [if_neg (by simp [empty.1, positive, Rat.isInt]), number, if_neg (by omega)]
    rw [ends, computePoolSize_words reads (by omega) (by omega), ncard_addresses reads (by omega), last]
    split_ifs <;> omega

end

/-- `Number` on the texts that the pattern lets through. -/
def decimalNumber (part : JsString) : BitVec 32 := .ofNat 32 (digitsToNumber part)

theorem decimalNumber_natText (n : Nat) (small : n < 256) : decimalNumber (natText n) = BitVec.ofNat 32 n := by
  rw [decimalNumber, (octet_table ⟨n, small⟩).2.2]

theorem computePoolSize_iff_office : (computePoolSize decimalNumber (js "192.168.2.10")
    (computeRangeEnd decimalNumber (js "192.168.2.10") (.finite (190 : Nat))) = (190 : Nat) ∧
      190 = (addresses decimalNumber (js "192.168.2.10")
        (computeRangeEnd decimalNumber (js "192.168.2.10") (.finite (190 : Nat)))).ncard) := by
  refine (computePoolSize_iff decimalNumber_natText (by decide) 190 (by decide)).mpr (.inr ⟨by decide, by decide⟩)

theorem computePoolSize_crossing : isValidIpv4 (js "127.255.255.250") = true ∧
    computePoolSize decimalNumber (js "127.255.255.250")
      (computeRangeEnd decimalNumber (js "127.255.255.250") (.finite (10 : Nat))) ≠ (10 : Nat) := by
  decide

end NexTerminal.Host
