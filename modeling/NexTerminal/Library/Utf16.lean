import Mathlib.Data.UInt
import NexTerminal.Library.Sequences

namespace NexTerminal.Library

def isHighSurrogate (u : UInt16) : Bool := 0xD800 ≤ u && u < 0xDC00

def isLowSurrogate (u : UInt16) : Bool := 0xDC00 ≤ u && u < 0xE000

def isSurrogate (u : UInt16) : Bool := 0xD800 ≤ u && u < 0xE000

def utf16Units (c : Char) : List UInt16 :=
  if c.toNat < 0x10000 then [.ofNat c.toNat]
  else [.ofNat (0xD800 + (c.toNat - 0x10000) / 0x400), .ofNat (0xDC00 + (c.toNat - 0x10000) % 0x400)]

def encodeUtf16 (text : List Char) : List UInt16 := text.flatMap utf16Units

def replacementChar : Char := Char.ofNat 0xFFFD

/-- A unit that stands alone; a lone surrogate reads as the replacement character. -/
def charOfUnit (u : UInt16) : Char := if isSurrogate u then replacementChar else .ofNat u.toNat

def charOfPair (high low : UInt16) : Char := .ofNat (0x10000 + (high.toNat - 0xD800) * 0x400 + (low.toNat - 0xDC00))

def decodeUtf16 : List UInt16 → List Char
  | [] => []
  | [u] => [charOfUnit u]
  | u :: v :: rest =>
    if isHighSurrogate u && isLowSurrogate v then charOfPair u v :: decodeUtf16 rest
    else charOfUnit u :: decodeUtf16 (v :: rest)

def WellFormedUtf16 (units : List UInt16) : Prop := encodeUtf16 (decodeUtf16 units) = units

instance : DecidablePred WellFormedUtf16 := fun units =>
  inferInstanceAs (Decidable (encodeUtf16 (decodeUtf16 units) = units))

@[simp] theorem encodeUtf16_nil : encodeUtf16 [] = [] := rfl

@[simp] theorem encodeUtf16_cons (c : Char) (rest : List Char) :
    encodeUtf16 (c :: rest) = utf16Units c ++ encodeUtf16 rest := rfl

@[simp] theorem encodeUtf16_append (first rest : List Char) :
    encodeUtf16 (first ++ rest) = encodeUtf16 first ++ encodeUtf16 rest := List.flatMap_append

theorem encodeUtf16_basic {text : List Char} (basic : ∀ c ∈ text, c.toNat < 0x10000) :
    encodeUtf16 text = text.map fun c => .ofNat c.toNat := by
  induction text with
  | nil => rfl
  | cons c rest ih =>
    rw [encodeUtf16_cons, utf16Units, if_pos (basic c List.mem_cons_self),
      ih fun d mem => basic d (List.mem_cons_of_mem _ mem)]
    rfl

theorem decodeUtf16_cons {u : UInt16} (alone : isHighSurrogate u = false) (rest : List UInt16) :
    decodeUtf16 (u :: rest) = charOfUnit u :: decodeUtf16 rest := by
  cases rest with
  | nil => rfl
  | cons v rest => rw [decodeUtf16, alone]; rfl

theorem char_range (c : Char) : c.toNat < 0xD800 ∨ (0xE000 ≤ c.toNat ∧ c.toNat < 0x110000) := by
  rcases c.valid with low | ⟨low, high⟩
  · exact .inl low
  · exact .inr ⟨low, high⟩

theorem charOfUnit_ofNat {c : Char} (small : c.toNat < 0x10000) : charOfUnit (.ofNat c.toNat) = c := by
  have size : (UInt16.ofNat c.toNat).toNat = c.toNat := UInt16.toNat_ofNat_of_lt' small
  have ne : isSurrogate (.ofNat c.toNat) = false := by
    have range := char_range c
    simp only [isSurrogate, Bool.and_eq_false_iff, decide_eq_false_iff_not, UInt16.le_iff_toNat_le,
      UInt16.lt_iff_toNat_lt, size]
    change ¬ 0xD800 ≤ c.toNat ∨ ¬ c.toNat < 0xE000
    omega
  rw [charOfUnit, ne, if_neg Bool.false_ne_true, size, Char.ofNat_toNat]

theorem isHighSurrogate_ofNat {c : Char} (small : c.toNat < 0x10000) : isHighSurrogate (.ofNat c.toNat) = false := by
  have size : (UInt16.ofNat c.toNat).toNat = c.toNat := UInt16.toNat_ofNat_of_lt' small
  have range := char_range c
  simp only [isHighSurrogate, Bool.and_eq_false_iff, decide_eq_false_iff_not,
    UInt16.le_iff_toNat_le, UInt16.lt_iff_toNat_lt, size]
  change ¬ 0xD800 ≤ c.toNat ∨ ¬ c.toNat < 0xDC00
  omega

theorem surrogates_of_astral {c : Char} (large : ¬ c.toNat < 0x10000) :
    ∃ high low, utf16Units c = [high, low] ∧ isHighSurrogate high = true ∧
      isLowSurrogate low = true ∧ charOfPair high low = c := by
  have range := char_range c
  have highSize : (UInt16.ofNat (0xD800 + (c.toNat - 0x10000) / 0x400)).toNat =
      0xD800 + (c.toNat - 0x10000) / 0x400 := UInt16.toNat_ofNat_of_lt' (by simp only [UInt16.size]; omega)
  have lowSize : (UInt16.ofNat (0xDC00 + (c.toNat - 0x10000) % 0x400)).toNat =
      0xDC00 + (c.toNat - 0x10000) % 0x400 := UInt16.toNat_ofNat_of_lt' (by simp only [UInt16.size]; omega)
  refine ⟨_, _, if_neg large, ?_, ?_, ?_⟩
  · simp only [isHighSurrogate, Bool.and_eq_true, decide_eq_true_eq, UInt16.le_iff_toNat_le,
      UInt16.lt_iff_toNat_lt]
    change 0xD800 ≤ _ ∧ _ < 0xDC00
    omega
  · simp only [isLowSurrogate, Bool.and_eq_true, decide_eq_true_eq, UInt16.le_iff_toNat_le,
      UInt16.lt_iff_toNat_lt]
    change 0xDC00 ≤ _ ∧ _ < 0xE000
    omega
  · rw [charOfPair, highSize, lowSize]
    have whole : 0x10000 + (0xD800 + (c.toNat - 0x10000) / 0x400 - 0xD800) * 0x400
        + (0xDC00 + (c.toNat - 0x10000) % 0x400 - 0xDC00) = c.toNat := by omega
    rw [whole, Char.ofNat_toNat]

@[simp] theorem decodeUtf16_encodeUtf16 (text : List Char) : decodeUtf16 (encodeUtf16 text) = text := by
  induction text with
  | nil => rfl
  | cons c rest ih =>
    rw [encodeUtf16_cons]
    by_cases small : c.toNat < 0x10000
    · rw [utf16Units, if_pos small, List.singleton_append,
        decodeUtf16_cons (isHighSurrogate_ofNat small), charOfUnit_ofNat small, ih]
    · obtain ⟨high, low, units, isHigh, isLow, pair⟩ := surrogates_of_astral small
      rw [units, List.cons_append, List.singleton_append, decodeUtf16, isHigh, isLow, pair, ih]
      rfl

theorem toNat_charOfUnit {u : UInt16} (alone : isSurrogate u = false) : (charOfUnit u).toNat = u.toNat := by
  have range : u.toNat < 0xD800 ∨ 0xE000 ≤ u.toNat := by
    simp only [isSurrogate, Bool.and_eq_false_iff, decide_eq_false_iff_not] at alone
    change ¬ 0xD800 ≤ u.toNat ∨ ¬ u.toNat < 0xE000 at alone
    omega
  have bound := u.toNat_lt
  have valid : u.toNat.isValidChar := by
    rcases range with low | high
    · exact .inl low
    · exact .inr ⟨by omega, by omega⟩
  rw [charOfUnit, alone, if_neg Bool.false_ne_true, Char.ofNat, dif_pos valid]
  rfl

theorem encodeUtf16_map_charOfUnit {units : List UInt16}
    (alone : ∀ u ∈ units, isSurrogate u = false) : encodeUtf16 (units.map charOfUnit) = units := by
  have basic : ∀ c ∈ units.map charOfUnit, c.toNat < 0x10000 := by
    intro c mem
    obtain ⟨u, inside, rfl⟩ := List.mem_map.mp mem
    rw [toNat_charOfUnit (alone u inside)]
    exact u.toNat_lt
  rw [encodeUtf16_basic basic, List.map_map]
  refine (List.map_congr_left fun u inside => ?_).trans (List.map_id _)
  rw [Function.comp_apply, toNat_charOfUnit (alone u inside), UInt16.ofNat_toNat]
  rfl

theorem encodeUtf16_injective {text other : List Char} (same : encodeUtf16 text = encodeUtf16 other) :
    text = other := by
  rw [← decodeUtf16_encodeUtf16 text, same, decodeUtf16_encodeUtf16]

theorem wellFormed_encodeUtf16 (text : List Char) : WellFormedUtf16 (encodeUtf16 text) := by
  rw [WellFormedUtf16, decodeUtf16_encodeUtf16]

section
variable {α β : Type} {code : α → List β} {onWord : β → Bool} {onLetter : α → Bool}

theorem filter_flatMap (words : ∀ a, ∀ b ∈ code a, onWord b = onLetter a) (letters : List α) :
    (letters.flatMap code).filter onWord = (letters.filter onLetter).flatMap code := by
  induction letters with
  | nil => rfl
  | cons a rest ih =>
    rw [List.flatMap_cons, List.filter_append, ih]
    cases answer : onLetter a with
    | true =>
      rw [List.filter_cons_of_pos answer, List.flatMap_cons,
        List.filter_eq_self.mpr fun b mem => (words a b mem).trans answer]
    | false =>
      have none : (code a).filter onWord = [] :=
        List.filter_eq_nil_iff.mpr fun b mem => by simp [words a b mem, answer]
      rw [List.filter_cons_of_neg (by simp [answer]), none, List.nil_append]

theorem dropWhile_flatMap (words : ∀ a, code a ≠ [] ∧ ∀ b ∈ code a, onWord b = onLetter a)
    (letters : List α) :
    (letters.flatMap code).dropWhile onWord = (letters.dropWhile onLetter).flatMap code := by
  induction letters with
  | nil => rfl
  | cons a rest ih =>
    obtain ⟨someWord, same⟩ := words a
    rw [List.flatMap_cons]
    cases answer : onLetter a with
    | true =>
      rw [List.dropWhile_cons_of_pos answer,
        List.dropWhile_append_of_pos fun b mem => (same b mem).trans answer, ih]
    | false =>
      rw [List.dropWhile_cons_of_neg (by simp [answer]), List.flatMap_cons]
      obtain ⟨b, tail, code_eq⟩ := List.exists_cons_of_ne_nil someWord
      have fails : onWord b = false := (same b (code_eq ▸ List.mem_cons_self)).trans answer
      rw [code_eq, List.cons_append, List.dropWhile_cons_of_neg (by simp [fails])]

end

/-- A test on units that no surrogate passes says the same of a character. -/
structure UnitTest (onUnit : UInt16 → Bool) (onChar : Char → Bool) : Prop where
  basic : ∀ c : Char, c.toNat < 0x10000 → onUnit (.ofNat c.toNat) = onChar c
  astral : ∀ c : Char, ¬ c.toNat < 0x10000 → onChar c = false
  surrogate : ∀ u : UInt16, isSurrogate u = true → onUnit u = false

namespace UnitTest
variable {onUnit : UInt16 → Bool} {onChar : Char → Bool}

section

variable (test : UnitTest onUnit onChar)
include test

/-- Every unit of a character answers as the character does. -/
theorem units (c : Char) : utf16Units c ≠ [] ∧ ∀ u ∈ utf16Units c, onUnit u = onChar c := by
  by_cases small : c.toNat < 0x10000
  · rw [utf16Units, if_pos small]
    refine ⟨List.cons_ne_nil _ _, fun u mem => ?_⟩
    rw [List.mem_singleton.mp mem, test.basic c small]
  · obtain ⟨high, low, units, isHigh, isLow, _⟩ := surrogates_of_astral small
    have highIs : isSurrogate high = true := by
      simp only [isHighSurrogate, Bool.and_eq_true, decide_eq_true_eq, UInt16.lt_iff_toNat_lt] at isHigh
      simp only [isSurrogate, Bool.and_eq_true, decide_eq_true_eq]
      exact ⟨isHigh.1, isHigh.2.trans (by decide)⟩
    have lowIs : isSurrogate low = true := by
      simp only [isLowSurrogate, Bool.and_eq_true, decide_eq_true_eq, UInt16.le_iff_toNat_le] at isLow
      simp only [isSurrogate, Bool.and_eq_true, decide_eq_true_eq]
      exact ⟨le_trans (by decide) isLow.1, isLow.2⟩
    rw [units, test.astral c small]
    refine ⟨List.cons_ne_nil _ _, fun u mem => ?_⟩
    rcases List.mem_cons.mp mem with rfl | later
    · exact test.surrogate _ highIs
    · rw [List.mem_singleton.mp later]
      exact test.surrogate _ lowIs

theorem filterNot (text : List Char) :
    (encodeUtf16 text).filter (fun u => !onUnit u) = encodeUtf16 (text.filter fun c => !onChar c) :=
  filter_flatMap (fun c u mem => congrArg (!·) ((test.units c).2 u mem)) text

theorem all (text : List Char) : (encodeUtf16 text).all onUnit = text.all onChar := by
  have each : ∀ c, (utf16Units c).all onUnit = onChar c := by
    intro c
    obtain ⟨someUnit, units⟩ := test.units c
    obtain ⟨u, rest, code⟩ := List.exists_cons_of_ne_nil someUnit
    cases answer : onChar c with
    | true => exact List.all_eq_true.mpr fun v mem => (units v mem).trans answer
    | false =>
      have first : u ∈ utf16Units c := code ▸ List.mem_cons_self
      exact List.all_eq_false.mpr ⟨u, first, by simp [units u first, answer]⟩
  simp [encodeUtf16, each]

theorem any (text : List Char) : (encodeUtf16 text).any onUnit = text.any onChar := by
  have each : ∀ c, (utf16Units c).any onUnit = onChar c := by
    intro c
    obtain ⟨someUnit, units⟩ := test.units c
    obtain ⟨u, rest, code⟩ := List.exists_cons_of_ne_nil someUnit
    cases answer : onChar c with
    | true =>
      have first : u ∈ utf16Units c := code ▸ List.mem_cons_self
      exact List.any_eq_true.mpr ⟨u, first, (units u first).trans answer⟩
    | false => exact List.any_eq_false.mpr fun v mem => by simp [units v mem, answer]
  simp [encodeUtf16, each]

end

end UnitTest

theorem UnitTest.trim {onUnit : UInt16 → Bool} {onChar : Char → Bool} (test : UnitTest onUnit onChar)
    (text : List Char) : trimWith onUnit (encodeUtf16 text) = encodeUtf16 (trimWith onChar text) := by
  have backwards : ∀ c, (List.reverse ∘ utf16Units) c ≠ [] ∧
      ∀ u ∈ (List.reverse ∘ utf16Units) c, onUnit u = onChar c := fun c => by
    simpa using test.units c
  rw [trimWith, encodeUtf16, dropWhile_flatMap test.units, List.reverse_flatMap,
    dropWhile_flatMap backwards, List.reverse_flatMap]
  simp [trimWith, encodeUtf16, Function.comp_def]

end NexTerminal.Library
