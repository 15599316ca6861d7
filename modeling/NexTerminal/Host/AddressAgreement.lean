import NexTerminal.Host.ConfigValidation
import NexTerminal.Dhcp.Config
import NexTerminal.Dhcp.Codec

namespace NexTerminal.Host

open Library
open Dhcp (Text Ipv4Addr MacKey isAsciiHexdigit)

theorem digitUnit_eq {u : UInt16} (digit : isDigitUnit u = true) : ∃ n : Fin 10, u = .ofNat (0x30 + n) := by
  simp only [isDigitUnit, Bool.and_eq_true, decide_eq_true_eq] at digit
  change 0x30 ≤ u.toNat ∧ u.toNat ≤ 0x39 at digit
  refine ⟨⟨u.toNat - 0x30, by omega⟩, ?_⟩
  have back : 0x30 + (u.toNat - 0x30) = u.toNat := by omega
  rw [back, UInt16.ofNat_toNat]

/-- What holds of up to three digits, whichever they are, and of other texts by their length alone. -/
theorem of_digits {Holds : JsString → Prop} (none : Holds []) (one : ∀ a : Fin 10, Holds [.ofNat (0x30 + a)])
    (two : ∀ a b : Fin 10, Holds [.ofNat (0x30 + a), .ofNat (0x30 + b)])
    (three : ∀ a b c : Fin 10, Holds [.ofNat (0x30 + a), .ofNat (0x30 + b), .ofNat (0x30 + c)])
    (long : ∀ u v w x rest, Holds (u :: v :: w :: x :: rest)) {part : JsString}
    (digits : ∀ u ∈ part, isDigitUnit u = true) : Holds part := by
  match part with
  | [] => exact none
  | [u] =>
    obtain ⟨a, rfl⟩ := digitUnit_eq (digits u (by simp))
    exact one a
  | [u, v] =>
    obtain ⟨a, rfl⟩ := digitUnit_eq (digits u (by simp))
    obtain ⟨b, rfl⟩ := digitUnit_eq (digits v (by simp))
    exact two a b
  | [u, v, w] =>
    obtain ⟨a, rfl⟩ := digitUnit_eq (digits u (by simp))
    obtain ⟨b, rfl⟩ := digitUnit_eq (digits v (by simp))
    obtain ⟨c, rfl⟩ := digitUnit_eq (digits w (by simp))
    exact three a b c
  | u :: v :: w :: x :: rest => exact long u v w x rest

theorem isOctetText_digits {part : JsString} (octet : isOctetText part = true) :
    ∀ u ∈ part, isDigitUnit u = true := by
  match part with
  | [u] => simpa [isOctetText] using octet
  | u :: v :: rest =>
    simp only [isOctetText, Bool.and_eq_true, List.all_eq_true] at octet
    exact List.forall_mem_cons.mpr ⟨octet.1.1.1, octet.1.2⟩

theorem octetText_spelling {part : JsString} (octet : isOctetText part = true) (bound : digitsToNumber part ≤ 255) :
    part = encodeUtf16 (Dhcp.octetToText (.ofNat (digitsToNumber part))) := by
  refine @of_digits (fun part => isOctetText part = true → digitsToNumber part ≤ 255 →
    part = encodeUtf16 (Dhcp.octetToText (.ofNat (digitsToNumber part))))
    ?_ ?_ ?_ ?_ ?_ part (isOctetText_digits octet) octet bound
  · simp [isOctetText]
  · decide
  · decide
  · decide
  · simp [isOctetText]

theorem ipv4ToInt_eq_some {value : JsString} {n : Nat} (read : ipv4ToInt value = some n) :
    n < 2 ^ 32 ∧ value = encodeUtf16 (Ipv4Addr.toText (.ofNat n)) := by
  simp only [ipv4ToInt] at read
  split at read
  · cases read
  · rename_i four
    rw [not_not] at four
    obtain ⟨a, b, c, d, parts⟩ : ∃ a b c d, value.splitOn 0x2E = [a, b, c, d] := by
      match parts : value.splitOn 0x2E, four with
      | [a, b, c, d], _ => exact ⟨a, b, c, d, rfl⟩
    have whole : [0x2E].intercalate (value.splitOn 0x2E) = value := List.intercalate_splitOn _
    rw [parts] at read whole
    have step : ∀ {res next : Nat} {part : JsString},
        (if !isOctetText part then none
          else if digitsToNumber part > 255 then none
          else some (res * 256 + digitsToNumber part)) = some next →
        digitsToNumber part ≤ 255 ∧ next = res * 256 + digitsToNumber part ∧
          part = encodeUtf16 (Dhcp.octetToText (.ofNat (digitsToNumber part))) := by
      intro res next part taken
      cases octet : isOctetText part with
      | false => simp [octet] at taken
      | true =>
        rw [octet] at taken
        by_cases large : digitsToNumber part > 255
        · simp [large] at taken
        · simp only [large, Bool.not_true, Bool.false_eq_true, if_false, Option.some.injEq] at taken
          exact ⟨by omega, taken.symm, octetText_spelling octet (by omega)⟩
    simp only [List.foldlM_cons, List.foldlM_nil, Option.bind_eq_bind, Option.bind_eq_some_iff,
      Option.pure_def, Option.some.injEq] at read
    obtain ⟨n₁, first, n₂, second, n₃, third, n₄, fourth, rfl⟩ := read
    obtain ⟨ba, rfl, ta⟩ := step first
    obtain ⟨bb, rfl, tb⟩ := step second
    obtain ⟨bc, rfl, tc⟩ := step third
    obtain ⟨bd, rfl, td⟩ := step fourth
    generalize digitsToNumber a = a' at *
    generalize digitsToNumber b = b' at *
    generalize digitsToNumber c = c' at *
    generalize digitsToNumber d = d' at *
    subst ta tb tc td
    have bound : (((0 * 256 + a') * 256 + b') * 256 + c') * 256 + d' < 2 ^ 32 := by omega
    refine ⟨bound, whole.symm.trans ?_⟩
    have num : (UInt32.ofNat ((((0 * 256 + a') * 256 + b') * 256 + c') * 256 + d')).toNat =
        (((0 * 256 + a') * 256 + b') * 256 + c') * 256 + d' := UInt32.toNat_ofNat_of_lt' bound
    have octets : Ipv4Addr.octets (.ofNat ((((0 * 256 + a') * 256 + b') * 256 + c') * 256 + d')) =
        [.ofNat a', .ofNat b', .ofNat c', .ofNat d'] := by
      rw [Ipv4Addr.octets, num]
      congr 1
      · congr 1; omega
      · congr 1
        · congr 1; omega
        · congr 1
          · congr 1; omega
          · congr 2; omega
    have dot : utf16Units '.' = [0x2E] := by decide
    rw [Ipv4Addr.toText, octets]
    simp [dot]

theorem trim_toText (ip : Ipv4Addr) : Dhcp.trim ip.toText = ip.toText := by
  have ink : ∀ c ∈ ip.toText, Dhcp.isWhitespace c = false := by
    intro c mem
    rcases Ipv4Addr.mem_toText c mem with digit | rfl
    · simp only [Char.isDigit, Bool.and_eq_true, decide_eq_true_eq] at digit
      change 0x30 ≤ c.toNat ∧ c.toNat ≤ 0x39 at digit
      simp only [Dhcp.isWhitespace, Bool.or_eq_false_iff, Bool.and_eq_false_iff,
        decide_eq_false_iff_not, beq_eq_false_iff_ne]
      omega
    · decide
  have bare : Bare Dhcp.isWhitespace ip.toText :=
    ⟨fun c first => ink c (List.mem_of_mem_head? first),
      fun c final => ink c (List.mem_of_mem_getLast? final)⟩
  exact trimWith_bare bare

def hostMac (key : MacKey) : JsString :=
  key.text.map fun c => if c = '-' then 0x3A else asciiLowerUnit (.ofNat c.toNat)

theorem hexUnit_cases (Holds : UInt16 → Prop) (table : ∀ n : Fin 128, isHexDigit (.ofNat n) = true →
    Holds (.ofNat n)) {u : UInt16} (hex : isHexDigit u = true) : Holds u := by
  have range := (isHexDigit_iff u).mp hex
  have entry := table ⟨u.toNat, by omega⟩
  rw [UInt16.ofNat_toNat] at entry
  exact entry hex

theorem hexUnit_daemon {u : UInt16} (hex : isHexDigit u = true) :
    isAsciiHexdigit (charOfUnit u) = true ∧ isSurrogate u = false ∧ (charOfUnit u).toUpper ≠ '-' ∧
      asciiLowerUnit (.ofNat (charOfUnit u).toUpper.toNat) = asciiLowerUnit u := by
  refine hexUnit_cases (fun u => isAsciiHexdigit (charOfUnit u) = true ∧ isSurrogate u = false ∧
    (charOfUnit u).toUpper ≠ '-' ∧ asciiLowerUnit (.ofNat (charOfUnit u).toUpper.toNat) = asciiLowerUnit u) ?_ hex
  decide

/-- What the host takes for a MAC address, the daemon takes for the same one. -/
theorem canonicalMac_eq_some {raw mac : JsString} (read : canonicalMac raw = some mac) :
    ∃ text key, raw = encodeUtf16 text ∧ MacKey.parse text = some key ∧ mac = hostMac key := by
  unfold canonicalMac at read
  split at read
  · rename_i a a' s₁ b b' s₂ c c' s₃ d d' s₄ e e' s₅ f f'
    split at read
    · rename_i shape
      simp only [List.all_cons, List.all_nil, Bool.and_eq_true, Bool.or_eq_true, beq_iff_eq, and_true] at shape
      obtain ⟨⟨⟨ha, ha', hb, hb', hc, hc', hd, hd', he, he', hf, hf'⟩, sep⟩, rfl, rfl, rfl, rfl⟩ :=
        shape
      have alone : ∀ u ∈ [a, a', s₅, b, b', s₅, c, c', s₅, d, d', s₅, e, e', s₅, f, f'],
          isSurrogate u = false := by
        have hs : isSurrogate s₅ = false := by rcases sep with rfl | rfl <;> decide
        simp [hexUnit_daemon, hs, ha, ha', hb, hb', hc, hc', hd, hd', he, he', hf, hf']
      have odd : isAsciiHexdigit (charOfUnit s₅) = false := by
        rcases sep with rfl | rfl <;> decide
      refine ⟨[a, a', s₅, b, b', s₅, c, c', s₅, d, d', s₅, e, e', s₅, f, f'].map charOfUnit,
        ⟨List.intercalate ['-'] (Dhcp.chunkPairs
          (([a, a', b, b', c, c', d, d', e, e', f, f'].map charOfUnit).map Char.toUpper))⟩,
        (encodeUtf16_map_charOfUnit alone).symm, ?_, ?_⟩
      · simp [MacKey.parse, odd, hexUnit_daemon, ha, ha', hb, hb', hc, hc', hd, hd', he, he', hf, hf']
      · have colon : asciiLowerUnit 0x3A = 0x3A := by decide
        rw [← Option.some.inj read]
        simp [hostMac, Dhcp.chunkPairs, asciiLower, colon,
          hexUnit_daemon, ha, ha', hb, hb', hc, hc', hd, hd', he, he', hf, hf']
    · cases read
  · cases read

end NexTerminal.Host
