import NexTerminal.Dhcp.Protocol

namespace NexTerminal.Dhcp

section

variable {byte low high : UInt8} {owed bits : Nat} {rest : Bytes}

theorem fromUtf8Lossy_ascii (ascii : byte < 0x80) :
    fromUtf8Lossy none (byte :: rest) = Char.ofNat byte.toNat :: fromUtf8Lossy none rest := by
  simp [fromUtf8Lossy, if_pos ascii]

theorem fromUtf8Lossy_lead {lead : Nat × UInt8 × UInt8 × Nat} (large : ¬ byte < 0x80)
    (promised : utf8Lead byte = some lead) : fromUtf8Lossy none (byte :: rest) = fromUtf8Lossy (some lead) rest := by
  simp [fromUtf8Lossy, if_neg large, promised]

theorem fromUtf8Lossy_last (bounds : low ≤ byte ∧ byte ≤ high) :
    fromUtf8Lossy (some (1, low, high, bits)) (byte :: rest) =
      Char.ofNat (bits * 64 + byte.toNat % 64) :: fromUtf8Lossy none rest := by
  simp [fromUtf8Lossy, if_pos bounds]

theorem fromUtf8Lossy_more (more : ¬ owed ≤ 1) (bounds : low ≤ byte ∧ byte ≤ high) :
    fromUtf8Lossy (some (owed, low, high, bits)) (byte :: rest) =
      fromUtf8Lossy (some (owed - 1, 0x80, 0xBF, bits * 64 + byte.toNat % 64)) rest := by
  simp [fromUtf8Lossy, if_pos bounds, if_neg more]

end

theorem toNat_byte {n : Nat} (small : n < 256) : (UInt8.ofNat n).toNat = n := by
  rw [UInt8.toNat_ofNat']
  omega

theorem continuation (v : Nat) :
    (0x80 : UInt8) ≤ .ofNat (v % 64 + 128) ∧ UInt8.ofNat (v % 64 + 128) ≤ 0xBF ∧
      (UInt8.ofNat (v % 64 + 128)).toNat % 64 = v % 64 := by
  have num : (UInt8.ofNat (v % 64 + 128)).toNat = v % 64 + 128 := toNat_byte (by omega)
  rw [UInt8.le_iff_toNat_le, UInt8.le_iff_toNat_le, num]
  have bounds : (0x80 : UInt8).toNat = 128 ∧ (0xBF : UInt8).toNat = 191 := ⟨rfl, rfl⟩
  omega

theorem utf8Lead_eq (byte : UInt8) :
    utf8Lead byte =
      let n := byte.toNat
      if 194 ≤ n ∧ n ≤ 223 then some (1, 0x80, 0xBF, n % 32)
      else if n = 224 then some (2, 0xA0, 0xBF, n % 16)
      else if n = 237 then some (2, 0x80, 0x9F, n % 16)
      else if 225 ≤ n ∧ n ≤ 239 then some (2, 0x80, 0xBF, n % 16)
      else if n = 240 then some (3, 0x90, 0xBF, n % 8)
      else if n = 244 then some (3, 0x80, 0x8F, n % 8)
      else if 241 ≤ n ∧ n ≤ 243 then some (3, 0x80, 0xBF, n % 8)
      else none := by
  simp only [utf8Lead, ← UInt8.toNat_inj]
  rfl

section

variable {v : Nat} {rest : Bytes}

theorem large_byte {n : Nat} (large : 128 ≤ n) (small : n < 256) : ¬ UInt8.ofNat n < 0x80 := by
  rw [UInt8.lt_iff_toNat_lt, toNat_byte small]
  exact Nat.not_lt.mpr large

theorem byte_between {n low high : Nat} (small : n < 256) (between : low ≤ n ∧ n ≤ high) (fits : high < 256) :
    UInt8.ofNat low ≤ .ofNat n ∧ UInt8.ofNat n ≤ .ofNat high := by
  rw [UInt8.le_iff_toNat_le, UInt8.le_iff_toNat_le, toNat_byte small, toNat_byte fits, toNat_byte (by omega)]
  exact between

theorem lossy_two (above : 0x7f < v) (below : v ≤ 0x7ff) :
    fromUtf8Lossy none (.ofNat (v / 64 % 32 + 0xc0) :: .ofNat (v % 64 + 0x80) :: rest) =
      Char.ofNat v :: fromUtf8Lossy none rest := by
  have lead : v / 64 % 32 + 0xc0 = v / 64 + 192 := by omega
  have promised : utf8Lead (.ofNat (v / 64 + 192)) = some (1, 0x80, 0xBF, v / 64) := by
    have bits : (v / 64 + 192) % 32 = v / 64 := by omega
    rw [utf8Lead_eq, toNat_byte (by omega)]
    rw [if_pos (by omega), bits]
  obtain ⟨low, high, six⟩ := continuation v
  have whole : v / 64 * 64 + v % 64 = v := by omega
  rw [lead, fromUtf8Lossy_lead (large_byte (by omega) (by omega)) promised, fromUtf8Lossy_last ⟨low, high⟩,
    six, whole]

theorem lead_three (above : 0x7ff < v) (below : v ≤ 0xffff) (valid : v < 0xD800 ∨ 0xDFFF < v) :
    ∃ low high, utf8Lead (.ofNat (v / 4096 + 224)) = some (2, low, high, v / 4096) ∧
      low ≤ .ofNat (v / 64 % 64 + 128) ∧ UInt8.ofNat (v / 64 % 64 + 128) ≤ high := by
  have bits : (v / 4096 + 224) % 16 = v / 4096 := by omega
  rw [utf8Lead_eq, toNat_byte (by omega)]
  rw [if_neg (by omega), bits]
  by_cases least : v / 4096 = 0
  · rw [if_pos (by omega)]
    exact ⟨_, _, rfl, @byte_between _ 160 191 (by omega) (by omega) (by decide)⟩
  · rw [if_neg (by omega)]
    by_cases surrogate : v / 4096 = 13
    · rw [if_pos (by omega)]
      exact ⟨_, _, rfl, @byte_between _ 128 159 (by omega) (by omega) (by decide)⟩
    · rw [if_neg (by omega), if_pos (by omega)]
      exact ⟨_, _, rfl, @byte_between _ 128 191 (by omega) (by omega) (by decide)⟩

theorem lossy_three (above : 0x7ff < v) (below : v ≤ 0xffff) (valid : v < 0xD800 ∨ 0xDFFF < v) :
    fromUtf8Lossy none
        (.ofNat (v / 4096 % 16 + 0xe0) :: .ofNat (v / 64 % 64 + 0x80) :: .ofNat (v % 64 + 0x80) :: rest) =
      Char.ofNat v :: fromUtf8Lossy none rest := by
  have lead : v / 4096 % 16 + 0xe0 = v / 4096 + 224 := by omega
  obtain ⟨_, _, promised, bounds⟩ := lead_three above below valid
  obtain ⟨_, _, middle⟩ := continuation (v / 64)
  obtain ⟨low, high, six⟩ := continuation v
  have whole : (v / 4096 * 64 + v / 64 % 64) * 64 + v % 64 = v := by omega
  rw [lead, fromUtf8Lossy_lead (large_byte (by omega) (by omega)) promised,
    fromUtf8Lossy_more (by decide) bounds, middle, fromUtf8Lossy_last ⟨low, high⟩, six, whole]

theorem lead_four (above : 0xffff < v) (below : v < 0x110000) :
    ∃ low high, utf8Lead (.ofNat (v / 262144 + 240)) = some (3, low, high, v / 262144) ∧
      low ≤ .ofNat (v / 4096 % 64 + 128) ∧ UInt8.ofNat (v / 4096 % 64 + 128) ≤ high := by
  have bits : (v / 262144 + 240) % 8 = v / 262144 := by omega
  rw [utf8Lead_eq, toNat_byte (by omega)]
  rw [if_neg (by omega), if_neg (by omega), if_neg (by omega), if_neg (by omega), bits]
  by_cases least : v / 262144 = 0
  · rw [if_pos (by omega)]
    exact ⟨_, _, rfl, @byte_between _ 144 191 (by omega) (by omega) (by decide)⟩
  · rw [if_neg (by omega)]
    by_cases last : v / 262144 = 4
    · rw [if_pos (by omega)]
      exact ⟨_, _, rfl, @byte_between _ 128 143 (by omega) (by omega) (by decide)⟩
    · rw [if_neg (by omega), if_pos (by omega)]
      exact ⟨_, _, rfl, @byte_between _ 128 191 (by omega) (by omega) (by decide)⟩

theorem lossy_four (above : 0xffff < v) (below : v < 0x110000) :
    fromUtf8Lossy none
        (.ofNat (v / 262144 % 8 + 0xf0) :: .ofNat (v / 4096 % 64 + 0x80) :: .ofNat (v / 64 % 64 + 0x80) ::
          .ofNat (v % 64 + 0x80) :: rest) =
      Char.ofNat v :: fromUtf8Lossy none rest := by
  have lead : v / 262144 % 8 + 0xf0 = v / 262144 + 240 := by omega
  obtain ⟨_, _, promised, bounds⟩ := lead_four above below
  obtain ⟨_, _, second⟩ := continuation (v / 4096)
  obtain ⟨thirdLow, thirdHigh, third⟩ := continuation (v / 64)
  obtain ⟨low, high, six⟩ := continuation v
  have whole : ((v / 262144 * 64 + v / 4096 % 64) * 64 + v / 64 % 64) * 64 + v % 64 = v := by omega
  rw [lead, fromUtf8Lossy_lead (large_byte (by omega) (by omega)) promised,
    fromUtf8Lossy_more (by decide) bounds, second, fromUtf8Lossy_more (by decide) ⟨thirdLow, thirdHigh⟩, third,
    fromUtf8Lossy_last ⟨low, high⟩, six, whole]

end

theorem utf8EncodeChar_eq (c : Char) :
    String.utf8EncodeChar c =
      if c.toNat ≤ 0x7f then [.ofNat c.toNat]
      else if c.toNat ≤ 0x7ff then [.ofNat (c.toNat / 64 % 32 + 0xc0), .ofNat (c.toNat % 64 + 0x80)]
      else if c.toNat ≤ 0xffff then
        [.ofNat (c.toNat / 4096 % 16 + 0xe0), .ofNat (c.toNat / 64 % 64 + 0x80), .ofNat (c.toNat % 64 + 0x80)]
      else
        [.ofNat (c.toNat / 262144 % 8 + 0xf0), .ofNat (c.toNat / 4096 % 64 + 0x80),
          .ofNat (c.toNat / 64 % 64 + 0x80), .ofNat (c.toNat % 64 + 0x80)] := rfl

theorem fromUtf8Lossy_encodeChar (c : Char) (rest : Bytes) :
    fromUtf8Lossy none (String.utf8EncodeChar c ++ rest) = c :: fromUtf8Lossy none rest := by
  have valid : c.toNat < 0xD800 ∨ 0xDFFF < c.toNat ∧ c.toNat < 0x110000 := c.valid
  have same := Char.ofNat_toNat c
  rw [utf8EncodeChar_eq]
  generalize c.toNat = v at valid same
  subst same
  split
  · rw [List.singleton_append, fromUtf8Lossy_ascii, toNat_byte (by omega)]
    rw [UInt8.lt_iff_toNat_lt, toNat_byte (by omega)]
    change v < 128
    omega
  split
  · exact lossy_two (by omega) (by omega)
  split
  · exact lossy_three (by omega) (by omega) (by omega)
  · exact lossy_four (by omega) (by omega)

theorem mem_utf8EncodeChar {c : Char} {n : Nat} (ascii : n < 128) (inside : UInt8.ofNat n ∈ String.utf8EncodeChar c) :
    c.toNat = n := by
  have byte {m : Nat} (small : m < 256) (same : UInt8.ofNat n = .ofNat m) : n = m := by
    have num := congrArg UInt8.toNat same
    rwa [toNat_byte (by omega), toNat_byte small] at num
  have differ {m : Nat} (large : 128 ≤ m) (small : m < 256) : UInt8.ofNat n ≠ .ofNat m :=
    fun same => absurd (byte small same) (by omega)
  rw [utf8EncodeChar_eq] at inside
  split at inside
  · exact (byte (by omega) (List.mem_singleton.mp inside)).symm
  split at inside
  · simp only [List.mem_cons, List.not_mem_nil, or_false] at inside
    rcases inside with same | same <;> exact absurd same (differ (by omega) (by omega))
  split at inside
  · simp only [List.mem_cons, List.not_mem_nil, or_false] at inside
    rcases inside with same | same | same <;> exact absurd same (differ (by omega) (by omega))
  · simp only [List.mem_cons, List.not_mem_nil, or_false] at inside
    rcases inside with same | same | same | same <;> exact absurd same (differ (by omega) (by omega))

/-- Text that was encoded is read back unharmed. -/
theorem fromUtf8Lossy_encoded (text : Text) : fromUtf8Lossy none (text.flatMap String.utf8EncodeChar) = text := by
  induction text with
  | nil => rfl
  | cons c rest ih => rw [List.flatMap_cons, fromUtf8Lossy_encodeChar, ih]

end NexTerminal.Dhcp
