import Mathlib.Algebra.Order.BigOperators.Group.List
import Mathlib.Algebra.Module.NatInt
import NexTerminal.Dhcp.Persistence

namespace NexTerminal.Dhcp

open Std Library

/-- A key in the one spelling of the table: one to sixteen uppercase hex pairs. -/
def WireKey (mac : MacKey) : Prop :=
  ∃ pairs : List Text, mac.text = List.intercalate ['-'] pairs ∧
    (∀ pair ∈ pairs, pair.length = 2 ∧ pair.all isUpperHexdigit = true) ∧
    1 ≤ pairs.length ∧ pairs.length ≤ maxHardwareLen

theorem dash_notMem_upper {pair : Text} (upper : pair.all isUpperHexdigit = true) : '-' ∉ pair := by
  intro mem
  exact absurd (List.all_eq_true.mp upper _ mem) (by decide)

variable {pairs : List Text}

theorem splitOn_pairs (upper : ∀ pair ∈ pairs, pair.all isUpperHexdigit = true) (ne : 1 ≤ pairs.length) :
    (List.intercalate ['-'] pairs).splitOn '-' = pairs := by
  refine List.splitOn_intercalate '-' (fun pair mem => dash_notMem_upper (upper pair mem)) ?_
  rintro rfl
  simp at ne

variable {mac : MacKey}

theorem WireKey.fromWireKey (wire : WireKey mac) : MacKey.fromWireKey mac.text = some mac := by
  obtain ⟨pairs, text, shape, ne, short⟩ := wire
  have split := splitOn_pairs (fun pair mem => (shape pair mem).2) ne
  unfold MacKey.fromWireKey
  rw [text, split, if_pos]
  · rw [← text]
  · refine ⟨?_, ne, short⟩
    rw [List.all_eq_true]
    intro pair mem
    simp [shape pair mem]

theorem ascii_lt {c : Char} (ascii : isAsciiHexdigit c = true) : c.toNat < 128 := by
  simp only [isAsciiHexdigit, Char.isDigit, Bool.or_eq_true, Bool.and_eq_true, decide_eq_true_eq,
    Char.le_def, UInt32.le_iff_toNat_le] at ascii
  change c.val.toNat < 128
  have bounds : '9'.val.toNat = 57 ∧ 'f'.val.toNat = 102 ∧ 'F'.val.toNat = 70 := by decide
  omega

theorem ascii_of_upper {c : Char} (upper : isUpperHexdigit c = true) : isAsciiHexdigit c = true := by
  simp only [isUpperHexdigit, isAsciiHexdigit, Bool.or_eq_true] at *
  tauto

theorem ascii_cases (Holds : Char → Prop) (table : ∀ n : Fin 128, Holds (Char.ofNat n)) {c : Char}
    (small : c.toNat < 128) : Holds c := by
  have entry := table ⟨c.toNat, small⟩
  rwa [Char.ofNat_toNat] at entry

theorem toUpper_upper {c : Char} (ascii : isAsciiHexdigit c = true) :
    isUpperHexdigit c.toUpper = true ∧ (isUpperHexdigit c = true → c.toUpper = c) := by
  have table : ∀ n : Fin 128, isAsciiHexdigit (Char.ofNat n) = true →
      isUpperHexdigit (Char.ofNat n).toUpper = true ∧
        (isUpperHexdigit (Char.ofNat n) = true → (Char.ofNat n).toUpper = Char.ofNat n) := by
    decide
  exact ascii_cases (fun c => isAsciiHexdigit c = true → isUpperHexdigit c.toUpper = true ∧
    (isUpperHexdigit c = true → c.toUpper = c)) table (ascii_lt ascii) ascii

theorem filter_pairs (upper : ∀ pair ∈ pairs, pair.all isUpperHexdigit = true) :
    (List.intercalate ['-'] pairs).filter isAsciiHexdigit = pairs.flatten := by
  have whole : ∀ pair ∈ pairs, pair.filter isAsciiHexdigit = pair := by
    intro pair mem
    rw [List.filter_eq_self]
    exact fun c inside => ascii_of_upper (List.all_eq_true.mp (upper pair mem) c inside)
  induction pairs with
  | nil => rfl
  | cons pair rest ih =>
    have first := whole pair List.mem_cons_self
    have later := ih (fun other mem => upper other (List.mem_cons_of_mem _ mem))
      (fun other mem => whole other (List.mem_cons_of_mem _ mem))
    cases rest with
    | nil => simp [first]
    | cons next rest =>
      have dash : ['-'].filter isAsciiHexdigit = [] := by decide
      simp only [List.intercalate_cons_cons, List.filter_append, later, first, dash, List.append_nil,
        List.flatten_cons]

theorem chunkPairs_flatten (twos : ∀ pair ∈ pairs, pair.length = 2) : chunkPairs pairs.flatten = pairs := by
  induction pairs with
  | nil => rfl
  | cons pair rest ih =>
    obtain ⟨a, b, rfl⟩ := List.length_eq_two.mp (twos pair List.mem_cons_self)
    simp [chunkPairs,
      ih fun other mem => twos other (List.mem_cons_of_mem _ mem)]

theorem WireKey.parse {other : MacKey} (wire : WireKey mac) (parsed : MacKey.parse mac.text = some other) :
    other = mac := by
  obtain ⟨pairs, text, shape, -, -⟩ := wire
  have upper : ∀ pair ∈ pairs, pair.all isUpperHexdigit = true := fun pair mem => (shape pair mem).2
  simp only [MacKey.parse, text, filter_pairs upper] at parsed
  have raised : pairs.flatten.map Char.toUpper = pairs.flatten := by
    rw [List.map_congr_left, List.map_id]
    intro c mem
    obtain ⟨pair, within, inside⟩ := List.mem_flatten.mp mem
    have digit := List.all_eq_true.mp (upper pair within) c inside
    exact (toUpper_upper (ascii_of_upper digit)).2 digit
  split at parsed
  · cases parsed
  · cases parsed
    rw [raised, chunkPairs_flatten fun pair mem => (shape pair mem).1, ← text]

theorem WireKey.reads (wire : WireKey mac) : (MacKey.parse mac.text).or (MacKey.fromWireKey mac.text) = some mac := by
  cases parsed : MacKey.parse mac.text with
  | none => rw [Option.none_or, wire.fromWireKey]
  | some other => rw [Option.some_or, wire.parse parsed]

theorem wireKey_of_fromHardware {bytes : Bytes} (ne : 1 ≤ bytes.length)
    (short : bytes.length ≤ maxHardwareLen) : WireKey (MacKey.fromHardware bytes) := by
  refine ⟨bytes.map hexPair, rfl, ?_, by simpa using ne, by simpa using short⟩
  intro pair mem
  obtain ⟨byte, _, rfl⟩ := List.mem_map.mp mem
  exact ⟨rfl, hexPair_upper byte⟩

theorem wireKey_of_fromWireKey {raw : Text} (read : MacKey.fromWireKey raw = some mac) : WireKey mac := by
  simp only [MacKey.fromWireKey] at read
  split at read
  · rename_i ok
    cases read
    refine ⟨raw.splitOn '-', (List.intercalate_splitOn '-').symm, ?_, ok.2⟩
    intro pair mem
    have shape := List.all_eq_true.mp ok.1 pair mem
    rw [Bool.and_eq_true, beq_iff_eq] at shape
    exact shape
  · cases read

theorem chunkPairs_shape (n : Nat) (digits : Text) (even : digits.length = 2 * n)
    (upper : digits.all isUpperHexdigit = true) :
    (chunkPairs digits).length = n ∧
      ∀ pair ∈ chunkPairs digits, pair.length = 2 ∧ pair.all isUpperHexdigit = true := by
  induction n generalizing digits with
  | zero =>
    rw [List.length_eq_zero_iff.mp even]
    simp [chunkPairs]
  | succ n ih =>
    obtain ⟨a, tail, rfl⟩ := List.exists_cons_of_length_pos (l := digits) (by omega)
    obtain ⟨b, rest, rfl⟩ := List.exists_cons_of_length_pos (l := tail)
      (by simp only [List.length_cons] at even; omega)
    simp only [List.all_cons, Bool.and_eq_true] at upper
    obtain ⟨count, shape⟩ := ih rest (by simp only [List.length_cons] at even; omega) upper.2.2
    refine ⟨by simp [chunkPairs, count], ?_⟩
    intro pair mem
    rcases List.mem_cons.mp mem with rfl | later
    · simp [upper]
    · exact shape pair later

theorem wireKey_of_parse {raw : Text} (read : MacKey.parse raw = some mac) : WireKey mac := by
  simp only [MacKey.parse] at read
  split at read
  · cases read
  · rename_i twelve
    cases read
    rw [not_not] at twelve
    have upper : ((raw.filter isAsciiHexdigit).map Char.toUpper).all isUpperHexdigit = true := by
      rw [List.all_map, List.all_eq_true]
      intro c mem
      exact (toUpper_upper (List.of_mem_filter mem)).1
    obtain ⟨count, shape⟩ := chunkPairs_shape 6 _ (by rw [List.length_map, twelve]) upper
    exact ⟨_, rfl, shape, by rw [count]; decide, by rw [count]; decide⟩

theorem octetToText_spec (octet : UInt8) :
    parseOctet (octetToText octet) = some octet ∧ '.' ∉ octetToText octet := by
  have table : ∀ n : Fin 256, parseOctet (octetToText (.ofNat n)) = some (.ofNat n) ∧
      '.' ∉ octetToText (.ofNat n) := by
    decide +kernel
  have entry := table ⟨octet.toNat, octet.toNat_lt⟩
  rwa [UInt8.ofNat_toNat] at entry

theorem parseOctet_octetToText (octet : UInt8) : parseOctet (octetToText octet) = some octet :=
  (octetToText_spec octet).1

theorem dot_notMem_octet (octet : UInt8) : '.' ∉ octetToText octet := (octetToText_spec octet).2

theorem Ipv4Addr.new_octets (ip : Ipv4Addr) :
    Ipv4Addr.new (.ofNat (ip.toNat / 16777216)) (.ofNat (ip.toNat / 65536 % 256))
      (.ofNat (ip.toNat / 256 % 256)) (.ofNat (ip.toNat % 256)) = ip := by
  have bound := ip.toNat_lt
  simp only [Ipv4Addr.new, UInt8.toNat_ofNat']
  rw [← UInt32.toNat_inj, UInt32.toNat_ofNat']
  omega

theorem parseIpv4_toText (ip : Ipv4Addr) : parseIpv4 ip.toText = some ip := by
  have split : ip.toText.splitOn '.' = ip.octets.map octetToText := by
    refine List.splitOn_intercalate '.' ?_ (by simp [Ipv4Addr.octets])
    intro digits mem
    obtain ⟨octet, _, rfl⟩ := List.mem_map.mp mem
    exact dot_notMem_octet octet
  unfold parseIpv4
  rw [split]
  simp [Ipv4Addr.octets, parseOctet_octetToText, Ipv4Addr.new_octets]

theorem Ipv4Addr.mem_toText {ip : Ipv4Addr} : ∀ c ∈ ip.toText, c.isDigit = true ∨ c = '.' := by
  refine forall_mem_intercalate (.inr rfl) ?_
  intro digits mem c inside
  obtain ⟨octet, _, rfl⟩ := List.mem_map.mp mem
  exact .inl (Nat.isDigit_of_mem_toDigits (by decide) (by decide) inside)

theorem Ipv4Addr.byteLen_toText (ip : Ipv4Addr) : byteLen ip.toText ≤ 16 := by
  have joined := byteLen_intercalate '.' (ip.octets.map octetToText)
  have each : ∀ size ∈ (ip.octets.map octetToText).map byteLen, size ≤ 3 := by
    intro size mem
    obtain ⟨digits, within, rfl⟩ := List.mem_map.mp mem
    obtain ⟨octet, _, rfl⟩ := List.mem_map.mp within
    have bound := octet.toNat_lt
    exact byteLen_toDigits (by decide) (by omega)
  have total := List.sum_le_card_nsmul _ 3 each
  have dot : '.'.utf8Size = 1 := by decide
  simp only [Ipv4Addr.octets, List.length_map, List.length_cons, List.length_nil, smul_eq_mul]
    at joined total
  exact joined.trans (by omega)

theorem Ipv4Addr.toText_ne_nil (ip : Ipv4Addr) : ip.toText ≠ [] := by
  intro empty
  have read := parseIpv4_toText ip
  have blank : parseIpv4 [] = none := by decide
  rw [empty, blank] at read
  cases read

def Sanitized (text : Text) : Prop := sanitizeText text = text

theorem sanitizeLoop_plain {used : Nat} {text : Text} (plain : ∀ c ∈ text, isControl c = false)
    (fits : used + byteLen text ≤ maxEchoedTextBytes) : sanitizeLoop used text = text := by
  induction text generalizing used with
  | nil => rfl
  | cons c rest ih =>
    have first := plain c List.mem_cons_self
    simp only [byteLen, List.map_cons, List.sum_cons] at fits
    simp only [sanitizeLoop, first, Bool.false_eq_true, if_false]
    rw [if_neg (by omega), ih (fun d mem => plain d (List.mem_cons_of_mem _ mem))
      (by simp only [byteLen]; omega)]

/-- What the loop lets through: no control character, and no more bytes or
characters than allowed. -/
theorem sanitizeLoop_spec (used : Nat) (text : Text) :
    (∀ c ∈ sanitizeLoop used text, isControl c = false) ∧
      (sanitizeLoop used text).length ≤ text.length ∧
      (used ≤ maxEchoedTextBytes → used + byteLen (sanitizeLoop used text) ≤ maxEchoedTextBytes) := by
  induction text generalizing used with
  | nil => simp [sanitizeLoop]
  | cons c rest ih =>
    simp only [sanitizeLoop]
    generalize shown : (if isControl c = true then '\ufffd' else c) = d
    have plain : isControl d = false := by
      rw [← shown]
      split
      · decide
      · rename_i ordinary
        simpa using ordinary
    split
    · simp
    · obtain ⟨rest_plain, rest_length, rest_bytes⟩ := ih (used + d.utf8Size)
      refine ⟨?_, by simp only [List.length_cons]; omega, ?_⟩
      · intro e mem
        rcases List.mem_cons.mp mem with rfl | later
        · exact plain
        · exact rest_plain e later
      · simp only [byteLen, List.map_cons, List.sum_cons] at *
        omega

theorem sanitizeText_spec (text : Text) :
    (∀ c ∈ sanitizeText text, isControl c = false) ∧ (sanitizeText text).length ≤ maxEchoedText ∧
      byteLen (sanitizeText text) ≤ maxEchoedTextBytes := by
  obtain ⟨plain, short, fits⟩ := sanitizeLoop_spec 0 (text.take maxEchoedText)
  rw [List.length_take] at short
  refine ⟨plain, by simp only [sanitizeText]; omega, ?_⟩
  simpa [sanitizeText] using fits (by decide)

theorem sanitizeText_sanitized (text : Text) : Sanitized (sanitizeText text) := by
  obtain ⟨plain, short, fits⟩ := sanitizeText_spec text
  unfold Sanitized
  rw [sanitizeText, List.take_of_length_le short]
  exact sanitizeLoop_plain plain (by omega)

theorem f64OfNat_large {n : Nat} (large : 2 ^ 53 ≤ n) : 2 ^ 53 ≤ f64OfNat n := by
  have nonzero : n ≠ 0 := by omega
  have high : 53 ≤ n.log2 := (Nat.le_log2 nonzero).mpr large
  have kept : 2 ^ 52 ≤ n / 2 ^ (n.log2 - 52) := by
    rw [Nat.le_div_iff_mul_le (by positivity), ← pow_add]
    have whole : 52 + (n.log2 - 52) = n.log2 := by omega
    rw [whole]
    exact Nat.log2_self_le nonzero
  have unit : 2 ^ 1 ≤ 2 ^ (n.log2 - 52) := Nat.pow_le_pow_right (by decide) (by omega)
  have product : 2 ^ 52 * 2 ^ 1 ≤ n / 2 ^ (n.log2 - 52) * 2 ^ (n.log2 - 52) := Nat.mul_le_mul kept unit
  simp only [f64OfNat, if_neg (Nat.not_lt.mpr large)]
  split
  · have more : n / 2 ^ (n.log2 - 52) * 2 ^ (n.log2 - 52) ≤
        (n / 2 ^ (n.log2 - 52) + 1) * 2 ^ (n.log2 - 52) := Nat.mul_le_mul_right _ (Nat.le_succ _)
    exact Nat.le_trans product more
  · exact product

theorem floor_natCast (n : Nat) : (n : ℚ).floor.toNat = n := by
  have whole : (n : ℚ).floor = (n : ℤ) := Rat.floor_intCast n
  rw [whole, Int.toNat_natCast]

theorem finiteMs_jsonNat (n : Nat) : finiteMs (jsonNat n) = if n ≤ maxSafeIntegerMs then some n else none := by
  have positive : ¬ ((f64OfNat n : ℚ) < 0) := by
    exact fun negative => absurd negative (by linarith)
  simp only [finiteMs, jsonNat, Json.asF64, Option.bind_eq_bind, Option.bind_some, if_neg positive, floor_natCast]
  by_cases small : n < 2 ^ 53
  · rw [f64OfNat_exact small]
    have same : min n (2 ^ 64 - 1) = n := by omega
    rw [same]
  · have large := f64OfNat_large (Nat.not_lt.mp small)
    have beyond : ¬ min (f64OfNat n) (2 ^ 64 - 1) ≤ maxSafeIntegerMs := by
      simp only [maxSafeIntegerMs]
      omega
    rw [if_neg beyond, if_neg (by simp only [maxSafeIntegerMs]; omega)]

theorem leaseSecFromJson_jsonNat (n : Nat) : leaseSecFromJson (jsonNat n) = some (min (f64OfNat n) (2 ^ 32 - 1)) := by
  have positive : ¬ ((f64OfNat n : ℚ) < 0) := by
    exact fun negative => absurd negative (by linarith)
  simp only [leaseSecFromJson, jsonNat, Json.asF64, Option.bind_eq_bind, Option.bind_some,
    if_neg positive, floor_natCast]

theorem WireKey.text_nonempty (wire : WireKey mac) : mac.text.isEmpty = false := by
  obtain ⟨pairs, text, shape, ne, _⟩ := wire
  obtain ⟨pair, rest, rfl⟩ := List.exists_cons_of_length_pos ne
  obtain ⟨a, b, rfl⟩ := List.length_eq_two.mp (shape pair List.mem_cons_self).1
  rw [text]
  cases rest with
  | nil => rfl
  | cons next rest => simp

theorem LeaseType.fromStrLossy_asStr (kind : LeaseType) : LeaseType.fromStrLossy kind.asStr.toList = some kind := by
  cases kind with
  | dynamic | static | renewed | inform => decide

def reread (lease : LeaseInfo) : LeaseInfo :=
  { lease with
    leaseSec := min (f64OfNat lease.leaseSec) (2 ^ 32 - 1)
    remainingSec := (lease.expiresAt - lease.boundAt) / 1000 }

theorem leaseFromJson_leaseToJson {lease : LeaseInfo} (wire : WireKey lease.mac)
    (clean : ∀ name, lease.hostname = some name → Sanitized name) :
    leaseFromJson (leaseToJson lease) =
      if lease.boundAt ≤ maxSafeIntegerMs ∧ lease.expiresAt ≤ maxSafeIntegerMs then some (reread lease)
      else none := by
  have mac : (leaseToJson lease).get "mac" = some (.string lease.mac.text) := rfl
  have ip : (leaseToJson lease).get "ip" = some (.string lease.ip.toText) := rfl
  have boundAt : (leaseToJson lease).get "boundAt" = some (jsonNat lease.boundAt) := rfl
  have leaseSec : (leaseToJson lease).get "leaseSec" = some (jsonNat lease.leaseSec) := rfl
  have expiresAt : (leaseToJson lease).get "expiresAt" = some (jsonNat lease.expiresAt) := rfl
  have kind : (leaseToJson lease).get "leaseType" = some (.string lease.leaseType.asStr.toList) := rfl
  have hostname : hostnameFromJson ((leaseToJson lease).get "hostname") = some lease.hostname := by
    change hostnameFromJson (some (hostnameToJson lease.hostname)) = _
    cases name : lease.hostname with
    | none => rfl
    | some text => exact congrArg (fun text => some (some text)) (clean text name)
  simp only [leaseFromJson, mac, ip, boundAt, leaseSec, expiresAt, kind, hostname, Json.asStr,
    Option.bind_eq_bind, Option.bind_some, Option.filter_some, wire.text_nonempty, Bool.not_false,
    if_true, wire.reads, parseIpv4_toText, finiteMs_jsonNat, leaseSecFromJson_jsonNat,
    LeaseType.fromStrLossy_asStr]
  by_cases early : lease.boundAt ≤ maxSafeIntegerMs
  · by_cases late : lease.expiresAt ≤ maxSafeIntegerMs
    · simp only [if_pos early, if_pos late, if_pos (And.intro early late)]
      rfl
    · simp [if_neg late, if_neg (fun both : _ ∧ _ => late both.2)]
  · simp [if_neg early, if_neg (fun both : _ ∧ _ => early both.1)]

theorem quarantineFromJson_quarantineToJson (hold : Ipv4Addr × Nat) :
    quarantineFromJson (quarantineToJson hold) =
      if hold.2 ≤ maxSafeIntegerMs then some hold else none := by
  have ip : (quarantineToJson hold).get "ip" = some (.string hold.1.toText) := rfl
  have due : (quarantineToJson hold).get "until" = some (jsonNat hold.2) := rfl
  simp only [quarantineFromJson, ip, due, Json.asStr, Option.bind_eq_bind, Option.bind_some,
    parseIpv4_toText, finiteMs_jsonNat]
  by_cases early : hold.2 ≤ maxSafeIntegerMs
  · simp only [if_pos early]
    rfl
  · simp [if_neg early]

end NexTerminal.Dhcp
