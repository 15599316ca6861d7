import NexTerminal.Host.OptionAgreement

namespace NexTerminal.Host

open Library
open Dhcp (Text isWhitespace toAsciiLower)

/-- Lower-casing that leaves the margins alone, as `code` writes them. -/
structure CaseFold {β : Type} (low code : Text → List β) (space : β → Bool) : Prop where
  margins : ∀ front core back : Text, (∀ c ∈ front, isAnySpace c = true) →
    (∀ c ∈ back, isAnySpace c = true) →
    low (front ++ core ++ back) = code front ++ low core ++ code back
  trims : ∀ text : Text, trimWith space (low text) = low (trimWith isAnySpace text)
  empty : ∀ text : Text, low text = [] ↔ text = []
  spaces : ∀ front : Text, (∀ c ∈ front, isAnySpace c = true) → ∀ u ∈ code front, space u = true
  injective : ∀ front back : Text, code front = code back → front = back

def core (text : Text) : Text := trimWith isAnySpace text

/-- The white space one side's trim leaves around the core. -/
def marginsLeft (space : Char → Bool) (text : Text) : Text × Text :=
  ((leading isAnySpace text).dropWhile space, ((trailing isAnySpace text).reverse.dropWhile space).reverse)

section
variable {space : Char → Bool} (within : ∀ c, space c = true → isAnySpace c = true)
include within

theorem core_trimWith (text : Text) : core (trimWith space text) = core text := trimWith_trimWith within text

theorem trimWith_core {text : Text} (some : core text ≠ []) :
    trimWith space text = (marginsLeft space text).1 ++ core text ++ (marginsLeft space text).2 := by
  have bare : Bare space (core text) := (bare_trimWith text).weaken within
  calc trimWith space text
      = trimWith space (leading isAnySpace text ++ core text ++ trailing isAnySpace text) := by
        rw [core, trim_parts]
    _ = _ := trimWith_margins bare some

omit within in
theorem mem_marginsLeft (space : Char → Bool) (text : Text) :
    (∀ c ∈ (marginsLeft space text).1, isAnySpace c = true) ∧
      ∀ c ∈ (marginsLeft space text).2, isAnySpace c = true := by
  refine ⟨fun c mem => mem_leading c ((List.dropWhile_sublist _).mem mem), fun c mem => ?_⟩
  have inside := (List.dropWhile_sublist _).mem (List.mem_reverse.mp mem)
  exact mem_trailing c (List.mem_reverse.mp inside)

variable {β : Type} {low code : Text → List β} {spaceOf : β → Bool} (fold : CaseFold low code spaceOf)
include fold

omit within in
theorem CaseFold.bare {text : Text} : Bare spaceOf (low (core text)) := by
  rw [core, ← fold.trims]
  exact bare_trimWith _

/-- Folded and trimmed texts compare as their cores and their margins do. -/
theorem CaseFold.same_iff {configured observed : Text} (some : core configured ≠ []) :
    low (trimWith space observed) = low (trimWith space configured) ↔
      low (core observed) = low (core configured) ∧ marginsLeft space observed = marginsLeft space configured := by
  constructor
  · intro same
    have cores : low (core observed) = low (core configured) := by
      have trimmed := congrArg (trimWith spaceOf) same
      rw [fold.trims, fold.trims] at trimmed
      rwa [← core, ← core, core_trimWith within, core_trimWith within] at trimmed
    have some' : core observed ≠ [] := fun none => some ((fold.empty _).mp
      (cores.symm.trans ((fold.empty _).mpr none)))
    obtain ⟨front, back⟩ := mem_marginsLeft space configured
    obtain ⟨front', back'⟩ := mem_marginsLeft space observed
    rw [trimWith_core within some, trimWith_core within some', fold.margins _ _ _ front back,
      fold.margins _ _ _ front' back'] at same
    have first := margins_unique (fold.spaces _ front') (fold.spaces _ front) fold.bare fold.bare
      (by simpa [fold.empty] using some') (by simpa [fold.empty] using some) same
    rw [first, cores, List.append_cancel_left_eq] at same
    exact ⟨cores, Prod.ext (fold.injective _ _ first) (fold.injective _ _ same)⟩
  · rintro ⟨cores, margins⟩
    have some' : core observed ≠ [] := fun none => some ((fold.empty _).mp
      (cores.symm.trans ((fold.empty _).mpr none)))
    obtain ⟨front, back⟩ := mem_marginsLeft space configured
    rw [trimWith_core within some, trimWith_core within some', margins, fold.margins _ _ _ front back,
      fold.margins _ _ _ front back, cores]

/-- A blank text is what it is, whatever the case of the other. -/
theorem CaseFold.same_iff_of_blank {configured observed : Text} (none : core configured = []) :
    low (trimWith space observed) = low (trimWith space configured) ↔
      trimWith space observed = trimWith space configured := by
  refine ⟨fun same => ?_, fun same => by rw [same]⟩
  have blank : ∀ {text : Text}, core text = [] →
      low (trimWith space text) = code (trimWith space text) := by
    intro text none
    have all : ∀ c ∈ trimWith space text, isAnySpace c = true := by
      rw [← trimWith_eq_nil, trimWith_trimWith within]
      exact none
    have margins := fold.margins (trimWith space text) [] [] all (by simp)
    have nothing : low [] = [] := (fold.empty []).mpr rfl
    have coded : code [] = [] := by
      have whole := fold.margins [] [] [] (by simp) (by simp)
      rw [List.append_nil, List.append_nil, nothing, List.append_nil] at whole
      exact (List.append_eq_nil_iff.mp whole.symm).1
    rwa [List.append_nil, List.append_nil, nothing, coded, List.append_nil, List.append_nil] at margins
  have none' : core observed = [] := by
    have trimmed := congrArg (trimWith spaceOf) same
    rw [fold.trims, fold.trims] at trimmed
    rw [← core, ← core, core_trimWith within, core_trimWith within, none] at trimmed
    exact (fold.empty _).mp (trimmed.trans ((fold.empty []).mpr rfl))
  rw [blank none, blank none'] at same
  exact fold.injective _ _ same

end

def isAnySpaceUnit (u : UInt16) : Bool := isSpace u || u == 0x85

/-- What Unicode promises of `toLowerCase`: ASCII letters lose their case and white space stays what it is. -/
structure LowerCases (toLowerCase : JsString → JsString) : Prop where
  ascii : ∀ text other : Text, text.map toAsciiLower = other.map toAsciiLower →
    toLowerCase (encodeUtf16 text) = toLowerCase (encodeUtf16 other)
  margins : ∀ front core back : Text, (∀ c ∈ front, isAnySpace c = true) →
    (∀ c ∈ back, isAnySpace c = true) → toLowerCase (encodeUtf16 (front ++ core ++ back)) =
      encodeUtf16 front ++ toLowerCase (encodeUtf16 core) ++ encodeUtf16 back
  trims : ∀ text : Text, trimWith isAnySpaceUnit (toLowerCase (encodeUtf16 text)) =
    toLowerCase (encodeUtf16 (trimWith isAnySpace text))
  empty : ∀ text : Text, toLowerCase (encodeUtf16 text) = [] ↔ text = []

theorem isAnySpace_eq (c : Char) : isAnySpace c = (isSpaceChar c || c == nel) := by
  have known : isAnySpace nel = true := by decide
  rw [isSpaceChar_eq, isSpaceBut]
  by_cases same : c = nel
  · rw [same, known]; rfl
  · rw [bne_iff_ne.mpr same, beq_eq_false_iff_ne.mpr same, Bool.and_true, Bool.or_false]

theorem unitTest_anySpace : UnitTest isAnySpaceUnit isAnySpace where
  basic c small := by
    have size : (UInt16.ofNat c.toNat).toNat = c.toNat := UInt16.toNat_ofNat_of_lt' small
    rw [isAnySpace_eq, isAnySpaceUnit, unitTest_space.basic c small, Bool.eq_iff_iff]
    simp only [Bool.or_eq_true, beq_iff_eq, ← UInt16.toNat_inj, size, ← Char.toNat_inj]
    exact Iff.rfl
  astral c large := by
    have ne : c ≠ nel := fun same => large (by rw [same]; decide)
    rw [isAnySpace_eq, unitTest_space.astral c large, beq_eq_false_iff_ne.mpr ne, Bool.or_false]
  surrogate u is := by
    have ne : u ≠ 0x85 := fun same => by
      rw [same] at is
      exact absurd is (by decide)
    rw [isAnySpaceUnit, unitTest_space.surrogate u is, beq_eq_false_iff_ne.mpr ne, Bool.or_false]

variable {toLowerCase : JsString → JsString}

theorem LowerCases.fold (lower : LowerCases toLowerCase) :
    CaseFold (fun text => toLowerCase (encodeUtf16 text)) encodeUtf16 isAnySpaceUnit where
  margins := lower.margins
  trims := lower.trims
  empty := lower.empty
  spaces front all := by
    have units := unitTest_anySpace.all front
    rw [List.all_eq_true.mpr all, List.all_eq_true] at units
    exact units
  injective _ _ same := encodeUtf16_injective same

theorem upper_iff (c : Char) : 'A' ≤ c ∧ c ≤ 'Z' ↔ 0x41 ≤ c.toNat ∧ c.toNat ≤ 0x5A := by
  exact Iff.rfl

theorem isAnySpace_letter {c : Char} (low : 0x41 ≤ c.toNat) (high : c.toNat ≤ 0x7A) : isAnySpace c = false := by
  have bomIs : bom.toNat = 0xFEFF := by decide
  simp only [isAnySpace, isWhitespace, Bool.or_eq_false_iff, Bool.and_eq_false_iff,
    decide_eq_false_iff_not, beq_eq_false_iff_ne, ne_eq, ← Char.toNat_inj]
  omega

theorem isAnySpace_toAsciiLower (c : Char) : isAnySpace (toAsciiLower c) = isAnySpace c := by
  rw [toAsciiLower]
  split
  · rename_i upper
    obtain ⟨low, high⟩ := (upper_iff c).mp upper
    have valid : (c.toNat + 32).isValidChar := .inl (by omega)
    have lowered : (Char.ofNat (c.toNat + 32)).toNat = c.toNat + 32 := by
      rw [Char.ofNat, dif_pos valid]; rfl
    rw [isAnySpace_letter low (by omega), isAnySpace_letter (by omega) (by omega)]
  · rfl

theorem toAsciiLower_of_isAnySpace {c : Char} (space : isAnySpace c = true) : toAsciiLower c = c := by
  refine if_neg fun upper => ?_
  obtain ⟨low, high⟩ := (upper_iff c).mp upper
  rw [isAnySpace_letter low (by omega)] at space
  cases space

theorem asciiFold : CaseFold (List.map toAsciiLower) id isAnySpace where
  margins front core back pre after := by
    have same : ∀ {text : Text}, (∀ c ∈ text, isAnySpace c = true) → text.map toAsciiLower = text :=
      fun all => (List.map_congr_left fun c mem =>
        toAsciiLower_of_isAnySpace (all c mem)).trans (List.map_id _)
    rw [List.map_append, List.map_append, same pre, same after]
    rfl
  trims text := by
    have test : isAnySpace ∘ toAsciiLower = isAnySpace := funext isAnySpace_toAsciiLower
    simp [trimWith, List.dropWhile_map, ← List.map_reverse, test]
  empty text := List.map_eq_nil_iff
  spaces _ all := all
  injective _ _ same := same

/-- When the two gates agree. A blank class turns on the one character a side does not know; otherwise cores that
differ only by ASCII case must have margins both trims tell apart or neither, and cores only the host's folding makes
the same must have margins that keep them apart. -/
def VendorClassesAgree (toLowerCase : JsString → JsString) (configured observed : Text) : Prop :=
  if core configured = [] then
    (nel ∉ configured ∨ trimWith isSpaceChar observed = trimWith isSpaceChar configured ↔
      bom ∉ configured ∨ Dhcp.trim observed = Dhcp.trim configured)
  else if (core observed).map toAsciiLower = (core configured).map toAsciiLower then
    (marginsLeft isSpaceChar observed = marginsLeft isSpaceChar configured ↔
      marginsLeft isWhitespace observed = marginsLeft isWhitespace configured)
  else
    toLowerCase (encodeUtf16 (core observed)) = toLowerCase (encodeUtf16 (core configured)) →
      marginsLeft isSpaceChar observed ≠ marginsLeft isSpaceChar configured

theorem matchesVendorClass_host_iff (configured observed : Text) :
    matchesVendorClass toLowerCase (some (encodeUtf16 configured)) (some (encodeUtf16 observed)) =
        true ↔
      trimWith isSpaceChar configured = [] ∨
        toLowerCase (encodeUtf16 (trimWith isSpaceChar observed)) =
          toLowerCase (encodeUtf16 (trimWith isSpaceChar configured)) := by
  have blank : encodeUtf16 (trimWith isSpaceChar configured) = [] ↔
      trimWith isSpaceChar configured = [] :=
    ⟨fun same => encodeUtf16_injective same, fun same => by rw [same]; rfl⟩
  rw [matchesVendorClass, Option.map_some, trim, unitTest_space.trim, ← blank]
  cases encodeUtf16 (trimWith isSpaceChar configured) with
  | nil => simp [Option.filter]
  | cons u rest => simp [Option.filter, trim, unitTest_space.trim]

theorem matchesVendorClass_daemon_iff (configured observed : Text) :
    Dhcp.matchesVendorClass (some configured) (some observed) = true ↔
      Dhcp.trim configured = [] ∨
        (Dhcp.trim observed).map toAsciiLower = (Dhcp.trim configured).map toAsciiLower := by
  rw [Dhcp.matchesVendorClass, Option.map_some]
  cases Dhcp.trim configured with
  | nil | cons c rest => simp [Option.filter]

theorem isSpaceBut_within (stray : Char) : ∀ c, isSpaceBut stray c = true → isAnySpace c = true :=
  fun _ space => (Bool.and_eq_true_iff.mp space).1

theorem trimWith_isSpaceBut_eq_nil {stray : Char} {text : Text} (none : core text = []) :
    trimWith (isSpaceBut stray) text = [] ↔ stray ∉ text := by
  rw [core, trimWith_eq_nil] at none
  rw [trimWith_eq_nil]
  constructor
  · intro all mem
    simpa [isSpaceBut] using all stray mem
  · intro absent c mem
    have ne : (c != stray) = true := bne_iff_ne.mpr fun same => absent (same ▸ mem)
    rw [isSpaceBut, none c mem, ne]
    rfl

theorem matchesVendorClass_agree (lower : LowerCases toLowerCase) (configured observed : Text) :
    matchesVendorClass toLowerCase (some (encodeUtf16 configured)) (some (encodeUtf16 observed)) =
        Dhcp.matchesVendorClass (some configured) (some observed) ↔
      VendorClassesAgree toLowerCase configured observed := by
  rw [Bool.eq_iff_iff, matchesVendorClass_host_iff, matchesVendorClass_daemon_iff, VendorClassesAgree]
  have daemonTrim : Dhcp.trim = trimWith isWhitespace := rfl
  rw [daemonTrim, isSpaceChar_eq, isWhitespace_eq]
  have host := isSpaceBut_within nel
  have daemon := isSpaceBut_within bom
  split
  · rename_i none
    rw [lower.fold.same_iff_of_blank host none, asciiFold.same_iff_of_blank daemon none,
      trimWith_isSpaceBut_eq_nil none, trimWith_isSpaceBut_eq_nil none]
  · rename_i some
    have kept : ∀ {space : Char → Bool}, (∀ c, space c = true → isAnySpace c = true) →
        trimWith space configured ≠ [] := fun within blank => some (by
      rw [← core_trimWith within, blank]; rfl)
    rw [lower.fold.same_iff host some, asciiFold.same_iff daemon some, or_iff_right (kept host),
      or_iff_right (kept daemon)]
    split
    · rename_i ascii
      rw [iff_true_intro ascii, iff_true_intro (lower.ascii _ _ ascii), true_and, true_and]
    · rename_i ne
      rw [iff_false_intro ne, false_and, iff_false, not_and]

end NexTerminal.Host
