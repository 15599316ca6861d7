import Mathlib.Data.List.Lex
import NexTerminal.Library.SeqMap
import NexTerminal.Library.UriText
import NexTerminal.Library.Utf16
import NexTerminal.Inventory.FolderPaths

/-! Rule filters of device templates (`services/inventory/templateApply.ts`): how they are
parsed, and which devices they match. -/

namespace NexTerminal.Inventory

open Library

/-- What the filters take from the platform: the decoder of `URLSearchParams`,
`String.prototype.toLowerCase`, and what a case-insensitive `RegExp` compares of a code unit. -/
structure TextPlatform where
  utf8Decode : List UInt8 → Text
  toLowerCase : Text → Text
  canonicalize : UInt16 → UInt16

inductive AttributeValue
  | one (value : Text)
  | many (values : List Text)
deriving DecidableEq

/-- A device as far as filters go. The attributes are in the order of `Object.keys`. -/
structure InventoryDevice where
  name : Text
  attributes : Option (SeqMap Text AttributeValue) := none

structure ParsedFilter where
  conditions : SeqMap Text (SeqSet Text)
  specificity : Nat
  normalized : Text
  emptyValueKeys : List Text

/-- Text as `<` and `sort` compare it. -/
def codeUnits (text : Text) : List Nat := (encodeUtf16 text).map UInt16.toNat

def sortTexts (texts : List Text) : List Text := texts.mergeSort fun a b => decide (codeUnits a ≤ codeUnits b)

def isCatchAllFilter (filter : Option Text) : Bool := filter.all fun text => (trim text).isEmpty

def nameMatchesEverything (values : SeqSet Text) : Bool := values.items.contains "*".toList

/-- The conditions read so far, and the keys seen without a value. -/
structure FilterScan where
  conditions : SeqMap Text (SeqSet Text) := .empty
  emptyValueKeys : SeqSet Text := .empty

/-- The filter key is `tag`; the attribute is `tags`. -/
def aliasedKey (key : Text) : Text := if key = "tag".toList then "tags".toList else key

def FilterScan.read (env : TextPlatform) (scan : FilterScan) (param : Text × Text) : FilterScan :=
  let folded := env.toLowerCase (trim param.1)
  if folded.isEmpty then scan
  else
    let key := aliasedKey folded
    let value := env.toLowerCase (trim param.2)
    if value.isEmpty then { scan with emptyValueKeys := scan.emptyValueKeys.add key }
    else
      { scan with
        conditions := scan.conditions.set key (((scan.conditions.get? key).getD .empty).add value) }

/-- A `name` glob that matches everything constrains nothing. -/
def specificityOf (conditions : SeqMap Text (SeqSet Text)) : Nat :=
  (conditions.entries.filter fun entry => !(entry.1 == "name".toList && nameMatchesEverything entry.2)).length

def normalizedCondition (key : Text) (values : SeqSet Text) : Text :=
  encodeURIComponent key ++ ['='] ++ List.intercalate [','] (sortTexts (values.items.map encodeURIComponent))

def normalizedOf (conditions : SeqMap Text (SeqSet Text)) : Text :=
  List.intercalate ['&'] ((sortTexts conditions.keys).map fun key =>
    normalizedCondition key ((conditions.get? key).getD .empty))

def scanFilter (env : TextPlatform) (filter : Option Text) : FilterScan :=
  (searchParams env.utf8Decode (filter.getD [])).foldl (FilterScan.read env) {}

def parseTemplateFilter (env : TextPlatform) (filter : Option Text) : ParsedFilter :=
  let scan := scanFilter env filter
  { conditions := scan.conditions
    specificity := specificityOf scan.conditions
    normalized := normalizedOf scan.conditions
    emptyValueKeys := scan.emptyValueKeys.items }

def isLineTerminator (u : UInt16) : Bool := u == 0x0A || u == 0x0D || u == 0x2028 || u == 0x2029

def starMatches (rest : List UInt16 → Bool) : List UInt16 → Bool
  | [] => rest []
  | u :: units => rest (u :: units) || (!isLineTerminator u && starMatches rest units)

def patternMatches (env : TextPlatform) : List UInt16 → List UInt16 → Bool
  | [], units => units.isEmpty
  | p :: pattern, units =>
    if p = 0x2A then starMatches (patternMatches env pattern) units
    else match units with
      | [] => false
      | u :: units => env.canonicalize p == env.canonicalize u && patternMatches env pattern units

def nameGlobMatches (env : TextPlatform) (name glob : Text) : Bool :=
  patternMatches env (encodeUtf16 glob) (encodeUtf16 name)

def lookupAttributeCaseInsensitive (env : TextPlatform) (attributes : Option (SeqMap Text AttributeValue))
    (key : Text) : Option AttributeValue :=
  attributes.bind fun attributes =>
    (attributes.entries.find? fun entry => env.toLowerCase entry.1 = key).map Prod.snd

def AttributeValue.values : AttributeValue → List Text
  | one value => [value]
  | many values => values

def meetsCondition (env : TextPlatform) (device : InventoryDevice) (key : Text) (values : SeqSet Text) : Bool :=
  if key = "name".toList then values.items.any fun glob => nameGlobMatches env device.name glob
  else
    let direct := device.attributes.bind fun attributes => attributes.get? key
    match direct <|> lookupAttributeCaseInsensitive env device.attributes key with
    | none => false
    | some held =>
      let attrValues := held.values.map fun value => env.toLowerCase (trim value)
      values.items.any fun value => attrValues.contains value

def deviceMatchesFilter (env : TextPlatform) (device : InventoryDevice) (parsed : ParsedFilter) : Bool :=
  parsed.emptyValueKeys.isEmpty &&
    parsed.conditions.entries.all fun entry => meetsCondition env device entry.1 entry.2

theorem mem_sortTexts {texts : List Text} {text : Text} : text ∈ sortTexts texts ↔ text ∈ texts :=
  List.mem_mergeSort

theorem intercalate_injective {c : Char} {first second : List Text} (plain : ∀ piece ∈ first, c ∉ piece)
    (plain' : ∀ piece ∈ second, c ∉ piece) (filled : ∀ piece ∈ first, piece ≠ [])
    (filled' : ∀ piece ∈ second, piece ≠ [])
    (same : List.intercalate [c] first = List.intercalate [c] second) : first = second := by
  have bare : ∀ {pieces : List Text}, (∀ piece ∈ pieces, piece ≠ []) → List.intercalate [c] pieces = [] →
    pieces = [] := by
    intro pieces filled nothing
    cases pieces with
    | nil => rfl
    | cons piece rest =>
      have front : piece = [] := by
        cases rest with
        | nil => rwa [List.intercalate_singleton] at nothing
        | cons next rest =>
          rw [List.intercalate_cons_cons] at nothing
          exact (List.append_eq_nil_iff.mp (List.append_eq_nil_iff.mp nothing).1).1
      exact absurd front (filled piece List.mem_cons_self)
  by_cases empty : first = []
  · subst empty
    exact (bare filled' same.symm).symm
  · have more : second ≠ [] := by
      rintro rfl
      exact empty (bare filled same)
    rw [← List.splitOn_intercalate c plain empty, same, List.splitOn_intercalate c plain' more]

theorem encoded_plain (c : Char) (separates : c = '&' ∨ c = ',' ∨ c = '=') (text : Text) :
    c ∉ encodeURIComponent text := by
  intro mem
  obtain ⟨amp, comma, equals⟩ := encodeURIComponent_plain mem
  rcases separates with rfl | rfl | rfl
  · exact amp rfl
  · exact comma rfl
  · exact equals rfl

variable {values : SeqSet Text}

theorem encodedValues_plain {piece : Text} (mem : piece ∈ sortTexts (values.items.map encodeURIComponent)) :
    ∃ value ∈ values, piece = encodeURIComponent value := by
  obtain ⟨value, known, rfl⟩ := List.mem_map.mp (mem_sortTexts.mp mem)
  exact ⟨value, known, rfl⟩

theorem append_cons_cancel {α : Type} [DecidableEq α] {c : α} {front other rest tail : List α}
    (plain : c ∉ front) (plain' : c ∉ other)
    (same : front ++ c :: rest = other ++ c :: tail) : front = other ∧ rest = tail := by
  have cut : ∀ {front rest : List α}, c ∉ front → (front ++ c :: rest).takeWhile (· ≠ c) = front := by
    intro front rest plain
    rw [List.takeWhile_append_of_pos, List.takeWhile_cons_of_neg (by simp), List.append_nil]
    intro a mem
    exact decide_eq_true fun hit => plain (hit ▸ mem)
  have fronts : front = other := by rw [← @cut _ rest plain, same, cut plain']
  subst fronts
  exact ⟨rfl, (List.cons.inj (List.append_cancel_left same)).2⟩

theorem normalizedCondition_injective {key other : Text} {others : SeqSet Text}
    (filled : ∀ value ∈ values, value ≠ []) (filled' : ∀ value ∈ others, value ≠ [])
    (same : normalizedCondition key values = normalizedCondition other others) :
    key = other ∧ ∀ value, value ∈ values ↔ value ∈ others := by
  unfold normalizedCondition at same
  rw [List.append_assoc, List.append_assoc, List.singleton_append, List.singleton_append] at same
  obtain ⟨keys, joined⟩ :=
    append_cons_cancel (encoded_plain '=' (by simp) key) (encoded_plain '=' (by simp) other) same
  have pieces := intercalate_injective
    (fun piece mem => by
      obtain ⟨value, -, rfl⟩ := encodedValues_plain mem
      exact encoded_plain ',' (by simp) value)
    (fun piece mem => by
      obtain ⟨value, -, rfl⟩ := encodedValues_plain mem
      exact encoded_plain ',' (by simp) value)
    (fun piece mem => by
      obtain ⟨value, known, rfl⟩ := encodedValues_plain mem
      exact encodeURIComponent_ne_nil (filled value known))
    (fun piece mem => by
      obtain ⟨value, known, rfl⟩ := encodedValues_plain mem
      exact encodeURIComponent_ne_nil (filled' value known)) joined
  refine ⟨encodeURIComponent_injective keys, fun value => ?_⟩
  have listed : ∀ set : SeqSet Text,
      value ∈ set ↔ encodeURIComponent value ∈ sortTexts (set.items.map encodeURIComponent) := by
    intro set
    rw [mem_sortTexts, List.mem_map_of_injective encodeURIComponent_injective, SeqSet.mem_items]
  rw [listed, listed, pieces]

/-- Every condition has a key and asks for values that are not empty. -/
def Filled (conditions : SeqMap Text (SeqSet Text)) : Prop :=
  ∀ key values, conditions.get? key = some values → ∀ value ∈ values, value ≠ []

variable {env : TextPlatform}

theorem FilterScan.read_filled {scan : FilterScan} {param : Text × Text} (filled : Filled scan.conditions) :
    Filled (scan.read env param).conditions := by
  intro key values held value mem
  unfold FilterScan.read at held
  dsimp only at held
  split at held
  · exact filled key values held value mem
  · split at held
    · exact filled key values held value mem
    · rename_i ne
      rw [SeqMap.get?_set] at held
      split at held
      · rename_i same
        obtain rfl := Option.some.inj held
        rcases SeqSet.mem_add.mp mem with known | rfl
        · rw [same] at known
          cases pre : scan.conditions.get? key with
          | none =>
            rw [pre] at known
            exact absurd known (SeqSet.not_mem_empty _)
          | some earlier =>
            rw [pre] at known
            exact filled key earlier pre value known
        · simpa using ne
      · exact filled key values held value mem

theorem scanFilter_filled (env : TextPlatform) (filter : Option Text) :
    Filled (scanFilter env filter).conditions := by
  have run : ∀ (params : List (Text × Text)) (scan : FilterScan), Filled scan.conditions →
      Filled (params.foldl (FilterScan.read env) scan).conditions := by
    intro params
    induction params with
    | nil => exact fun _ filled => filled
    | cons param rest ih => exact fun scan filled => ih _ (FilterScan.read_filled filled)
  exact run _ {} fun key values absent => by cases absent

theorem normalizedCondition_plain (key : Text) (values : SeqSet Text) : '&' ∉ normalizedCondition key values := by
  intro mem
  rcases List.mem_append.mp mem with front | back
  · rcases List.mem_append.mp front with inKey | equals
    · exact encoded_plain '&' (by simp) key inKey
    · exact absurd (List.mem_singleton.mp equals) (by decide)
  · have ne : ∀ c ∈ List.intercalate [','] (sortTexts (values.items.map encodeURIComponent)), c ≠ '&' := by
      refine forall_mem_intercalate (by decide) ?_
      intro piece listed c inside hit
      obtain ⟨value, -, rfl⟩ := encodedValues_plain listed
      exact encoded_plain '&' (by simp) value (hit ▸ inside)
    exact ne '&' back rfl

theorem normalizedCondition_ne_nil (key : Text) (values : SeqSet Text) : normalizedCondition key values ≠ [] := by
  simp [normalizedCondition]

theorem conditions_of_normalized {first second : SeqMap Text (SeqSet Text)} (filled : Filled first)
    (filled' : Filled second) (same : normalizedOf first = normalizedOf second) {key : Text}
    (held : first.get? key = some values) :
    ∃ others, second.get? key = some others ∧ ∀ value, value ∈ values ↔ value ∈ others := by
  have pieces := intercalate_injective
    (fun piece mem => by
      obtain ⟨-, -, rfl⟩ := List.mem_map.mp mem
      exact normalizedCondition_plain _ _)
    (fun piece mem => by
      obtain ⟨-, -, rfl⟩ := List.mem_map.mp mem
      exact normalizedCondition_plain _ _)
    (fun piece mem => by
      obtain ⟨-, -, rfl⟩ := List.mem_map.mp mem
      exact normalizedCondition_ne_nil _ _)
    (fun piece mem => by
      obtain ⟨-, -, rfl⟩ := List.mem_map.mp mem
      exact normalizedCondition_ne_nil _ _) same
  have listed : normalizedCondition key values ∈ (sortTexts first.keys).map fun key =>
      normalizedCondition key ((first.get? key).getD .empty) := by
    refine List.mem_map.mpr ⟨key, mem_sortTexts.mpr (SeqMap.mem_keys.mpr (by rw [held]; rfl)), ?_⟩
    rw [held, Option.getD_some]
  rw [pieces] at listed
  obtain ⟨other, known, shape⟩ := List.mem_map.mp listed
  obtain ⟨others, hit⟩ := Option.isSome_iff_exists.mp (SeqMap.mem_keys.mp (mem_sortTexts.mp known))
  rw [hit, Option.getD_some] at shape
  obtain ⟨rfl, members⟩ := normalizedCondition_injective (filled' other others hit) (filled key values held) shape
  exact ⟨others, hit, fun value => (members value).symm⟩

theorem meetsCondition_congr {dev : InventoryDevice} {key : Text} {others : SeqSet Text}
    (same : ∀ value, value ∈ values ↔ value ∈ others) :
    meetsCondition env dev key values = meetsCondition env dev key others := by
  have anys : ∀ holds : Text → Bool, values.items.any holds = others.items.any holds := by
    intro holds
    rw [Bool.eq_iff_iff, List.any_eq_true, List.any_eq_true]
    exact exists_congr fun value => and_congr_left fun _ => same value
  simp only [meetsCondition, anys]

/-- A device matches when it meets every condition and no key lacks a value. -/
theorem deviceMatchesFilter_iff {dev : InventoryDevice} {parsed : ParsedFilter} :
    deviceMatchesFilter env dev parsed = true ↔ parsed.emptyValueKeys = [] ∧
      ∀ key values, parsed.conditions.get? key = some values → meetsCondition env dev key values = true := by
  simp [deviceMatchesFilter, SeqMap.mem_entries]

theorem matches_of_normalized {filter other : Option Text}
    (alive : (parseTemplateFilter env filter).emptyValueKeys = [])
    (alive' : (parseTemplateFilter env other).emptyValueKeys = [])
    (same : (parseTemplateFilter env filter).normalized = (parseTemplateFilter env other).normalized)
    (dev : InventoryDevice) : deviceMatchesFilter env dev (parseTemplateFilter env filter) =
      deviceMatchesFilter env dev (parseTemplateFilter env other) := by
  have within : ∀ {filter other : Option Text}, (parseTemplateFilter env other).emptyValueKeys = [] →
      (parseTemplateFilter env other).normalized = (parseTemplateFilter env filter).normalized →
      deviceMatchesFilter env dev (parseTemplateFilter env filter) = true →
      deviceMatchesFilter env dev (parseTemplateFilter env other) = true := by
    intro filter other alive same met
    refine deviceMatchesFilter_iff.mpr ⟨alive, fun key values held => ?_⟩
    obtain ⟨others, hit, members⟩ := conditions_of_normalized (scanFilter_filled env other)
      (scanFilter_filled env filter) same held
    rw [meetsCondition_congr members]
    exact (deviceMatchesFilter_iff.mp met).2 key others hit
  rw [Bool.eq_iff_iff]
  exact ⟨within alive' same.symm, within alive same⟩

end NexTerminal.Inventory
