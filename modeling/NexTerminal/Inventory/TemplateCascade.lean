import Mathlib.Data.Prod.Lex
import Mathlib.Order.Lex
import NexTerminal.Inventory.TemplateFilter

namespace NexTerminal.Inventory

open Library

inductive TemplatableField
  | proxy | authProfileId | multiplexing | legacyAlgorithms | logSession | ipmiAuthProfileId | ipmiGatewayServerId
deriving DecidableEq

namespace TemplatableField

abbrev Value : TemplatableField → Type
  | proxy => ProxyConfig
  | multiplexing | legacyAlgorithms | logSession => Bool
  | authProfileId | ipmiAuthProfileId | ipmiGatewayServerId => Text

/-- `TEMPLATE_FIELD_SHORT_LABELS`. -/
def shortLabel : TemplatableField → Text
  | proxy => "Proxy".toList
  | authProfileId => "Auth Profile".toList
  | multiplexing => "Multiplexing".toList
  | legacyAlgorithms => "Legacy Algorithms".toList
  | logSession => "Session Logging".toList
  | ipmiAuthProfileId => "IPMI Auth Profile".toList
  | ipmiGatewayServerId => "IPMI Gateway".toList

end TemplatableField

inductive TemplateFieldMode
  | fill | override
deriving DecidableEq

structure TemplateField (T : Type) where
  mode : TemplateFieldMode
  value : T
deriving DecidableEq

structure DeviceTemplateFields where
  proxy : Option (TemplateField ProxyConfig) := none
  authProfileId : Option (TemplateField Text) := none
  multiplexing : Option (TemplateField Bool) := none
  legacyAlgorithms : Option (TemplateField Bool) := none
  logSession : Option (TemplateField Bool) := none
  ipmiAuthProfileId : Option (TemplateField Text) := none
  ipmiGatewayServerId : Option (TemplateField Text) := none

structure DeviceTemplateProfile where
  name : Text
  fields : DeviceTemplateFields

def DeviceTemplateProfile.pick (template : DeviceTemplateProfile) :
    (field : TemplatableField) → Option (TemplateField field.Value)
  | .proxy => template.fields.proxy
  | .authProfileId => template.fields.authProfileId
  | .multiplexing => template.fields.multiplexing
  | .legacyAlgorithms => template.fields.legacyAlgorithms
  | .logSession => template.fields.logSession
  | .ipmiAuthProfileId => template.fields.ipmiAuthProfileId
  | .ipmiGatewayServerId => template.fields.ipmiGatewayServerId

structure PreparedRule where
  rule : TemplateRule
  template : DeviceTemplateProfile
  parsed : ParsedFilter
  isCatchAll : Bool

structure FieldProvenance where
  templateName : Text
  ruleFilter : Option Text
deriving DecidableEq

def filterLabel (filter : Option Text) : Text :=
  match filter with
  | some text => if (trim text).isEmpty then "(all devices)".toList else text
  | none => "(all devices)".toList

def proxyEqual (a b : ProxyConfig) : Bool := proxyConfigsEqual (some a) (some b)

def valuesEqual : (field : TemplatableField) → field.Value → field.Value → Bool
  | .proxy => proxyEqual
  | .multiplexing | .legacyAlgorithms | .logSession => fun a b : Bool => a == b
  | .authProfileId | .ipmiAuthProfileId | .ipmiGatewayServerId => fun a b : Text => a == b

def agree {field : TemplatableField} (a b : TemplateField field.Value) : Bool :=
  a.mode == b.mode && valuesEqual field a.value b.value

/-- The comparison that sorts the rules: more conditions first, then by the filter's normal
form, then by the rule's id. -/
def compareRules (a b : PreparedRule) : Int :=
  if a.parsed.specificity ≠ b.parsed.specificity then b.parsed.specificity - a.parsed.specificity
  else if a.parsed.normalized ≠ b.parsed.normalized then
    if codeUnits a.parsed.normalized < codeUnits b.parsed.normalized then -1 else 1
  else if codeUnits a.rule.id < codeUnits b.rule.id then -1
  else if codeUnits b.rule.id < codeUnits a.rule.id then 1
  else 0

def sortRules (rules : List PreparedRule) : List PreparedRule :=
  rules.mergeSort fun a b => decide (compareRules a b ≤ 0)

structure TieWarning where
  field : TemplatableField
  deviceName : Text
  winner : Option Text
  other : Option Text

def TieWarning.text (tie : TieWarning) : Text :=
  "Device \"".toList ++ tie.deviceName ++ "\": rules \"".toList ++ filterLabel tie.winner ++ "\" and \"".toList ++
    filterLabel tie.other ++ "\" tie for ".toList ++ tie.field.shortLabel ++ "; applied \"".toList ++
    filterLabel tie.winner ++
    "\" (rule order is not used — make one rule more specific to choose deliberately).".toList

structure Resolution (field : TemplatableField) where
  field : TemplateField field.Value
  provenance : FieldProvenance
  warning : Option TieWarning

/-- A rule of the same specificity whose filter is another and that sets the field otherwise. -/
def disagrees (field : TemplatableField) (winner c : PreparedRule) : Bool :=
  c.parsed.specificity == winner.parsed.specificity && c.parsed.normalized != winner.parsed.normalized &&
    !(match c.template.pick field, winner.template.pick field with
      | some a, some b => agree a b
      | _, _ => true)

def resolveField (device : InventoryDevice) (candidates : List PreparedRule) (field : TemplatableField) :
    Option (Resolution field) :=
  match sortRules (candidates.filter fun c => (c.template.pick field).isSome) with
  | [] => none
  | winner :: others => (winner.template.pick field).map fun winField =>
    { field := winField
      provenance := { templateName := winner.template.name, ruleFilter := winner.rule.filter }
      warning := (others.find? (disagrees field winner)).map fun disagreeing =>
        { field, deviceName := device.name, winner := winner.rule.filter, other := disagreeing.rule.filter } }

structure CascadeResult where
  winners : (field : TemplatableField) → Option (TemplateField field.Value)
  authFromImplicit : Bool
  warnings : List Text
  proxyTemplateName : Option Text
  matchedRuleIds : List Text
  provenance : TemplatableField → Option FieldProvenance

def resolutionOrder : List TemplatableField :=
  [.proxy, .multiplexing, .legacyAlgorithms, .logSession, .ipmiAuthProfileId, .ipmiGatewayServerId, .authProfileId]

/-- The source's own auth profile, a rule below every explicit one. -/
def implicitWinner (implicitAuthProfileId : Option Text) :
    (field : TemplatableField) → Option (TemplateField field.Value)
  | .authProfileId => implicitAuthProfileId.map fun id => { mode := .fill, value := id }
  | _ => none

def isCandidate (env : TextPlatform) (device : InventoryDevice) (p : PreparedRule) : Bool :=
  p.isCatchAll || deviceMatchesFilter env device p.parsed

def selectFieldWinners (env : TextPlatform) (device : InventoryDevice) (prepared : List PreparedRule)
    (implicitAuthProfileId : Option Text) : CascadeResult :=
  let candidates := prepared.filter (isCandidate env device)
  { winners := fun field =>
      ((resolveField device candidates field).map Resolution.field) <|> implicitWinner implicitAuthProfileId field
    authFromImplicit := (resolveField device candidates .authProfileId).isNone && implicitAuthProfileId.isSome
    warnings := resolutionOrder.filterMap fun field =>
      ((resolveField device candidates field).bind Resolution.warning).map TieWarning.text
    proxyTemplateName := (resolveField device candidates .proxy).map fun won => won.provenance.templateName
    matchedRuleIds := candidates.map fun p => p.rule.id
    provenance := fun field => (resolveField device candidates field).map Resolution.provenance }

theorem codeUnits_injective : Function.Injective codeUnits := by
  intro first second same
  have units : encodeUtf16 first = encodeUtf16 second :=
    List.map_injective_iff.mpr (fun a b hit => UInt16.toNat_inj.mp hit) same
  rw [← decodeUtf16_encodeUtf16 first, units, decodeUtf16_encodeUtf16]

def rank (p : PreparedRule) : ℕᵒᵈ ×ₗ List ℕ ×ₗ List ℕ :=
  toLex (OrderDual.toDual p.parsed.specificity, toLex (codeUnits p.parsed.normalized, codeUnits p.rule.id))

theorem compareRules_le_iff {a b : PreparedRule} : compareRules a b ≤ 0 ↔ rank a ≤ rank b := by
  simp only [rank, Prod.Lex.toLex_le_toLex, OrderDual.toDual_lt_toDual, OrderDual.toDual_inj]
  unfold compareRules
  split
  · omega
  · rename_i same
    have level : a.parsed.specificity = b.parsed.specificity := Decidable.not_not.mp same
    simp only [level]
    split
    · rename_i ne
      have differ : codeUnits a.parsed.normalized ≠ codeUnits b.parsed.normalized := codeUnits_injective.ne ne
      split
      · rename_i less
        simp [less]
      · rename_i notLess
        simp [notLess, differ]
    · rename_i same
      have equal : a.parsed.normalized = b.parsed.normalized := Decidable.not_not.mp same
      simp only [equal]
      split
      · rename_i less
        simp [less.le]
      · split
        · rename_i more
          simp [more]
        · rename_i notMore
          simp [not_lt.mp notMore]

theorem sortRules_sorted (rules : List PreparedRule) : (sortRules rules).Pairwise fun a b => rank a ≤ rank b := by
  have sorted := @List.pairwise_mergeSort _ (fun a b => decide (compareRules a b ≤ 0))
    (fun a b c first second => by
      simp only [decide_eq_true_eq, compareRules_le_iff] at first second ⊢
      exact first.trans second)
    (fun a b => by
      simp only [Bool.or_eq_true, decide_eq_true_eq, compareRules_le_iff]
      exact le_total _ _) rules
  exact sorted.imp fun less => compareRules_le_iff.mp (of_decide_eq_true less)

theorem mem_sortRules {rules : List PreparedRule} {p : PreparedRule} : p ∈ sortRules rules ↔ p ∈ rules :=
  List.mem_mergeSort

theorem sortRules_perm {rules others : List PreparedRule} (nodup : (rules.map fun p => p.rule.id).Nodup)
    (perm : rules.Perm others) : sortRules rules = sortRules others := by
  have same : (sortRules rules).Perm (sortRules others) :=
    (List.mergeSort_perm _ _).trans (perm.trans (List.mergeSort_perm _ _).symm)
  refine same.eq_of_pairwise ?_ (sortRules_sorted rules) (sortRules_sorted others)
  intro a b known known' less more
  have equal := le_antisymm less more
  simp only [rank, EmbeddingLike.apply_eq_iff_eq, Prod.mk.injEq] at equal
  exact List.inj_on_of_nodup_map nodup (mem_sortRules.mp known) (perm.mem_iff.mpr (mem_sortRules.mp known'))
    (codeUnits_injective equal.2.2)

theorem proxyEqual_iff {a b : ProxyConfig} : proxyEqual a b = true ↔ a = b := by
  rw [proxyEqual, proxyConfigsEqual_iff, Option.some.injEq]

theorem valuesEqual_iff {field : TemplatableField} {a b : field.Value} : valuesEqual field a b = true ↔ a = b := by
  cases field with
  | proxy => exact proxyEqual_iff
  | authProfileId | multiplexing | legacyAlgorithms | logSession | ipmiAuthProfileId | ipmiGatewayServerId =>
    exact beq_iff_eq

theorem agree_iff {field : TemplatableField} {a b : TemplateField field.Value} : agree a b = true ↔ a = b := by
  obtain ⟨-, -⟩ := a
  obtain ⟨-, -⟩ := b
  simp [agree, valuesEqual_iff]

variable {env : TextPlatform} {device : InventoryDevice} {prepared candidates : List PreparedRule}
  {field : TemplatableField}

def sets (field : TemplatableField) (p : PreparedRule) : Bool := (p.template.pick field).isSome

theorem disagrees_iff {winner c : PreparedRule} (set' : sets field c = true) (set : sets field winner = true) :
    disagrees field winner c = true ↔ c.parsed.specificity = winner.parsed.specificity ∧
      c.parsed.normalized ≠ winner.parsed.normalized ∧ c.template.pick field ≠ winner.template.pick field := by
  obtain ⟨a, held⟩ := Option.isSome_iff_exists.mp set'
  obtain ⟨b, held'⟩ := Option.isSome_iff_exists.mp set
  have differ : agree a b = false ↔ a ≠ b := by rw [← Bool.not_eq_true, agree_iff]
  simp [disagrees, held, held', differ,
    and_assoc]

/-- The rule that comes first among those that match the device and set the field. -/
structure Wins (env : TextPlatform) (device : InventoryDevice) (prepared : List PreparedRule)
    (field : TemplatableField) (winner : PreparedRule) : Prop where
  known : winner ∈ prepared
  candidate : isCandidate env device winner = true
  sets : sets field winner = true
  first : ∀ p ∈ prepared, isCandidate env device p = true → Inventory.sets field p = true →
    compareRules winner p ≤ 0

/-- Another rule with as many conditions and another filter sets the field otherwise. -/
def Tied (env : TextPlatform) (device : InventoryDevice) (prepared : List PreparedRule)
    (field : TemplatableField) (winner : PreparedRule) : Prop :=
  ∃ c ∈ prepared, isCandidate env device c = true ∧ sets field c = true ∧
    c.parsed.specificity = winner.parsed.specificity ∧ c.parsed.normalized ≠ winner.parsed.normalized ∧
    c.template.pick field ≠ winner.template.pick field

/-- The rules among which the field's winner is found, in order. -/
def ranked (env : TextPlatform) (device : InventoryDevice) (prepared : List PreparedRule)
    (field : TemplatableField) : List PreparedRule :=
  sortRules ((prepared.filter (isCandidate env device)).filter (sets field))

theorem mem_ranked {p : PreparedRule} : p ∈ ranked env device prepared field ↔
    p ∈ prepared ∧ isCandidate env device p = true ∧ sets field p = true := by
  rw [ranked, mem_sortRules, List.mem_filter, List.mem_filter, and_assoc]

theorem resolveField_eq (env : TextPlatform) (device : InventoryDevice) (prepared : List PreparedRule)
    (field : TemplatableField) :
    resolveField device (prepared.filter (isCandidate env device)) field =
      match ranked env device prepared field with
      | [] => none
      | winner :: others => (winner.template.pick field).map fun winField =>
        { field := winField
          provenance := { templateName := winner.template.name, ruleFilter := winner.rule.filter }
          warning := (others.find? (disagrees field winner)).map fun disagreeing =>
            { field, deviceName := device.name, winner := winner.rule.filter,
              other := disagreeing.rule.filter } } := rfl

theorem resolveField_eq_none
    (nothing : resolveField device (prepared.filter (isCandidate env device)) field = none) :
    ∀ p ∈ prepared, isCandidate env device p = true → sets field p = false := by
  intro p known cand
  by_contra set
  have mem : p ∈ ranked env device prepared field :=
    mem_ranked.mpr ⟨known, cand, Bool.not_eq_false _ ▸ set⟩
  rw [resolveField_eq] at nothing
  cases order : ranked env device prepared field with
  | nil =>
    rw [order] at mem
    exact absurd mem List.not_mem_nil
  | cons winner others =>
    rw [order] at nothing
    have winnerSets := (mem_ranked.mp (order ▸ List.mem_cons_self : winner ∈ ranked env device prepared field)).2.2
    rw [Option.map_eq_none_iff] at nothing
    rw [sets, nothing] at winnerSets
    cases winnerSets

theorem resolveField_spec {resolved : Resolution field}
    (hit : resolveField device (prepared.filter (isCandidate env device)) field = some resolved) :
    ∃ winner, Wins env device prepared field winner ∧ winner.template.pick field = some resolved.field ∧
      resolved.provenance = { templateName := winner.template.name, ruleFilter := winner.rule.filter } ∧
      (resolved.warning.isSome = true ↔ Tied env device prepared field winner) ∧
      ∀ tie ∈ resolved.warning, tie.field = field ∧ tie.deviceName = device.name := by
  rw [resolveField_eq] at hit
  cases order : ranked env device prepared field with
  | nil =>
    rw [order] at hit
    cases hit
  | cons winner others =>
    rw [order] at hit
    obtain ⟨winField, picked, rfl⟩ := Option.map_eq_some_iff.mp hit
    have listed : ∀ p, p = winner ∨ p ∈ others ↔
        p ∈ prepared ∧ isCandidate env device p = true ∧ sets field p = true := by
      intro p
      rw [← List.mem_cons, ← order, mem_ranked]
    have sorted : (ranked env device prepared field).Pairwise fun a b => rank a ≤ rank b := sortRules_sorted _
    rw [order, List.pairwise_cons] at sorted
    obtain ⟨known, cand, winnerSets⟩ := (listed winner).mp (.inl rfl)
    refine ⟨winner, ⟨known, cand, winnerSets, ?_⟩, picked, rfl, ?_, ?_⟩
    · intro p mem matching set
      rw [compareRules_le_iff]
      rcases (listed p).mpr ⟨mem, matching, set⟩ with rfl | later
      · exact le_rfl
      · exact sorted.1 p later
    · rw [Option.isSome_map, List.find?_isSome]
      constructor
      · rintro ⟨c, later, differs⟩
        obtain ⟨mem, matching, set⟩ := (listed c).mp (.inr later)
        exact ⟨c, mem, matching, set, (disagrees_iff set winnerSets).mp differs⟩
      · rintro ⟨c, mem, matching, set, differs⟩
        rcases (listed c).mpr ⟨mem, matching, set⟩ with rfl | later
        · exact absurd rfl differs.2.1
        · exact ⟨c, later, (disagrees_iff set winnerSets).mpr differs⟩
    · intro tie warned
      obtain ⟨c, -, rfl⟩ := Option.map_eq_some_iff.mp warned
      exact ⟨rfl, rfl⟩

theorem Wins.unique {winner other : PreparedRule} (nodup : (prepared.map fun p => p.rule.id).Nodup)
    (first : Wins env device prepared field winner) (second : Wins env device prepared field other) :
    winner = other := by
  have less := compareRules_le_iff.mp (first.first other second.known second.candidate second.sets)
  have more := compareRules_le_iff.mp (second.first winner first.known first.candidate first.sets)
  have equal := le_antisymm less more
  simp only [rank, EmbeddingLike.apply_eq_iff_eq, Prod.mk.injEq] at equal
  exact List.inj_on_of_nodup_map nodup first.known second.known (codeUnits_injective equal.2.2)

theorem Wins.specific {winner p : PreparedRule} (wins : Wins env device prepared field winner)
    (known : p ∈ prepared) (cand : isCandidate env device p = true)
    (set : Inventory.sets field p = true) : p.parsed.specificity ≤ winner.parsed.specificity := by
  have pre := wins.first p known cand set
  unfold compareRules at pre
  split at pre
  · omega
  · rename_i same
    exact (Decidable.not_not.mp same).ge

theorem map_field_sublist {warn : TemplatableField → Option TieWarning}
    (named : ∀ field, ∀ tie ∈ warn field, tie.field = field) (fields : List TemplatableField) :
    List.Sublist ((fields.filterMap warn).map TieWarning.field) fields := by
  induction fields with
  | nil => exact List.Sublist.slnil
  | cons field rest ih =>
    cases warned : warn field with
    | none =>
      rw [List.filterMap_cons_none warned]
      exact ih.cons _
    | some tie =>
      rw [List.filterMap_cons_some warned, List.map_cons, named field tie warned]
      exact ih.cons_cons _

/-- The warnings are those of the fields that are tied, each of its own field. -/
theorem warnings_ties (env : TextPlatform) (device : InventoryDevice) (prepared : List PreparedRule)
    (nodup : (prepared.map fun p => p.rule.id).Nodup) (implicitAuthProfileId : Option Text) :
    ∃ ties : List TieWarning,
      (selectFieldWinners env device prepared implicitAuthProfileId).warnings = ties.map TieWarning.text ∧
      (ties.map TieWarning.field).Nodup ∧ (∀ tie ∈ ties, tie.deviceName = device.name) ∧
      ∀ field, field ∈ ties.map TieWarning.field ↔
        ∃ winner, Wins env device prepared field winner ∧ Tied env device prepared field winner := by
  have warned : ∀ {field tie}, (resolveField device (prepared.filter (isCandidate env device)) field).bind
      Resolution.warning = some tie → tie.field = field ∧ tie.deviceName = device.name := by
    intro field tie warned
    obtain ⟨resolved, hit, held⟩ := Option.bind_eq_some_iff.mp warned
    obtain ⟨-, -, -, -, -, named⟩ := resolveField_spec hit
    exact named tie held
  have named : ∀ field, ∀ tie ∈ (resolveField device (prepared.filter (isCandidate env device)) field).bind
      Resolution.warning, tie.field = field := fun field tie held => (warned held).1
  refine ⟨resolutionOrder.filterMap fun field =>
    (resolveField device (prepared.filter (isCandidate env device)) field).bind Resolution.warning, ?_, ?_, ?_, ?_⟩
  · rw [List.map_filterMap]
    rfl
  · exact (map_field_sublist named resolutionOrder).nodup (by decide)
  · intro tie mem
    obtain ⟨field, -, held⟩ := List.mem_filterMap.mp mem
    exact (warned held).2
  · intro field
    simp only [List.mem_map, List.mem_filterMap]
    constructor
    · rintro ⟨tie, ⟨other, -, held⟩, rfl⟩
      obtain rfl := (warned held).1
      obtain ⟨resolved, hit, warning⟩ := Option.bind_eq_some_iff.mp held
      obtain ⟨winner, wins, -, -, tied, -⟩ := resolveField_spec hit
      exact ⟨winner, wins, tied.mp (by rw [warning]; rfl)⟩
    · rintro ⟨winner, wins, tied⟩
      have listed : field ∈ resolutionOrder := by
        cases field with
        | _ => decide
      cases hit : resolveField device (prepared.filter (isCandidate env device)) field with
      | none =>
        have unset := resolveField_eq_none hit winner wins.known wins.candidate
        rw [wins.sets] at unset
        cases unset
      | some resolved =>
        obtain ⟨other, others, -, -, warns, -⟩ := resolveField_spec hit
        obtain rfl := others.unique nodup wins
        obtain ⟨tie, held⟩ := Option.isSome_iff_exists.mp (warns.mpr tied)
        have bound : (resolveField device (prepared.filter (isCandidate env device)) field).bind
            Resolution.warning = some tie := by
          rw [hit, Option.bind_some, held]
        exact ⟨tie, ⟨field, listed, bound⟩, (warned bound).1⟩

/-- The cascade: each field comes from a most specific rule that sets it, ties are told where they show, and order
does not matter. -/
theorem template_cascade (env : TextPlatform) (device : InventoryDevice) (prepared : List PreparedRule)
    (distinct : (prepared.map fun p => p.rule.id).Nodup) (implicitAuthProfileId : Option Text) :
    (∀ others, prepared.Perm others →
      (selectFieldWinners env device others implicitAuthProfileId).winners =
        (selectFieldWinners env device prepared implicitAuthProfileId).winners ∧
      (selectFieldWinners env device others implicitAuthProfileId).provenance =
        (selectFieldWinners env device prepared implicitAuthProfileId).provenance) ∧
    (∀ field,
      ((∀ p ∈ prepared, isCandidate env device p = true → sets field p = false) ∧
        (selectFieldWinners env device prepared implicitAuthProfileId).winners field =
          implicitWinner implicitAuthProfileId field ∧
        (selectFieldWinners env device prepared implicitAuthProfileId).provenance field = none) ∨
      ∃ winner, Wins env device prepared field winner ∧
        (selectFieldWinners env device prepared implicitAuthProfileId).winners field = winner.template.pick field ∧
        (selectFieldWinners env device prepared implicitAuthProfileId).provenance field =
          some { templateName := winner.template.name, ruleFilter := winner.rule.filter } ∧
        ∀ p ∈ prepared, isCandidate env device p = true → sets field p = true →
          p.parsed.specificity ≤ winner.parsed.specificity) ∧
    (∀ field others, others.filter (sets field) = prepared.filter (sets field) →
      (selectFieldWinners env device others implicitAuthProfileId).winners field =
        (selectFieldWinners env device prepared implicitAuthProfileId).winners field ∧
      (selectFieldWinners env device others implicitAuthProfileId).provenance field =
        (selectFieldWinners env device prepared implicitAuthProfileId).provenance field) ∧
    (∃ ties : List TieWarning,
      (selectFieldWinners env device prepared implicitAuthProfileId).warnings = ties.map TieWarning.text ∧
      (ties.map TieWarning.field).Nodup ∧ (∀ tie ∈ ties, tie.deviceName = device.name) ∧
      ∀ field, field ∈ ties.map TieWarning.field ↔
        ∃ winner, Wins env device prepared field winner ∧ Tied env device prepared field winner) ∧
    (∀ filter other, (parseTemplateFilter env filter).emptyValueKeys = [] →
      (parseTemplateFilter env other).emptyValueKeys = [] →
      (parseTemplateFilter env filter).normalized = (parseTemplateFilter env other).normalized →
      ∀ device, deviceMatchesFilter env device (parseTemplateFilter env filter) =
        deviceMatchesFilter env device (parseTemplateFilter env other)) := by
  have resolves : ∀ {others field}, ranked env device others field = ranked env device prepared field →
      resolveField device (others.filter (isCandidate env device)) field =
        resolveField device (prepared.filter (isCandidate env device)) field := by
    intro others field same
    rw [resolveField_eq, resolveField_eq, same]
  refine ⟨fun others perm => ?_, fun field => ?_, fun field others same => ?_,
    warnings_ties env device prepared distinct implicitAuthProfileId, fun filter other alive alive' same device =>
      matches_of_normalized alive alive' same device⟩
  · have reordered : ∀ field, ranked env device others field = ranked env device prepared field := by
      intro field
      refine (sortRules_perm ?_ ((perm.filter _).filter _)).symm
      exact distinct.sublist (((List.filter_sublist).trans List.filter_sublist).map _)
    constructor
    · funext field
      simp [selectFieldWinners, resolves (reordered field)]
    · funext field
      simp [selectFieldWinners, resolves (reordered field)]
  · cases found : resolveField device (prepared.filter (isCandidate env device)) field with
    | none =>
      refine .inl ⟨resolveField_eq_none found, ?_, ?_⟩
      · simp only [selectFieldWinners, found]
        rfl
      · simp [selectFieldWinners, found]
    | some resolved =>
      obtain ⟨winner, wins, picked, provenance, -, -⟩ := resolveField_spec found
      refine .inr ⟨winner, wins, ?_, ?_, fun p known candidate set => wins.specific known candidate set⟩
      · simp only [selectFieldWinners, found, picked]
        rfl
      · simp [selectFieldWinners, found, provenance]
  · have narrowed : ranked env device others field = ranked env device prepared field := by
      have swap : ∀ rules : List PreparedRule, (rules.filter (isCandidate env device)).filter (sets field) =
          (rules.filter (sets field)).filter (isCandidate env device) := by
        intro rules
        rw [List.filter_filter, List.filter_filter]
        exact List.filter_congr fun p _ => Bool.and_comm _ _
      rw [ranked, ranked, swap, swap, same]
    simp [selectFieldWinners, resolves narrowed]

def asciiPlatform : TextPlatform where
  utf8Decode bytes := bytes.map fun b => Char.ofNat b.toNat
  toLowerCase text := text.map Char.toLower
  canonicalize u := if 0x61 ≤ u && u ≤ 0x7A then u - 0x20 else u

def prepare (id filter : String) (fields : DeviceTemplateFields) : PreparedRule where
  rule := { id := id.toList, filter := some filter.toList, templateId := id.toList }
  template := { name := id.toList, fields }
  parsed := parseTemplateFilter asciiPlatform (some filter.toList)
  isCatchAll := isCatchAllFilter (some filter.toList)

def siteRules : List PreparedRule :=
  [prepare "all" "" { logSession := some ⟨.fill, true⟩ },
   prepare "switch" "Role=switch" { logSession := some ⟨.override, false⟩, multiplexing := some ⟨.fill, true⟩ },
   prepare "core" "name=core-*&site=lab" { multiplexing := some ⟨.fill, false⟩ }]

def coreSwitch : InventoryDevice where
  name := "Core-1".toList
  attributes := some (SeqMap.empty.set "role".toList (.many ["Switch".toList, "switch".toList]))

theorem template_cascade_site :
    (selectFieldWinners asciiPlatform coreSwitch siteRules.reverse none).winners =
      (selectFieldWinners asciiPlatform coreSwitch siteRules none).winners ∧
    (selectFieldWinners asciiPlatform coreSwitch siteRules.reverse none).provenance =
      (selectFieldWinners asciiPlatform coreSwitch siteRules none).provenance :=
  (template_cascade asciiPlatform coreSwitch siteRules (by decide) none).1 siteRules.reverse
    (List.reverse_perm siteRules).symm

end NexTerminal.Inventory
