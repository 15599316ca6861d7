import Mathlib.Data.List.Basic
import Mathlib.Data.List.Nodup
import Mathlib.Data.List.Perm.Subperm

namespace NexTerminal.Macros

/-- What a caller or the persisted list holds for a macro; a field is absent where the value is no string. -/
structure MacroEntry (Rest : Type) where
  id : Option String := none
  name : Option String
  text : Option String
  /-- Whether the value of `secret` is truthy. -/
  secret : Bool := false
  rest : Rest

structure TerminalMacro (Rest : Type) where
  id : Option String
  name : String
  text : String
  secret : Bool
  rest : Rest

variable {Rest : Type}

def TerminalMacro.toEntry (entry : TerminalMacro Rest) : MacroEntry Rest :=
  { id := entry.id, name := some entry.name, text := some entry.text, secret := entry.secret, rest := entry.rest }

def isValidMacroId (id : Option String) : Bool := id.any (· ≠ "")

/-- What `isUsableMacro` lets through. A value that is no object is `none`. -/
def usableMacro (entry : Option (MacroEntry Rest)) : Option (TerminalMacro Rest) := do
  let { id, name, text, secret, rest } ← entry
  let name ← name
  let text ← text
  return { id, name, text, secret, rest }

def TerminalMacro.priorId (entry : TerminalMacro Rest) : Option String :=
  if isValidMacroId entry.id then entry.id else none

variable {entry : TerminalMacro Rest}

theorem priorId_some {id : String} : entry.priorId = some id ↔ entry.id = some id ∧ id ≠ "" := by
  unfold TerminalMacro.priorId isValidMacroId
  cases held : entry.id with
  | none => simp
  | some own =>
    by_cases empty : own = ""
    · simp only [Option.any_some, empty, ne_eq, not_true_eq_false, decide_false, if_false, reduceCtorEq,
        Option.some.injEq, false_iff, not_and, not_not]
      exact fun same => same.symm
    · simp only [Option.any_some, ne_eq, empty, not_false_eq_true, decide_true, if_true, Option.some.injEq]
      constructor
      · rintro rfl
        exact ⟨rfl, empty⟩
      · exact fun same => same.1

/-- The loop that draws until the id is unclaimed. Among more draws than claimed ids one is. -/
def freshId (uuid : Nat → String) (claimed : List String) : Nat → Nat → String × Nat
  | 0, drawn => (uuid drawn, drawn + 1)
  | left + 1, drawn =>
    if uuid drawn ∈ claimed then freshId uuid claimed left (drawn + 1) else (uuid drawn, drawn + 1)

theorem freshId_drawn (uuid : Nat → String) (claimed : List String) (left drawn : Nat) :
    ∃ n, drawn ≤ n ∧ (freshId uuid claimed left drawn).1 = uuid n ∧
      (freshId uuid claimed left drawn).2 = n + 1 ∧ (∀ m, drawn ≤ m → m < n → uuid m ∈ claimed) ∧
      (uuid n ∈ claimed → n = drawn + left) := by
  induction left generalizing drawn with
  | zero => exact ⟨drawn, Nat.le_refl _, rfl, rfl, fun m low high => absurd high (by omega), fun _ => rfl⟩
  | succ left ih =>
    unfold freshId
    split
    · rename_i taken
      obtain ⟨n, later, same, next, pre, stuck⟩ := ih (drawn + 1)
      refine ⟨n, by omega, same, next, ?_, fun still => ?_⟩
      · intro m low high
        obtain rfl | above := Nat.eq_or_lt_of_le low
        · exact taken
        · exact pre m above high
      · have := stuck still
        omega
    · rename_i untaken
      exact ⟨drawn, Nat.le_refl _, rfl, rfl, fun m low high => absurd high (by omega),
        fun taken => absurd taken untaken⟩

variable {uuid : Nat → String}

theorem freshId_unclaimed (nodup : Function.Injective uuid) (claimed : List String) (drawn : Nat) :
    (freshId uuid claimed claimed.length drawn).1 ∉ claimed := by
  obtain ⟨n, _, same, _, pre, stuck⟩ := freshId_drawn uuid claimed claimed.length drawn
  rw [same]
  intro taken
  have last := stuck taken
  have all : ((List.range (claimed.length + 1)).map fun k => uuid (drawn + k)) ⊆ claimed := by
    intro id mem
    obtain ⟨k, inside, rfl⟩ := List.mem_map.mp mem
    rw [List.mem_range] at inside
    obtain earlier | rfl := Nat.lt_or_eq_of_le (Nat.lt_succ_iff.mp inside)
    · exact pre _ (by omega) (by omega)
    · exact last ▸ taken
  have ne : ((List.range (claimed.length + 1)).map fun k => uuid (drawn + k)).Nodup := by
    refine List.nodup_range.map ?_
    intro i j same
    have := nodup same
    omega
  have fits := (List.subperm_of_subset ne all).length_le
  simp only [List.length_map, List.length_range] at fits
  omega

structure Assignment (Rest : Type) where
  record : TerminalMacro Rest
  id : String
  /-- The id that the record arrived with, if it is a valid one. -/
  priorId : Option String

/-- The first pass: what `keepIdIfPossible` picks has first claim on the id it came with. -/
def pinIds (keep : TerminalMacro Rest → Bool) :
    List String → List (TerminalMacro Rest) → List (Option String) × List String
  | claimed, [] => ([], claimed)
  | claimed, entry :: rest =>
    let pinned := entry.priorId.filter fun id => decide (id ∉ claimed) && keep entry
    let (ids, claimed) := pinIds keep (pinned.toList ++ claimed) rest
    (pinned :: ids, claimed)

def fillIds (uuid : Nat → String) :
    List String → Nat → List (Option String × TerminalMacro Rest) → List String × Nat
  | _, drawn, [] => ([], drawn)
  | claimed, drawn, (some id, _) :: rest =>
    let (ids, drawn) := fillIds uuid claimed drawn rest
    (id :: ids, drawn)
  | claimed, drawn, (none, entry) :: rest =>
    let (id, drawn) := match entry.priorId.filter fun id => decide (id ∉ claimed) with
      | some id => (id, drawn)
      | none => freshId uuid claimed claimed.length drawn
    let (ids, drawn) := fillIds uuid (id :: claimed) drawn rest
    (id :: ids, drawn)

def assignMacroIds (uuid : Nat → String) (drawn : Nat) (keepIdIfPossible : TerminalMacro Rest → Bool)
    (entries : List (TerminalMacro Rest)) : List (Assignment Rest) × Nat :=
  let (finalIds, claimed) := pinIds keepIdIfPossible [] entries
  let (ids, drawn) := fillIds uuid claimed drawn (finalIds.zip entries)
  (List.zipWith (fun entry id => ⟨{ entry with id := some id }, id, entry.priorId⟩) entries ids, drawn)

section

variable (keep : TerminalMacro Rest → Bool)
include keep

section

variable (claimed : List String)
include claimed

section

variable (entries : List (TerminalMacro Rest))
include entries

theorem pinIds_length : (pinIds keep claimed entries).1.length = entries.length := by
  induction entries generalizing claimed with
  | nil => rfl
  | cons entry rest ih => exact congrArg (· + 1) (ih _)

theorem pinIds_claimed {id : String} :
    id ∈ (pinIds keep claimed entries).2 ↔ id ∈ claimed ∨ some id ∈ (pinIds keep claimed entries).1 := by
  induction entries generalizing claimed with
  | nil => simp [pinIds]
  | cons entry rest ih =>
    simp only [pinIds, ih, List.mem_append, List.mem_cons, Option.mem_toList]
    constructor
    · rintro ((own | before) | later)
      · exact .inr (.inl own.symm)
      · exact .inl before
      · exact .inr (.inr later)
    · rintro (before | own | later)
      · exact .inl (.inr before)
      · exact .inl (.inl own.symm)
      · exact .inr later

theorem pinIds_once : ((pinIds keep claimed entries).1.filterMap id).Nodup ∧
      ∀ own, some own ∈ (pinIds keep claimed entries).1 → own ∉ claimed := by
  induction entries generalizing claimed with
  | nil => exact ⟨List.nodup_nil, fun own mem => absurd mem List.not_mem_nil⟩
  | cons entry rest ih =>
    obtain ⟨ne, unclaimed⟩ :=
      ih ((entry.priorId.filter fun id => decide (id ∉ claimed) && keep entry).toList ++ claimed)
    simp only [pinIds]
    cases pinned : entry.priorId.filter fun id => decide (id ∉ claimed) && keep entry with
    | none =>
      rw [pinned] at ne unclaimed
      simp only [List.mem_cons, reduceCtorEq, false_or]
      exact ⟨ne, unclaimed⟩
    | some first =>
      rw [pinned] at ne unclaimed
      simp only [Option.filter_eq_some_iff, Bool.and_eq_true, decide_eq_true_eq] at pinned
      simp only [List.filterMap_cons, id_eq, List.nodup_cons, List.mem_cons, Option.some.injEq,
        List.mem_filterMap, exists_eq_right]
      refine ⟨⟨fun again => ?_, ne⟩, ?_⟩
      · exact unclaimed first again (List.mem_append_left _ (by simp))
      · rintro own (rfl | later)
        · exact pinned.2.1
        · exact fun pre => unclaimed own later (List.mem_append_right _ pre)

theorem pinIds_first {k : Nat} {id : String} (hit : entries[k]? = some entry) (prior : entry.priorId = some id)
    (kept : keep entry = true) (unclaimed : id ∉ claimed)
    (first : ∀ (j : Nat) (other : TerminalMacro Rest), j < k → entries[j]? = some other →
      other.priorId = some id → keep other = false) : (pinIds keep claimed entries).1[k]? = some (some id) := by
  induction entries generalizing claimed k with
  | nil => simp at hit
  | cons head rest ih =>
    cases k with
    | zero =>
      rw [List.getElem?_cons_zero, Option.some.injEq] at hit
      subst hit
      simp [pinIds, prior, kept, unclaimed]
    | succ k =>
      refine ih _ hit ?_ fun j other before at_j => first (j + 1) other (by omega) (by simpa using at_j)
      rw [List.mem_append, Option.mem_toList]
      rintro (pinned | before)
      · simp only [Option.filter_eq_some_iff, Bool.and_eq_true] at pinned
        rw [first 0 head (by omega) rfl pinned.1] at pinned
        exact absurd pinned.2.2 (by simp)
      · exact unclaimed before

theorem pinIds_prior {k : Nat} {id : String} (pinned : (pinIds keep claimed entries).1[k]? = some (some id))
    (hit : entries[k]? = some entry) : entry.priorId = some id := by
  induction entries generalizing claimed k with
  | nil => simp at hit
  | cons head rest ih =>
    cases k with
    | zero =>
      rw [List.getElem?_cons_zero, Option.some.injEq] at hit
      subst hit
      simp only [pinIds, List.getElem?_cons_zero, Option.some.injEq, Option.filter_eq_some_iff] at pinned
      exact pinned.1
    | succ k => exact ih _ (by simpa [pinIds] using pinned) (by simpa using hit)

end

end

end

theorem fillIds_getElem? (uuid : Nat → String) (claimed : List String) (drawn : Nat)
    (rows : List (Option String × TerminalMacro Rest)) :
    drawn ≤ (fillIds uuid claimed drawn rows).2 ∧
      (fillIds uuid claimed drawn rows).1.length = rows.length ∧
      ∀ (k : Nat) (pinned : Option String) (entry : TerminalMacro Rest), rows[k]? = some (pinned, entry) →
        ∃ id, (fillIds uuid claimed drawn rows).1[k]? = some id ∧
          (pinned = some id ∨ pinned = none ∧ (entry.priorId = some id ∨
            ∃ n, drawn ≤ n ∧ n < (fillIds uuid claimed drawn rows).2 ∧ id = uuid n)) := by
  induction rows generalizing claimed drawn with
  | nil => exact ⟨Nat.le_refl _, rfl, fun k pinned entry hit => by simp at hit⟩
  | cons row rest ih =>
    obtain ⟨_ | own, entry⟩ := row
    · simp only [fillIds]
      generalize chosen : (match entry.priorId.filter fun id => decide (id ∉ claimed) with
        | some id => (id, drawn)
        | none => freshId uuid claimed claimed.length drawn) = choice
      have from_prior : drawn ≤ choice.2 ∧ (entry.priorId = some choice.1 ∨
          ∃ n, drawn ≤ n ∧ n < choice.2 ∧ choice.1 = uuid n) := by
        subst chosen
        split
        · rename_i id prior
          exact ⟨Nat.le_refl _, .inl (Option.filter_eq_some_iff.mp prior).1⟩
        · obtain ⟨n, later, same, next, _⟩ := freshId_drawn uuid claimed claimed.length drawn
          exact ⟨by omega, .inr ⟨n, later, by omega, same⟩⟩
      obtain ⟨more, lengths, rest_ids⟩ := ih (choice.1 :: claimed) choice.2
      refine ⟨by omega, congrArg (· + 1) lengths, fun k pinned other hit => ?_⟩
      cases k with
      | zero =>
        obtain ⟨rfl, rfl⟩ : none = pinned ∧ entry = other := by simpa using hit
        refine ⟨choice.1, rfl, .inr ⟨rfl, from_prior.2.imp id ?_⟩⟩
        rintro ⟨n, low, high, same⟩
        exact ⟨n, low, by omega, same⟩
      | succ k =>
        obtain ⟨id, at_k, kept⟩ := rest_ids k pinned other (by simpa using hit)
        refine ⟨id, by simpa using at_k, kept.imp_right fun open_ => ⟨open_.1, open_.2.imp_right ?_⟩⟩
        rintro ⟨n, low, high, same⟩
        exact ⟨n, by omega, high, same⟩
    · simp only [fillIds]
      obtain ⟨more, lengths, rest_ids⟩ := ih claimed drawn
      refine ⟨more, congrArg (· + 1) lengths, fun k pinned other hit => ?_⟩
      cases k with
      | zero =>
        obtain ⟨rfl, rfl⟩ : some own = pinned ∧ entry = other := by simpa using hit
        exact ⟨own, rfl, .inl rfl⟩
      | succ k => simpa using rest_ids k pinned other (by simpa using hit)

/-- Final ids are pairwise distinct. -/
theorem fillIds_nodup (nodup : Function.Injective uuid) (claimed : List String) (drawn : Nat)
    (rows : List (Option String × TerminalMacro Rest)) (ne : (rows.filterMap Prod.fst).Nodup)
    (pinned : ∀ id ∈ rows.filterMap Prod.fst, id ∈ claimed) :
    (fillIds uuid claimed drawn rows).1.Nodup ∧
      ∀ id ∈ (fillIds uuid claimed drawn rows).1, id ∈ claimed → id ∈ rows.filterMap Prod.fst := by
  induction rows generalizing claimed drawn with
  | nil => exact ⟨List.nodup_nil, fun id mem => absurd mem List.not_mem_nil⟩
  | cons row rest ih =>
    obtain ⟨_ | own, entry⟩ := row
    · simp only [fillIds]
      generalize chosen : (match entry.priorId.filter fun id => decide (id ∉ claimed) with
        | some id => (id, drawn)
        | none => freshId uuid claimed claimed.length drawn) = choice
      have unclaimed : choice.1 ∉ claimed := by
        subst chosen
        split
        · rename_i id prior
          simpa using (Option.filter_eq_some_iff.mp prior).2
        · exact freshId_unclaimed nodup claimed drawn
      obtain ⟨later_apart, later_claimed⟩ := ih (choice.1 :: claimed) choice.2 ne
        fun id mem => List.mem_cons_of_mem _ (pinned id mem)
      refine ⟨List.nodup_cons.mpr ⟨fun again => unclaimed ?_, later_apart⟩, ?_⟩
      · exact pinned _ (later_claimed _ again List.mem_cons_self)
      · intro id mem pre
        obtain rfl | later := List.mem_cons.mp mem
        · exact absurd pre unclaimed
        · exact later_claimed id later (List.mem_cons_of_mem _ pre)
    · simp only [fillIds]
      simp only [List.filterMap_cons, List.nodup_cons] at ne pinned ⊢
      obtain ⟨later_apart, later_claimed⟩ := ih claimed drawn ne.2
        fun id mem => pinned id (List.mem_cons_of_mem _ mem)
      refine ⟨⟨fun again => ?_, later_apart⟩, fun id mem pre => ?_⟩
      · exact ne.1 (later_claimed own again (pinned own List.mem_cons_self))
      · obtain rfl | later := List.mem_cons.mp mem
        · exact List.mem_cons_self
        · exact List.mem_cons_of_mem _ (later_claimed id later pre)

theorem assignMacroIds_ids (drawn : Nat) (keep : TerminalMacro Rest → Bool) (entries : List (TerminalMacro Rest)) :
    (assignMacroIds uuid drawn keep entries).1.map Assignment.id =
      (fillIds uuid (pinIds keep [] entries).2 drawn ((pinIds keep [] entries).1.zip entries)).1 := by
  have lengths := (fillIds_getElem? uuid (pinIds keep [] entries).2 drawn
    ((pinIds keep [] entries).1.zip entries)).2.1
  simp only [assignMacroIds]
  refine List.ext_getElem (by simp [lengths, pinIds_length]) fun k low high => ?_
  simp

theorem assignMacroIds_nodup (nodup : Function.Injective uuid) (drawn : Nat) (keep : TerminalMacro Rest → Bool)
    (entries : List (TerminalMacro Rest)) : ((assignMacroIds uuid drawn keep entries).1.map Assignment.id).Nodup := by
  rw [assignMacroIds_ids]
  have firsts : ((pinIds keep [] entries).1.zip entries).filterMap Prod.fst =
      (pinIds keep [] entries).1.filterMap id := by
    conv_rhs => rw [← List.map_fst_zip (Nat.le_of_eq (pinIds_length keep [] entries))]
    rw [List.filterMap_map]
    rfl
  refine (fillIds_nodup nodup _ drawn _ ?_ ?_).1
  · rw [firsts]
    exact (pinIds_once keep [] entries).1
  · intro id mem
    rw [firsts, List.mem_filterMap] at mem
    obtain ⟨-, mem, rfl⟩ := mem
    exact (pinIds_claimed keep [] entries).mpr (.inr mem)

theorem assignMacroIds_length (drawn : Nat) (keep : TerminalMacro Rest → Bool)
    (entries : List (TerminalMacro Rest)) : (assignMacroIds uuid drawn keep entries).1.length = entries.length := by
  have lengths := congrArg List.length (@assignMacroIds_ids _ uuid drawn keep entries)
  rwa [List.length_map, (fillIds_getElem? uuid _ drawn _).2.1, List.length_zip, pinIds_length, Nat.min_self] at lengths

theorem assignMacroIds_getElem? (drawn : Nat) (keep : TerminalMacro Rest → Bool) {entries : List (TerminalMacro Rest)}
    {k : Nat} (hit : entries[k]? = some entry) :
    ∃ assigned : Assignment Rest, (assignMacroIds uuid drawn keep entries).1[k]? = some assigned ∧
      assigned.record = { entry with id := some assigned.id } ∧ assigned.priorId = entry.priorId ∧
      (entry.priorId = some assigned.id ∨
        ∃ n, drawn ≤ n ∧ n < (assignMacroIds uuid drawn keep entries).2 ∧ assigned.id = uuid n) := by
  have pinned_at : (pinIds keep [] entries).1[k]? = some ((pinIds keep [] entries).1[k]?.getD none) := by
    have inside : k < (pinIds keep [] entries).1.length := by
      rw [pinIds_length]
      exact (List.getElem?_eq_some_iff.mp hit).1
    rw [List.getElem?_eq_getElem inside, Option.getD_some]
  generalize (pinIds keep [] entries).1[k]?.getD none = pinned at pinned_at
  have row : ((pinIds keep [] entries).1.zip entries)[k]? = some (pinned, entry) := by
    rw [List.getElem?_zip_eq_some]
    exact ⟨pinned_at, hit⟩
  obtain ⟨id, at_k, source⟩ := (fillIds_getElem? uuid (pinIds keep [] entries).2 drawn _).2.2 k pinned entry row
  refine ⟨⟨{ entry with id := some id }, id, entry.priorId⟩, ?_, rfl, rfl, ?_⟩
  · simp [assignMacroIds, List.getElem?_zipWith, hit, at_k]
  · obtain rfl | ⟨-, fresh⟩ := source
    · exact .inl (pinIds_prior keep [] entries pinned_at hit)
    · exact fresh

theorem assignMacroIds_first (drawn : Nat) (keep : TerminalMacro Rest → Bool) {entries : List (TerminalMacro Rest)}
    {k : Nat} {id : String} (hit : entries[k]? = some entry) (prior : entry.priorId = some id)
    (kept : keep entry = true) (first : ∀ (j : Nat) (other : TerminalMacro Rest), j < k →
      entries[j]? = some other → other.priorId = some id → keep other = false) {assigned : Assignment Rest}
    (at_k : (assignMacroIds uuid drawn keep entries).1[k]? = some assigned) : assigned.id = id := by
  have pinned := pinIds_first keep [] entries hit prior kept List.not_mem_nil first
  have row : ((pinIds keep [] entries).1.zip entries)[k]? = some (some id, entry) := by
    rw [List.getElem?_zip_eq_some]
    exact ⟨pinned, hit⟩
  obtain ⟨own, own_at, source⟩ :=
    (fillIds_getElem? uuid (pinIds keep [] entries).2 drawn _).2.2 k (some id) entry row
  obtain same | ⟨absurd_, -⟩ := source
  · have ids := congrArg (·[k]?) (@assignMacroIds_ids _ uuid drawn keep entries)
    simp only [List.getElem?_map, at_k, own_at, Option.map_some, Option.some.injEq] at ids
    rw [ids]
    exact (Option.some.inj same).symm
  · exact absurd absurd_ (by simp)

end NexTerminal.Macros
