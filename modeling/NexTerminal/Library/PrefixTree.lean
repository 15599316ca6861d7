import Mathlib.Data.List.Infix
import Mathlib.Data.Set.Basic

namespace NexTerminal.Library

variable {α : Type*} {paths : Set (List α)} {old new : List α}

def PrefixClosed (paths : Set (List α)) : Prop :=
  ∀ path ∈ paths, ∀ above, above <+: path → above ≠ [] → above ∈ paths

theorem prefix_append_cases {above stem rest : List α} (first : above <+: stem ++ rest) :
    above <+: stem ∨ ∃ part, above = stem ++ part ∧ part <+: rest := by
  rcases List.prefix_or_prefix_of_prefix first (List.prefix_append stem rest) with short | ⟨part, rfl⟩
  · exact .inl short
  · exact .inr ⟨part, rfl, (List.prefix_append_right_inj stem).mp first⟩

/-- The tree once everything at and below `old` hangs at `new`, and `new` has been laid. -/
def regrafted (paths : Set (List α)) (old new : List α) : Set (List α) :=
  {path | path ∈ paths ∧ ¬ old <+: path} ∪ {path | ∃ rest, old ++ rest ∈ paths ∧ path = new ++ rest} ∪
    {path | path <+: new ∧ path ≠ []}

/-- A grafted tree is a tree. -/
theorem PrefixClosed.regrafted (closed : PrefixClosed paths) (planted : old ≠ []) :
    PrefixClosed (regrafted paths old new) := by
  intro path mem above first ne
  rcases mem with (⟨known, outside⟩ | ⟨rest, known, rfl⟩) | ⟨laid, -⟩
  · refine .inl (.inl ⟨closed path known above first ne, fun below => outside (below.trans first)⟩)
  · rcases prefix_append_cases first with short | ⟨part, rfl, within⟩
    · exact .inr ⟨short, ne⟩
    · have whole := (List.prefix_append_right_inj old).mpr within
      exact .inl (.inr ⟨part, closed _ known _ whole (by simp [planted]), rfl⟩)
  · exact .inr ⟨first.trans laid, ne⟩

/-- The tree without `old`, whose branches hang at `old`'s own parent. -/
def lifted (paths : Set (List α)) (old : List α) : Set (List α) :=
  {path | path ∈ paths ∧ ¬ old <+: path} ∪
    {path | ∃ rest, rest ≠ [] ∧ old ++ rest ∈ paths ∧ path = old.dropLast ++ rest}

theorem PrefixClosed.lifted (closed : PrefixClosed paths) (planted : old ≠ []) : PrefixClosed (lifted paths old) := by
  intro path mem above first ne
  rcases mem with ⟨known, outside⟩ | ⟨rest, -, known, rfl⟩
  · exact .inl ⟨closed path known above first ne, fun below => outside (below.trans first)⟩
  · have high : above <+: old.dropLast → above ∈ NexTerminal.Library.lifted paths old := by
      intro short
      refine .inl ⟨closed _ known above ((short.trans (List.dropLast_prefix old)).trans
        (List.prefix_append _ _)) ne, fun below => ?_⟩
      have lengths := (below.trans short).length_le
      have positive := List.length_pos_of_ne_nil planted
      rw [List.length_dropLast] at lengths
      omega
    rcases prefix_append_cases first with short | ⟨part, rfl, within⟩
    · exact high short
    · by_cases bare : part = []
      · subst bare
        exact high (by rw [List.append_nil])
      · have whole := (List.prefix_append_right_inj old).mpr within
        exact .inr ⟨part, bare, closed _ known _ whole (by simp [planted]), rfl⟩

theorem PrefixClosed.outside (closed : PrefixClosed paths) (old : List α) :
    PrefixClosed {path | path ∈ paths ∧ ¬ old <+: path} :=
  fun _ ⟨known, outside⟩ above first ne =>
    ⟨closed _ known above first ne, fun below => outside (below.trans first)⟩

end NexTerminal.Library
