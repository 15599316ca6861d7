import Mathlib.Data.List.Basic

namespace NexTerminal.Library

structure FieldSyntax (α : Type*) where
  pad : α
  stop : α
  size : α → Nat

inductive FieldFault (α : Type*)
  | missingSize (tag : α)
  | truncated (tag : α) (declared available : Nat)
deriving DecidableEq

namespace FieldSyntax

variable {α : Type*} (form : FieldSyntax α)

def IsTag (tag : α) : Prop := tag ≠ form.pad ∧ tag ≠ form.stop

inductive Region : List α → List (α × List α) → Prop
  | exhausted : Region [] []
  | stopped (rest : List α) : Region (form.stop :: rest) []
  | padded {rest fields} : Region rest fields → Region (form.pad :: rest) fields
  | field {tag size value rest fields} : form.IsTag tag → value.length = form.size size →
      Region rest fields → Region (tag :: size :: (value ++ rest)) ((tag, value) :: fields)

inductive Broken : List α → FieldFault α → Prop
  | missingSize {tag} : form.IsTag tag → Broken [tag] (.missingSize tag)
  | truncated {tag size body} : form.IsTag tag → body.length < form.size size →
      Broken (tag :: size :: body) (.truncated tag (form.size size) body.length)
  | padded {rest fault} : Broken rest fault → Broken (form.pad :: rest) fault
  | field {tag size value rest fault} : form.IsTag tag → value.length = form.size size →
      Broken rest fault → Broken (tag :: size :: (value ++ rest)) fault

/-- Several regions, each well formed, and all their fields. -/
inductive Regions : List (List α) → List (α × List α) → Prop
  | done : Regions [] []
  | next {region rest fields more} : form.Region region fields → Regions rest more →
      Regions (region :: rest) (fields ++ more)

/-- Several regions, and the fault of the first that is broken. -/
inductive FirstBroken : List (List α) → FieldFault α → Prop
  | here {region rest fault} : form.Broken region fault → FirstBroken (region :: rest) fault
  | later {region rest fields fault} : form.Region region fields → FirstBroken rest fault →
      FirstBroken (region :: rest) fault

def scan [DecidableEq α] (region : List α) : Except (FieldFault α) (List (α × List α)) :=
  match region with
  | [] => .ok []
  | tag :: rest =>
    if tag = form.pad then scan rest
    else if tag = form.stop then .ok []
    else
      match rest with
      | [] => .error (.missingSize tag)
      | size :: body =>
        if body.length < form.size size then .error (.truncated tag (form.size size) body.length)
        else (scan (body.drop (form.size size))).map fun fields =>
          (tag, body.take (form.size size)) :: fields
termination_by region.length
decreasing_by all_goals simp only [List.length_cons, List.length_drop]; omega

section

variable {form} [DecidableEq α] {tag size : α} {value rest region : List α}
  {fields : List (α × List α)} {fault : FieldFault α}

theorem scan_field (isTag : form.IsTag tag) (fits : value.length = form.size size) :
    form.scan (tag :: size :: (value ++ rest)) = (form.scan rest).map fun fields => (tag, value) :: fields := by
  have enough : ¬ (value ++ rest).length < value.length := by
    rw [List.length_append]
    omega
  rw [scan.eq_def]
  simp only [if_neg isTag.1, if_neg isTag.2, ← fits, if_neg enough, List.drop_left, List.take_left]

theorem scan_pad : form.scan (form.pad :: rest) = form.scan rest := by
  rw [scan.eq_def]
  exact if_pos rfl

theorem scan_stop (ne : form.stop ≠ form.pad) : form.scan (form.stop :: rest) = .ok [] := by
  rw [scan.eq_def]
  exact (if_neg ne).trans (if_pos rfl)

/-- What the scan comes to is what the region is. -/
theorem scan_sound (form : FieldSyntax α) (region : List α) :
    match form.scan region with
    | .ok fields => form.Region region fields
    | .error fault => form.Broken region fault := by
  induction region using scan.induct form with
  | case1 => rw [scan]; exact .exhausted
  | case2 rest ih => rw [scan_pad]; revert ih; cases form.scan rest; exacts [.padded, .padded]
  | case3 rest other => rw [scan_stop other]; exact .stopped rest
  | case4 tag notPad notStop =>
    rw [scan, if_neg notPad, if_neg notStop]
    exact .missingSize ⟨notPad, notStop⟩
  | case5 tag notPad notStop size body short =>
    rw [scan]
    simp only [if_neg notPad, if_neg notStop, if_pos short]
    exact .truncated ⟨notPad, notStop⟩ short
  | case6 tag notPad notStop size body enough ih =>
    have whole : body.take (form.size size) ++ body.drop (form.size size) = body := List.take_append_drop _ _
    have fits : (body.take (form.size size)).length = form.size size := by
      rw [List.length_take]
      omega
    have step := @scan_field _ form _ _ _ _ (body.drop (form.size size)) ⟨notPad, notStop⟩ fits
    rw [whole] at step
    rw [step]
    revert ih
    cases form.scan (body.drop (form.size size)) with
    | error fault =>
      intro broken
      have more := Broken.field ⟨notPad, notStop⟩ fits broken
      rwa [whole] at more
    | ok fields =>
      intro read
      have more := Region.field ⟨notPad, notStop⟩ fits read
      rwa [whole] at more

theorem region_or_broken (form : FieldSyntax α) (region : List α) :
    (∃ fields, form.Region region fields) ∨ ∃ fault, form.Broken region fault := by
  have sound := scan_sound form region
  cases scanned : form.scan region with
  | ok fields =>
    rw [scanned] at sound
    exact .inl ⟨fields, sound⟩
  | error fault =>
    rw [scanned] at sound
    exact .inr ⟨fault, sound⟩

theorem regions_or_broken (form : FieldSyntax α) (regions : List (List α)) :
    (∃ fields, form.Regions regions fields) ∨ ∃ fault, form.FirstBroken regions fault := by
  induction regions with
  | nil => exact .inl ⟨[], .done⟩
  | cons region rest ih =>
    rcases region_or_broken form region with ⟨fields, read⟩ | ⟨fault, broken⟩
    · rcases ih with ⟨more, later⟩ | ⟨fault, broken⟩
      · exact .inl ⟨fields ++ more, .next read later⟩
      · exact .inr ⟨fault, .later read broken⟩
    · exact .inr ⟨fault, .here broken⟩

end

end FieldSyntax

section

variable {α : Type*} [DecidableEq α]

def valuesUnder (tag : α) (fields : List (α × List α)) : List (List α) :=
  (fields.filter fun field => field.1 = tag).map Prod.snd

/-- One value for all occurrences of a tag, nothing where it does not occur. -/
def joinedUnder (tag : α) (fields : List (α × List α)) : Option (List α) :=
  if valuesUnder tag fields = [] then none else some (valuesUnder tag fields).flatten

@[simp] theorem valuesUnder_append (tag : α) (first last : List (α × List α)) :
    valuesUnder tag (first ++ last) = valuesUnder tag first ++ valuesUnder tag last := by
  simp [valuesUnder]

theorem valuesUnder_cons (tag : α) (field : α × List α) (rest : List (α × List α)) :
    valuesUnder tag (field :: rest) =
      if field.1 = tag then field.2 :: valuesUnder tag rest else valuesUnder tag rest := by
  by_cases same : field.1 = tag <;> simp [valuesUnder, same]

theorem joinedUnder_snoc (tag : α) (fields : List (α × List α)) (field : α × List α) :
    joinedUnder tag (fields ++ [field]) =
      if field.1 = tag then some ((joinedUnder tag fields).getD [] ++ field.2)
      else joinedUnder tag fields := by
  have nil : valuesUnder tag ([] : List (α × List α)) = [] := rfl
  unfold joinedUnder
  rw [valuesUnder_append, valuesUnder_cons, nil]
  split
  · by_cases absent : valuesUnder tag fields = []
    · simp [absent]
    · simp [absent]
  · simp

end

end NexTerminal.Library
