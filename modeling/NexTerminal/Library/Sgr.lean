import Mathlib.Data.List.Basic

namespace NexTerminal.Library

inductive Colour
  | basic (code : Nat)
  | indexed (index : Nat)
  | rgb (red green blue : Nat)
  deriving DecidableEq

/-- The attributes of a displayed character; no colour is the terminal's own. -/
structure Style where
  foreground : Option Colour := none
  bold : Bool := false
  underline : Bool := false
  deriving DecidableEq

inductive SgrOp
  | reset
  | bold (on : Bool)
  | underline (on : Bool)
  | foreground (colour : Option Colour)
  | other
  deriving DecidableEq

def isForegroundParam (p : Nat) : Bool := (30 ≤ p && p ≤ 37) || (90 ≤ p && p ≤ 97)

/-- Parameters that take the colour from the ones behind them: foreground,
background and underline colour. -/
def isExtendedParam (p : Nat) : Bool := p == 38 || p == 48 || p == 58

def sgrOp (p : Nat) : SgrOp :=
  if p = 0 then .reset
  else if p = 1 then .bold true
  else if p = 22 then .bold false
  else if p = 4 ∨ p = 21 then .underline true
  else if p = 24 then .underline false
  else if p = 39 then .foreground none
  else if isForegroundParam p then .foreground (some (.basic p))
  else .other

def extendedOp (p : Nat) (colour : Colour) : SgrOp :=
  if p = 38 then .foreground (some colour) else .other

/-- A colour that breaks off, or of a kind that is neither 5 nor 2, ends the reading. -/
def sgrOps : List Nat → List SgrOp
  | [] => []
  | p :: rest =>
    if isExtendedParam p then
      match rest with
      | 5 :: index :: more => extendedOp p (.indexed index) :: sgrOps more
      | 2 :: red :: green :: blue :: more => extendedOp p (.rgb red green blue) :: sgrOps more
      | _ => []
    else sgrOp p :: sgrOps rest

theorem sgrOps_cons {p : Nat} (plain : isExtendedParam p = false) (rest : List Nat) :
    sgrOps (p :: rest) = sgrOp p :: sgrOps rest := by
  rw [sgrOps.eq_def]
  simp [plain]

namespace SgrOp

def foregroundSet : SgrOp → Option (Option Colour)
  | .reset => some none
  | .foreground colour => some colour
  | _ => none

def boldSet : SgrOp → Option Bool
  | .reset => some false
  | .bold on => some on
  | _ => none

def underlineSet : SgrOp → Option Bool
  | .reset => some false
  | .underline on => some on
  | _ => none

end SgrOp

namespace Style

def step (style : Style) : SgrOp → Style
  | .reset => {}
  | .bold on => { style with bold := on }
  | .underline on => { style with underline := on }
  | .foreground colour => { style with foreground := colour }
  | .other => style

def run (style : Style) (ops : List SgrOp) : Style := ops.foldl step style

end Style

section Settling
variable {α : Type} {set : SgrOp → Option α}

/-- What an attribute comes to when each operation may set it. -/
def lastSet (set : SgrOp → Option α) (value : α) (ops : List SgrOp) : α :=
  ops.foldl (fun value op => (set op).getD value) value

def settles (set : SgrOp → Option α) (ops : List SgrOp) : Bool := ops.any fun op => (set op).isSome

theorem lastSet_of_settles {ops : List SgrOp} (settled : settles set ops = true) (value value' : α) :
    lastSet set value ops = lastSet set value' ops := by
  induction ops generalizing value value' with
  | nil => simp [settles] at settled
  | cons op ops ih =>
    cases now : set op with
    | some v => simp [lastSet, now]
    | none =>
      have later : settles set ops = true := by simpa [settles, now] using settled
      simpa [lastSet, now] using ih later value value'

theorem lastSet_of_not_settles {ops : List SgrOp} (untouched : settles set ops = false) (value : α) :
    lastSet set value ops = value := by
  induction ops generalizing value with
  | nil => rfl
  | cons op ops ih =>
    simp only [settles, List.any_cons, Bool.or_eq_false_iff, Option.isSome_eq_false_iff,
      Option.isNone_iff_eq_none] at untouched
    have rest := ih untouched.2 value
    simpa [lastSet, untouched.1] using rest

end Settling

namespace Style

theorem run_foreground (style : Style) (ops : List SgrOp) :
    (style.run ops).foreground = lastSet SgrOp.foregroundSet style.foreground ops := by
  induction ops generalizing style with
  | nil => rfl
  | cons op ops ih =>
    have rest := ih (style.step op)
    cases op <;> simpa [run, lastSet, step, SgrOp.foregroundSet] using rest

theorem run_bold (style : Style) (ops : List SgrOp) :
    (style.run ops).bold = lastSet SgrOp.boldSet style.bold ops := by
  induction ops generalizing style with
  | nil => rfl
  | cons op ops ih =>
    have rest := ih (style.step op)
    cases op <;> simpa [run, lastSet, step, SgrOp.boldSet] using rest

theorem run_underline (style : Style) (ops : List SgrOp) :
    (style.run ops).underline = lastSet SgrOp.underlineSet style.underline ops := by
  induction ops generalizing style with
  | nil => rfl
  | cons op ops ih =>
    have rest := ih (style.step op)
    cases op <;> simpa [run, lastSet, step, SgrOp.underlineSet] using rest

end Style

/-- A number that alone decides whether the foreground is touched. -/
def touchesForeground (p : Nat) : Bool := p == 0 || p == 39 || p == 38 || isForegroundParam p

theorem sgrOp_foregroundSet {p : Nat} (quiet : touchesForeground p = false) : (sgrOp p).foregroundSet = none := by
  simp only [touchesForeground, Bool.or_eq_false_iff, beq_eq_false_iff_ne] at quiet
  obtain ⟨⟨⟨reset, clear⟩, _⟩, colour⟩ := quiet
  simp only [sgrOp, reset, colour, if_false, Bool.false_eq_true]
  split_ifs <;> rfl

theorem extendedOp_foregroundSet {p : Nat} (quiet : touchesForeground p = false) (colour : Colour) :
    (extendedOp p colour).foregroundSet = none := by
  have other : p ≠ 38 := by
    rintro rfl
    exact absurd quiet (by decide)
  simp [extendedOp, other, SgrOp.foregroundSet]

/-- Parameters that touch no foreground settle none. -/
theorem settles_sgrOps {params : List Nat} (quiet : params.any touchesForeground = false) :
    settles SgrOp.foregroundSet (sgrOps params) = false := by
  fun_induction sgrOps params with
  | case1 => rfl
  | case2 p extended idx more ih =>
    simp only [List.any_cons, Bool.or_eq_false_iff] at quiet
    have head := extendedOp_foregroundSet quiet.1 (.indexed idx)
    have tail := ih quiet.2.2.2
    simpa [settles, head] using tail
  | case3 p extended red green blue more ih =>
    simp only [List.any_cons, Bool.or_eq_false_iff] at quiet
    have head := extendedOp_foregroundSet quiet.1 (.rgb red green blue)
    have tail := ih quiet.2.2.2.2.2
    simpa [settles, head] using tail
  | case4 => rfl
  | case5 p rest extended ih =>
    simp only [List.any_cons, Bool.or_eq_false_iff] at quiet
    have head := sgrOp_foregroundSet quiet.1
    have tail := ih quiet.2
    simpa [settles, head] using tail

end NexTerminal.Library
