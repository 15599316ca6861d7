import NexTerminal.Terminal.HighlightParts

namespace NexTerminal.Terminal

open Library

/-- The same characters, and outside matches in the same style. -/
def Undisturbed : List Bool → List Cell → List Cell → Prop
  | [], [], [] => True
  | inMatch :: marks, before :: cells, after :: cells' =>
    after.unit = before.unit ∧ (inMatch = false → after.style = before.style) ∧ Undisturbed marks cells cells'
  | _, _, _ => False

/-- No character of a match is one that the program has coloured. -/
def Uncoloured (marks : List Bool) (cells : List Cell) : Prop :=
  ∀ entry ∈ marks.zip cells, entry.1 = true → entry.2.style.foreground = none

def marksOf (parts : List Part) : List Bool := parts.flatMap Part.marks

structure ChangesOnlyMatches (highlighter : TerminalHighlighter) (text : Text) : Prop where
  joined : highlighter.apply text = outputText (highlighter.parts text)
  restored : sourceText (highlighter.parts text) = text
  uncoloured : Uncoloured (marksOf (highlighter.parts text)) (screen text)
  undisturbed : Undisturbed (marksOf (highlighter.parts text)) (screen text) (screen (highlighter.apply text))

/-- What the program has on and a close code has turned off. -/
structure Owed where
  bold : Bool := false
  underline : Bool := false
  deriving DecidableEq

def Owed.after (owed : Owed) (seq : Text) : Owed where
  bold := owed.bold && !setsBold seq
  underline := owed.underline && !setsUnderline seq

def Owed.matched (owed : Owed) (style : Style) (rule : CompiledRule) : Owed where
  bold := owed.bold || (rule.bold && style.bold)
  underline := owed.underline || (rule.underline && style.underline)

/-- Whether the last sequence that the classifier did not pass over, if it took it for a
reset, has left the foreground reset. -/
def honestAfter (honest : Bool) (style : Style) (seq : Text) : Bool :=
  match classifySgr seq with
  | .reset => (styleAfter style seq).foreground.isNone
  | .fgReset => (styleAfter style seq).foreground.isNone
  | .fgSet => true
  | .none => honest

example : honestAfter true {} (esc :: ascii "[38;5;0m") = false := by
  rw [ascii, String.toList_ofList]
  decide

/-- A match comes behind honest resets, and outside matches nothing is shown while an attribute is owed. -/
def Respected : Style → Bool → Owed → List Part → Prop
  | _, _, _, [] => True
  | style, honest, owed, .seq units :: rest =>
    Respected (styleAfter style units) (honestAfter honest style units) (owed.after units) rest
  | style, honest, owed, .plain units :: rest =>
    (units ≠ [] → owed = {}) ∧ Respected style honest owed rest
  | style, honest, owed, .highlighted rule _ :: rest =>
    (honest = true ∧ rule.isWhole = true) ∧ Respected style honest (owed.matched style rule) rest

instance Respected.decidable : ∀ (parts : List Part) (style : Style) (honest : Bool) (owed : Owed),
    Decidable (Respected style honest owed parts)
  | [], _, _, _ => isTrue trivial
  | .seq units :: rest, style, honest, owed =>
    Respected.decidable rest (styleAfter style units) (honestAfter honest style units) (owed.after units)
  | .plain units :: rest, style, honest, owed =>
    have := Respected.decidable rest style honest owed
    inferInstanceAs (Decidable ((units ≠ [] → owed = {}) ∧ Respected style honest owed rest))
  | .highlighted rule _ :: rest, style, honest, owed =>
    have := Respected.decidable rest style honest (owed.matched style rule)
    inferInstanceAs (Decidable ((honest = true ∧ rule.isWhole = true) ∧
      Respected style honest (owed.matched style rule) rest))

variable {marks : List Bool}

theorem Undisturbed.length {cells cells' : List Cell} (same : Undisturbed marks cells cells') :
    cells'.length = cells.length := by
  induction marks generalizing cells cells' with
  | nil =>
    cases cells <;> cases cells' <;> first | rfl | exact same.elim
  | cons inMatch marks ih =>
    cases cells with
    | nil => cases cells' <;> exact same.elim
    | cons pre cells =>
      cases cells' with
      | nil => exact same.elim
      | cons after cells' =>
        have rest := ih same.2.2
        simp [rest]

variable {style : Style}

theorem undisturbed_run {inMatch : Bool} {style' : Style} (units : Text) {cells cells' : List Cell} :
    Undisturbed (units.map (fun _ => inMatch) ++ marks) (units.map (fun u => ⟨u, style⟩) ++ cells)
        (units.map (fun u => ⟨u, style'⟩) ++ cells') ↔
      (units ≠ [] → inMatch = false → style' = style) ∧ Undisturbed marks cells cells' := by
  induction units with
  | nil => simp
  | cons u units ih =>
    simp only [List.map_cons, List.cons_append, Undisturbed]
    tauto

theorem uncoloured_run {inMatch : Bool} (units : Text) {cells : List Cell} :
    Uncoloured (units.map (fun _ => inMatch) ++ marks) (units.map (fun u => ⟨u, style⟩) ++ cells) ↔
      (units ≠ [] → inMatch = true → style.foreground = none) ∧ Uncoloured marks cells := by
  induction units with
  | nil => simp
  | cons u units ih =>
    have unfolded : ∀ marks cells, Uncoloured (inMatch :: marks) (⟨u, style⟩ :: cells) ↔
        (inMatch = true → style.foreground = none) ∧ Uncoloured marks cells := by
      simp [Uncoloured]
    simp only [List.map_cons, List.cons_append, unfolded, ne_eq, reduceCtorEq]
    tauto

/-- The flag is off: the resets were honest exactly when no foreground is set. -/
def Reads (colorActive honest : Bool) (style : Style) : Prop :=
  colorActive = false → (honest = true ↔ style.foreground = none)

theorem Reads.after {colorActive honest : Bool} (reads : Reads colorActive honest style) (seq : Text) :
    Reads (colorActiveAfter colorActive seq) (honestAfter honest style seq) (styleAfter style seq) := by
  intro off
  cases cls : classifySgr seq with
  | none =>
    simp only [colorActiveAfter, cls] at off
    simpa [honestAfter, cls, foreground_of_class_none cls style] using reads off
  | fgSet => simp [colorActiveAfter, cls] at off
  | fgReset | reset => simp [honestAfter, cls]

/-- The terminal's style with highlighting, against the one without. -/
structure Follows (style shown : Style) (owed : Owed) : Prop where
  foreground : shown.foreground = style.foreground
  bold : shown.bold = (style.bold && !owed.bold)
  underline : shown.underline = (style.underline && !owed.underline)
  owedBold : owed.bold = true → style.bold = true
  owedUnderline : owed.underline = true → style.underline = true

variable {owed : Owed}

section

variable {shown : Style} (follows : Follows style shown owed)
include follows

theorem Follows.eq_iff : shown = style ↔ owed = {} := by
  obtain ⟨foreground, bold, underline, owedBold, owedUnderline⟩ := follows
  obtain ⟨fg, b, u⟩ := style
  obtain ⟨fg', b', u'⟩ := shown
  obtain ⟨ob, ou⟩ := owed
  cases b <;> cases u <;> cases ob <;> cases ou <;> simp_all

theorem Follows.after (seq : Text) : Follows (styleAfter style seq) (styleAfter shown seq) (owed.after seq) where
  foreground := by rw [styleAfter_foreground, styleAfter_foreground, follows.foreground]
  bold := by
    rw [styleAfter_bold, styleAfter_bold]
    cases sets : setsBold seq with
    | true => simpa [Owed.after, sets] using lastSet_of_settles sets shown.bold style.bold
    | false =>
      rw [lastSet_of_not_settles sets, lastSet_of_not_settles sets, follows.bold]
      simp [Owed.after, sets]
  underline := by
    rw [styleAfter_underline, styleAfter_underline]
    cases sets : setsUnderline seq with
    | true => simpa [Owed.after, sets] using lastSet_of_settles sets shown.underline style.underline
    | false =>
      rw [lastSet_of_not_settles sets, lastSet_of_not_settles sets, follows.underline]
      simp [Owed.after, sets]
  owedBold owes := by
    simp only [Owed.after, Bool.and_eq_true, Bool.not_eq_true'] at owes
    rw [styleAfter_bold, lastSet_of_not_settles owes.2]
    exact follows.owedBold owes.1
  owedUnderline owes := by
    simp only [Owed.after, Bool.and_eq_true, Bool.not_eq_true'] at owes
    rw [styleAfter_underline, lastSet_of_not_settles owes.2]
    exact follows.owedUnderline owes.1

theorem Follows.matched {rule : CompiledRule} (whole : rule.isWhole = true) (free : style.foreground = none) :
    Follows style (styleAfter (styleAfter shown rule.openCode) rule.closeCode)
      (owed.matched style rule) := by
  rw [CompiledRule.styleAfter_codes whole]
  constructor
  · simp [follows.foreground, free]
  · simp only [Owed.matched, follows.bold]
    cases rule.bold <;> cases style.bold <;> simp
  · simp only [Owed.matched, follows.underline]
    cases rule.underline <;> cases style.underline <;> simp
  · simp only [Owed.matched, Bool.or_eq_true, Bool.and_eq_true]
    rintro (owes | both)
    · exact follows.owedBold owes
    · exact both.2
  · simp only [Owed.matched, Bool.or_eq_true, Bool.and_eq_true]
    rintro (owes | both)
    · exact follows.owedUnderline owes
    · exact both.2

end

def WholeColours (parts : List Part) : Prop := ∀ rule units, .highlighted rule units ∈ parts → rule.isWhole = true

theorem respected_iff {parts : List Part} {shown : Style} {colorActive honest : Bool} (cut : Cut parts)
    (whole : WholeColours parts) (tracked : Tracked colorActive parts) (reads : Reads colorActive honest style)
    (follows : Follows style shown owed) :
    (Uncoloured (marksOf parts) (screenFrom style (parts.flatMap Part.tokens)) ∧
        Undisturbed (marksOf parts) (screenFrom style (parts.flatMap Part.tokens))
          (screenFrom shown (parts.flatMap Part.outputTokens))) ↔
      Respected style honest owed parts := by
  induction parts generalizing style shown colorActive honest owed with
  | nil => simp [marksOf, Uncoloured, Undisturbed, Respected, screenFrom]
  | cons part rest ih =>
    have wholeRest : WholeColours rest :=
      fun rule units mem => whole rule units (List.mem_cons_of_mem part mem)
    simp only [marksOf, List.flatMap_cons] at ih ⊢
    cases part with
    | seq units => exact ih cut.2 wholeRest tracked (reads.after units) (follows.after units)
    | plain units =>
      have later := ih cut.2 wholeRest tracked reads follows
      simp only [Part.marks, Part.tokens, Part.outputTokens, screenFrom_chars, uncoloured_run,
        undisturbed_run, Respected, ← follows.eq_iff]
      tauto
    | highlighted rule units =>
      have ruleWhole := whole rule units List.mem_cons_self
      obtain ⟨off, trackedRest⟩ := tracked
      have shownRun : screenFrom shown
          ((Part.openTokens rule ++ units.map .char ++ [.seq rule.closeCode]) ++ rest.flatMap Part.outputTokens) =
          units.map (fun u => ⟨u, styleAfter shown rule.openCode⟩) ++
            screenFrom (styleAfter (styleAfter shown rule.openCode) rule.closeCode)
              (rest.flatMap Part.outputTokens) := by
        simp [Part.openTokens, ruleWhole, screenFrom, screenFrom_chars]
      simp only [Part.marks, Part.tokens, Part.outputTokens, shownRun, screenFrom_chars,
        uncoloured_run, undisturbed_run, Respected, ruleWhole, reads off]
      by_cases free : style.foreground = none
      · have later := ih cut.2 wholeRest trackedRest reads (follows.matched ruleWhole free)
        rw [← later]
        simp [free]
      · simp [free, cut.1.1]

def charCount (tokens : List Token) : Nat :=
  (tokens.map fun token => match token with | .char _ => 1 | .seq _ => 0).sum

theorem length_screenFrom (style : Style) (tokens : List Token) :
    (screenFrom style tokens).length = charCount tokens := by
  induction tokens generalizing style with
  | nil => rfl
  | cons token tokens ih =>
    cases token with
    | char u => simp [screenFrom, charCount, ih, Nat.add_comm]
    | seq units => simp [screenFrom, charCount, ih]

theorem charCount_append (first second : List Token) :
    charCount (first ++ second) = charCount first + charCount second := by
  simp [charCount]

theorem charCount_chars (units : Text) : charCount (units.map .char) = units.length := by
  induction units with
  | nil => rfl
  | cons u units ih =>
    simp only [charCount, List.map_cons, List.sum_cons, List.length_cons] at ih ⊢
    omega

theorem charCount_output (parts : List Part) :
    charCount (parts.flatMap Part.tokens) ≤ charCount (parts.flatMap Part.outputTokens) ∧
      (charCount (parts.flatMap Part.outputTokens) = charCount (parts.flatMap Part.tokens) →
        WholeColours parts) := by
  induction parts with
  | nil => exact ⟨le_rfl, fun _ rule units mem => absurd mem (by simp)⟩
  | cons part rest ih =>
    obtain ⟨more, equal⟩ := ih
    simp only [List.flatMap_cons, charCount_append]
    cases part with
    | seq units | plain units =>
      refine ⟨by simpa [Part.tokens, Part.outputTokens] using more, fun same rule units mem => ?_⟩
      have later : WholeColours rest := equal (by simpa [Part.tokens, Part.outputTokens] using same)
      exact later rule units (by simpa using mem)
    | highlighted rule units =>
      have opened : charCount (Part.openTokens rule) = 0 ∧ rule.isWhole = true ∨
          0 < charCount (Part.openTokens rule) := by
        unfold Part.openTokens
        split_ifs with whole
        · exact .inl ⟨rfl, whole⟩
        · rw [charCount_chars]
          simp [CompiledRule.openCode, sgrCode]
      simp only [Part.tokens, Part.outputTokens, charCount_append]
      refine ⟨by omega, fun same rule' units' mem => ?_⟩
      rcases opened with ⟨-, whole⟩ | shown
      · rcases List.mem_cons.mp mem with this | later
        · injection this with sameRule
          rw [sameRule]
          exact whole
        · exact equal (by omega) rule' units' later
      · omega

theorem Respected.wholeColours {parts : List Part} {honest : Bool} (respected : Respected style honest owed parts) :
    WholeColours parts := by
  induction parts generalizing style honest owed with
  | nil => exact fun rule units mem => absurd mem (by simp)
  | cons part rest ih =>
    intro rule units mem
    cases part with
    | seq units' => exact ih respected rule units (by simpa using mem)
    | plain units' => exact ih respected.2 rule units (by simpa using mem)
    | highlighted rule' units' =>
      rcases List.mem_cons.mp mem with this | later
      · injection this with sameRule
        rw [sameRule]
        exact respected.1.2
      · exact ih respected.2 rule units later

theorem changesOnlyMatches_iff (highlighter : TerminalHighlighter) (text : Text) :
    ChangesOnlyMatches highlighter text ↔ Respected {} true {} (highlighter.parts text) := by
  obtain ⟨restored, cut⟩ := highlighter.parts_cut text
  have joined := highlighter.apply_eq text
  have pre : screen text = screenFrom {} ((highlighter.parts text).flatMap Part.tokens) := by
    rw [screen, ← cut.lex_source, restored]
  have after : screen (highlighter.apply text) =
      screenFrom {} ((highlighter.parts text).flatMap Part.outputTokens) := by
    rw [screen, joined, cut.lex_output]
  have reads : Reads false true {} := fun _ => by simp
  have follows : Follows {} {} {} := ⟨rfl, rfl, rfl, id, id⟩
  constructor
  · intro changes
    have undisturbed := changes.undisturbed
    have uncoloured := changes.uncoloured
    rw [pre, after] at undisturbed
    rw [pre] at uncoloured
    have lengths := undisturbed.length
    rw [length_screenFrom, length_screenFrom] at lengths
    have whole := (charCount_output _).2 lengths
    exact (respected_iff cut whole (highlighter.parts_tracked text) reads follows).mp
      ⟨uncoloured, undisturbed⟩
  · intro respected
    obtain ⟨uncoloured, undisturbed⟩ := (respected_iff cut respected.wholeColours
      (highlighter.parts_tracked text) reads follows).mpr respected
    refine ⟨joined, restored, ?_, ?_⟩
    · rwa [pre]
    · rwa [pre, after]

/-- Highlighting changes only what it highlights if and only if every match is respected. -/
theorem highlighting_respects_text (env : Platform) (enabled : Bool) (rules : List HighlightRule)
    (text : Text) :
    ChangesOnlyMatches (reload env enabled rules) text ↔
      Respected {} true {} ((reload env enabled rules).parts text) :=
  changesOnlyMatches_iff _ text

def wordFrom (word text : Text) : Nat → Nat → Option (Nat × Nat)
  | 0, _ => none
  | fuel + 1, index =>
    if index + word.length ≤ text.length ∧ slice text index (index + word.length) = word then
      some (index, index + word.length)
    else wordFrom word text fuel (index + 1)

theorem wordFrom_within {word text : Text} {fuel idx start stop : Nat}
    (hit : wordFrom word text fuel idx = some (start, stop)) :
    idx ≤ start ∧ start ≤ stop ∧ stop ≤ text.length := by
  induction fuel generalizing idx with
  | zero => simp [wordFrom] at hit
  | succ fuel ih =>
    rw [wordFrom] at hit
    split_ifs at hit with here
    · obtain ⟨rfl, rfl⟩ := Prod.mk.inj (Option.some.inj hit)
      exact ⟨le_rfl, Nat.le_add_right _ _, here.1⟩
    · have later := ih hit
      omega

def wordRegExp (word : Text) : RegExp where
  global := true
  exec text lastIndex := wordFrom word text (text.length + 1) lastIndex
  within _ _ _ _ := wordFrom_within

def wordPlatform : Platform where
  regExp pattern _ := some (wordRegExp pattern)
  nestedQuantifier _ := false
  quantifiedAlternation _ := false
  number _ := none
  toLowerCase := id

def errorRule : HighlightRule where
  pattern := ascii "ERROR"
  color := ascii "red"
  flags := some (ascii "gi")
  bold := true
  underline := false
  enabled := none

/-- `ESC[1mERROR: disk full`: behind the match the program's bold is gone. -/
def boldLine : Text := esc :: ascii "[1mERROR: disk full"

theorem boldLine_disturbed :
    ¬∀ (env : Platform) (enabled : Bool) (rules : List HighlightRule) (text : Text),
      text.length ≤ maxInputLength → ChangesOnlyMatches (reload env enabled rules) text := by
  intro always
  have changes := always wordPlatform true [errorRule] boldLine (by decide)
  have respected := (changesOnlyMatches_iff _ _).mp changes
  exact absurd respected (by decide +kernel)

end NexTerminal.Terminal
