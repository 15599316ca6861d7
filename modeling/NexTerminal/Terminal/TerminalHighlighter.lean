import NexTerminal.Terminal.Ansi

namespace NexTerminal.Terminal

def maxInputLength : Nat := 65536

def ascii (text : String) : Text := text.toList.map fun c => .ofNat c.toNat

/-- A regular expression with the flags `g` and `i` only: `exec` from a last index. -/
structure RegExp where
  global : Bool
  exec : Text → Nat → Option (Nat × Nat)
  within : ∀ text lastIndex start stop, exec text lastIndex = some (start, stop) →
    lastIndex ≤ start ∧ start ≤ stop ∧ stop ≤ text.length

/-- A number of the range the colours are in, as it is written: `30.5` is 30 and the digit 5. -/
structure Decimal where
  whole : Nat
  fraction : List (Fin 10)
  deriving DecidableEq

def Decimal.ofNat (n : Nat) : Decimal := ⟨n, []⟩

/-- `low <= code && code <= high`. -/
def Decimal.between (code : Decimal) (low high : Nat) : Bool :=
  low ≤ code.whole && (code.whole < high || (code.whole == high && code.fraction.isEmpty))

def isForegroundCode (code : Decimal) : Bool := code.between 30 37 || code.between 90 97

def natDigits (n : Nat) : Text := (Nat.toDigits 10 n).map fun c => .ofNat c.toNat

def Decimal.text (code : Decimal) : Text :=
  natDigits code.whole ++
    if code.fraction.isEmpty then [] else 0x2e :: code.fraction.map fun d => .ofNat (0x30 + d.val)

/-- What the compilation asks of the language: `new RegExp`, the patterns of `regexSafety.ts`, `Number` and
`toLowerCase`. -/
structure Platform where
  regExp : Text → Text → Option RegExp
  nestedQuantifier : Text → Bool
  quantifiedAlternation : Text → Bool
  number : Text → Option Decimal
  toLowerCase : Text → Text

def maxPatternLength : Nat := 500

def validateRegexSafety (env : Platform) (pattern : Text) : Bool :=
  !pattern.isEmpty && pattern.length ≤ maxPatternLength && !env.nestedQuantifier pattern
    && !env.quantifiedAlternation pattern

def colorMap : List (String × Nat) :=
  [("black", 30), ("red", 31), ("green", 32), ("yellow", 33), ("blue", 34), ("magenta", 35),
    ("cyan", 36), ("white", 37), ("brightblack", 90), ("brightred", 91), ("brightgreen", 92),
    ("brightyellow", 93), ("brightblue", 94), ("brightmagenta", 95), ("brightcyan", 96),
    ("brightwhite", 97)]

structure HighlightRule where
  pattern : Text
  color : Text
  flags : Option Text
  bold : Bool
  underline : Bool
  enabled : Option Bool

/-- `/^[gi]*$/`. -/
def validFlags (flags : Text) : Bool := flags.all fun u => u == 0x67 || u == 0x69

/-- A compiled rule: what its codes are made of, with at least one part. -/
structure CompiledRule where
  regex : RegExp
  color : Option Decimal
  bold : Bool
  underline : Bool
  foreground : ∀ code ∈ color, isForegroundCode code = true
  styled : (color.isSome || bold || underline) = true

def CompiledRule.sgrParts (rule : CompiledRule) : List Decimal :=
  rule.color.toList ++ (if rule.bold then [.ofNat 1] else []) ++
    if rule.underline then [.ofNat 4] else []

def CompiledRule.resetParts (rule : CompiledRule) : List Decimal :=
  (if rule.color.isSome then [.ofNat 39] else []) ++ (if rule.bold then [.ofNat 22] else []) ++
    if rule.underline then [.ofNat 24] else []

/-- The sequence with these numbers, ending in `m`. -/
def sgrCode (parts : List Decimal) : Text :=
  esc :: openBracket :: ([semicolon].intercalate (parts.map Decimal.text) ++ [0x6d])

def CompiledRule.openCode (rule : CompiledRule) : Text := sgrCode rule.sgrParts

def CompiledRule.closeCode (rule : CompiledRule) : Text := sgrCode rule.resetParts

/-- The number of a colour: a name, or a number in the range. -/
def colorCode (env : Platform) (color : Text) : Option Decimal :=
  match colorMap.find? fun entry => ascii entry.1 == env.toLowerCase color with
  | some entry => some (.ofNat entry.2)
  | none => (env.number color).filter isForegroundCode

/-- The code of a rule's colour sets a foreground. -/
theorem colorCode_foreground {env : Platform} {color : Text} {code : Decimal}
    (hit : colorCode env color = some code) : isForegroundCode code = true := by
  unfold colorCode at hit
  split at hit
  · rename_i entry named
    have mem := List.mem_of_find?_eq_some named
    have all : ∀ entry ∈ colorMap, isForegroundCode (.ofNat entry.2) = true := by decide
    rw [← Option.some.inj hit]
    exact all entry mem
  · exact (Option.filter_eq_some_iff.mp hit).2

def compileRule (env : Platform) (rule : HighlightRule) : Option CompiledRule :=
  if !validateRegexSafety env rule.pattern then none
  else
    let rawFlags := rule.flags.getD (ascii "gi")
    let flags := if validFlags rawFlags then rawFlags else ascii "gi"
    match env.regExp rule.pattern flags with
    | none => none
    | some regex =>
      if (regex.exec [] 0).isSome then none
      else if styled : ((colorCode env rule.color).isSome || rule.bold || rule.underline) = true then
        some
          { regex
            color := colorCode env rule.color
            bold := rule.bold
            underline := rule.underline
            foreground := fun _ found => colorCode_foreground found
            styled }
      else none

inductive SgrClass
  | none
  | fgSet
  | fgReset
  | reset
  deriving DecidableEq

/-- What the classifier has found among the numbers so far. -/
structure Found where
  fg : Bool := false
  reset : Bool := false
  fgReset : Bool := false

def Found.note (found : Found) (num : Nat) : Found :=
  if num = 0 then { found with reset := true }
  else if num = 39 then { found with fgReset := true }
  else if (30 ≤ num ∧ num ≤ 37) ∨ (90 ≤ num ∧ num ≤ 97) ∨ num = 38 then { found with fg := true }
  else found

def digitValue (u : UInt16) : Nat := u.toNat - 0x30

/-- The scan of the numbers; units that are neither digits nor semicolons are passed over. -/
def classifyFrom : Nat → Bool → Found → Text → Found
  | num, hasDigit, found, [] => found.note (if hasDigit then num else 0)
  | num, hasDigit, found, ch :: rest =>
    if isDigit ch then classifyFrom (num * 10 + digitValue ch) true found rest
    else if ch = semicolon then
      classifyFrom 0 false (found.note (if hasDigit then num else 0)) rest
    else classifyFrom num hasDigit found rest

def Found.sgrClass (found : Found) : SgrClass :=
  if found.reset then .reset
  else if found.fgReset then .fgReset
  else if found.fg then .fgSet
  else .none

/-- `ESC [ … m`, at least three units. -/
def isSgr (seq : Text) : Bool := 3 ≤ seq.length && seq.take 2 == [esc, openBracket] && seq.getLast? == some 0x6d

/-- What stands between `ESC [` and the final unit. -/
def sgrBody (seq : Text) : Text := (seq.drop 2).dropLast

def classifySgr (seq : Text) : SgrClass :=
  if isSgr seq then (classifyFrom 0 false {} (sgrBody seq)).sgrClass else .none

structure Match where
  start : Nat
  stop : Nat
  ruleIndex : Nat
  deriving DecidableEq

/-- The `while` loop of one rule from a last index. -/
def collectFrom (regex : RegExp) (text : Text) (ruleIndex : Nat) : Nat → Nat → List Match
  | 0, _ => []
  | fuel + 1, lastIndex =>
    match regex.exec text (if regex.global then lastIndex else 0) with
    | none => []
    | some (start, stop) =>
      (if start < stop then [⟨start, stop, ruleIndex⟩] else []) ++
        if regex.global then
          collectFrom regex text ruleIndex fuel (if start < stop then stop else stop + 1)
        else []

def rounds (text : Text) : Nat := text.length + 2

def collectMatches (text : Text) (rules : List CompiledRule) : List Match :=
  (rules.mapIdx fun ruleIndex rule => collectFrom rule.regex text ruleIndex (rounds text) 0).flatten

def Match.le (a b : Match) : Bool := a.start < b.start || (a.start == b.start && a.ruleIndex ≤ b.ruleIndex)

/-- The matches behind the last one kept that do not overlap it or one another. -/
def discardOverlaps (last : Match) : List Match → List Match
  | [] => []
  | m :: rest =>
    if last.stop ≤ m.start then m :: discardOverlaps m rest else discardOverlaps last rest

def filtered : List Match → List Match
  | [] => []
  | first :: rest => first :: discardOverlaps first rest

/-- A piece of the result: a sequence of the program's, text outside matches, or a match. -/
inductive Part
  | seq (units : Text)
  | plain (units : Text)
  | highlighted (rule : CompiledRule) (units : Text)

/-- `parts.push`: what a piece puts into the result. -/
def Part.output : Part → Text
  | .seq units => units
  | .plain units => units
  | .highlighted rule units => rule.openCode ++ units ++ rule.closeCode

def slice (text : Text) (start stop : Nat) : Text := (text.take stop).drop start

def buildParts (text : Text) (rules : List CompiledRule) : Nat → List Match → List Part
  | pos, [] => if pos < text.length then [.plain (text.drop pos)] else []
  | pos, fm :: rest =>
    (if pos < fm.start then [.plain (slice text pos fm.start)] else []) ++
      (match rules[fm.ruleIndex]? with
        | some rule => [.highlighted rule (slice text fm.start fm.stop)]
        | none => []) ++
      buildParts text rules fm.stop rest

/-- `applyRulesToPlainText`, before the pieces are joined. -/
def plainTextParts (text : Text) (rules : List CompiledRule) : List Part :=
  match collectMatches text rules with
  | [] => [.plain text]
  | first :: rest => buildParts text rules 0 (filtered ((first :: rest).mergeSort Match.le))

def applyRulesToPlainText (text : Text) (rules : List CompiledRule) : Text :=
  (plainTextParts text rules).flatMap Part.output

def colorActiveAfter (colorActive : Bool) (seq : Text) : Bool :=
  match classifySgr seq with
  | .reset => false
  | .fgReset => false
  | .fgSet => true
  | .none => colorActive

def segmentParts (rules : List CompiledRule) (colorActive : Bool) (plain : Text) : List Part :=
  if plain.isEmpty then []
  else if colorActive then [.plain plain]
  else plainTextParts plain rules

def ansiParts (rules : List CompiledRule) : Nat → Bool → Text → List Part
  | 0, _, _ => []
  | fuel + 1, colorActive, text =>
    match execAnsi text with
    | none => segmentParts rules colorActive text
    | some (index, length) =>
      let seq := slice text index (index + length)
      segmentParts rules colorActive (text.take index) ++
        .seq seq :: ansiParts rules fuel (colorActiveAfter colorActive seq) (text.drop (index + length))

structure TerminalHighlighter where
  enabled : Bool
  rules : List CompiledRule

/-- `reload` with the validated and upgraded rules of the settings. -/
def reload (env : Platform) (enabled : Bool) (rules : List HighlightRule) : TerminalHighlighter where
  enabled
  rules := rules.filterMap fun rule =>
    if rule.pattern.isEmpty || rule.color.isEmpty then none
    else if rule.enabled = some false then none
    else compileRule env rule

namespace TerminalHighlighter

def apply (highlighter : TerminalHighlighter) (text : Text) : Text :=
  if !highlighter.enabled || highlighter.rules.isEmpty then text
  else if maxInputLength < text.length then text
  else if !text.contains esc then applyRulesToPlainText text highlighter.rules
  else (ansiParts highlighter.rules (text.length + 1) false text).flatMap Part.output

end TerminalHighlighter

end NexTerminal.Terminal
