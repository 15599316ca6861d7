import NexTerminal.Library.Sgr
import NexTerminal.Terminal.TerminalHighlighter

namespace NexTerminal.Terminal

open Library

/-- The numbers of a sequence; a private one (`ESC [ ? …`) has none that mean a style. -/
def paramsFrom : Nat → Text → Option (List Nat)
  | num, [] => some [num]
  | num, u :: rest =>
    if isDigit u then paramsFrom (num * 10 + digitValue u) rest
    else if u = semicolon then (paramsFrom 0 rest).map (num :: ·)
    else none

def sgrParams (seq : Text) : List Nat :=
  if isSgr seq then (paramsFrom 0 (sgrBody seq)).getD [] else []

def sgrOpsOf (seq : Text) : List SgrOp := sgrOps (sgrParams seq)

def styleAfter (style : Style) (seq : Text) : Style := style.run (sgrOpsOf seq)

structure Cell where
  unit : UInt16
  style : Style
  deriving DecidableEq

def screenFrom : Style → List Token → List Cell
  | _, [] => []
  | style, .char u :: rest => ⟨u, style⟩ :: screenFrom style rest
  | style, .seq units :: rest => screenFrom (styleAfter style units) rest

/-- What a terminal shows. Escape sequences are told from text by the program's own `createAnsiRegex`, so what that
expression misses (SGR with colons, `ESC [ > 4 ; 2 m`, a DCS payload) counts as text here. -/
def screen (text : Text) : List Cell := screenFrom {} (lex text)

theorem screenFrom_chars (style : Style) (units : Text) (rest : List Token) :
    screenFrom style (units.map .char ++ rest) = units.map (fun u => ⟨u, style⟩) ++ screenFrom style rest := by
  induction units with
  | nil => rfl
  | cons u units ih => simp [screenFrom, ih]

theorem styleAfter_foreground (style : Style) (seq : Text) :
    (styleAfter style seq).foreground = lastSet SgrOp.foregroundSet style.foreground (sgrOpsOf seq) :=
  style.run_foreground _

theorem styleAfter_bold (style : Style) (seq : Text) :
    (styleAfter style seq).bold = lastSet SgrOp.boldSet style.bold (sgrOpsOf seq) :=
  style.run_bold _

theorem styleAfter_underline (style : Style) (seq : Text) :
    (styleAfter style seq).underline = lastSet SgrOp.underlineSet style.underline (sgrOpsOf seq) :=
  style.run_underline _

def setsBold (seq : Text) : Bool := settles SgrOp.boldSet (sgrOpsOf seq)

def setsUnderline (seq : Text) : Bool := settles SgrOp.underlineSet (sgrOpsOf seq)

theorem classifyFrom_params {num : Nat} {hasDigit : Bool} {found : Found} {body : Text}
    {params : List Nat} (start : hasDigit = false → num = 0) (read : paramsFrom num body = some params) :
    classifyFrom num hasDigit found body = params.foldl Found.note found := by
  induction body generalizing num hasDigit found params with
  | nil =>
    obtain rfl := Option.some.inj read
    cases hasDigit with
    | true => rfl
    | false => simp [classifyFrom, start rfl]
  | cons u rest ih =>
    by_cases digit : isDigit u = true
    · simp only [paramsFrom, classifyFrom, digit] at read ⊢
      exact ih (by simp) read
    · by_cases sep : u = semicolon
      · have number : (if hasDigit = true then num else 0) = num := by
          cases hasDigit with
          | true => rfl
          | false => simp [start rfl]
        simp only [classifyFrom, sep, number] at read ⊢
        obtain ⟨more, later, rfl⟩ := Option.map_eq_some_iff.mp read
        exact ih (by simp) later
      · simp [paramsFrom, digit, sep] at read

theorem Found.note_quiet {hit : Found} {num : Nat} (quiet : (hit.note num).sgrClass = .none) :
    hit.sgrClass = .none ∧ touchesForeground num = false := by
  unfold Found.note at quiet
  split_ifs at quiet with reset clear colour
  · simp [Found.sgrClass] at quiet
  · simp only [Found.sgrClass] at quiet
    split_ifs at quiet
  · simp only [Found.sgrClass] at quiet
    split_ifs at quiet
  · refine ⟨quiet, ?_⟩
    simp [touchesForeground, isForegroundParam]
    omega

theorem Found.foldl_quiet {params : List Nat} {hit : Found}
    (quiet : (params.foldl Found.note hit).sgrClass = .none) :
    hit.sgrClass = .none ∧ params.any touchesForeground = false := by
  induction params generalizing hit with
  | nil => exact ⟨quiet, rfl⟩
  | cons num params ih =>
    obtain ⟨here, later⟩ := ih quiet
    obtain ⟨pre, now⟩ := Found.note_quiet here
    exact ⟨pre, by simp [now, later]⟩

theorem foreground_of_class_none {seq : Text} (quiet : classifySgr seq = .none) (style : Style) :
    (styleAfter style seq).foreground = style.foreground := by
  rw [styleAfter_foreground]
  apply lastSet_of_not_settles
  unfold classifySgr at quiet
  split_ifs at quiet with sgr
  · cases read : paramsFrom 0 (sgrBody seq) with
    | none => simp [sgrOpsOf, sgrParams, read, sgrOps, settles]
    | some params =>
      rw [classifyFrom_params (by simp) read] at quiet
      have silent := (Found.foldl_quiet quiet).2
      simpa [sgrOpsOf, sgrParams, sgr, read] using settles_sgrOps silent
  · simp [sgrOpsOf, sgrParams, sgr, sgrOps, settles]

theorem isSgr_sgrCode (parts : List Decimal) : isSgr (sgrCode parts) = true := by
  simp [isSgr, sgrCode, List.getLast?_cons]

theorem sgrBody_sgrCode (parts : List Decimal) :
    sgrBody (sgrCode parts) = [semicolon].intercalate (parts.map Decimal.text) := by
  simp [sgrBody, sgrCode]

theorem unit_of_digit {c : Char} (digit : c.isDigit = true) :
    isDigit (.ofNat c.toNat) = true ∧ digitValue (.ofNat c.toNat) = c.toNat - 48 := by
  simp only [Char.isDigit, Bool.and_eq_true, decide_eq_true_eq] at digit
  have low : 48 ≤ c.toNat := digit.1
  have high : c.toNat ≤ 57 := digit.2
  have value : (UInt16.ofNat c.toNat).toNat = c.toNat := by
    rw [UInt16.toNat_ofNat']
    omega
  constructor
  · simp only [isDigit, Bool.and_eq_true, decide_eq_true_eq, UInt16.le_iff_toNat_le, value]
    exact ⟨low, high⟩
  · simp [digitValue, value]

variable {u : UInt16}

theorem natDigits_digit {n : Nat} (mem : u ∈ natDigits n) : isDigit u = true := by
  obtain ⟨c, char, rfl⟩ := List.mem_map.mp mem
  exact (unit_of_digit (Nat.isDigit_of_mem_toDigits (by decide) (by decide) char)).1

theorem paramsFrom_chars {chars : List Char} (digits : ∀ c ∈ chars, c.isDigit = true) (num : Nat)
    (rest : Text) :
    paramsFrom num (chars.map (fun c => UInt16.ofNat c.toNat) ++ rest) =
      paramsFrom (Nat.ofDigitChars 10 chars num) rest := by
  induction chars generalizing num with
  | nil => rfl
  | cons c chars ih =>
    obtain ⟨digit, value⟩ := unit_of_digit (digits c List.mem_cons_self)
    rw [List.map_cons, List.cons_append, paramsFrom, if_pos digit,
      ih (fun d mem => digits d (List.mem_cons_of_mem c mem)), value, Nat.ofDigitChars_cons,
      Nat.mul_comm]
    rfl

theorem paramsFrom_natDigits (n : Nat) (rest : Text) : paramsFrom 0 (natDigits n ++ rest) = paramsFrom n rest := by
  have digits : ∀ c ∈ Nat.toDigits 10 n, c.isDigit = true := fun c mem =>
    Nat.isDigit_of_mem_toDigits (by decide) (by decide) mem
  rw [natDigits, paramsFrom_chars digits, Nat.ofDigitChars_ten_toDigits]

theorem paramsFrom_intercalate (n : Nat) (more : List Nat) :
    paramsFrom 0 ([semicolon].intercalate ((n :: more).map natDigits)) = some (n :: more) := by
  induction more generalizing n with
  | nil =>
    have read := paramsFrom_natDigits n []
    simpa [paramsFrom] using read
  | cons m more ih =>
    have later := ih m
    simp only [List.map_cons] at later ⊢
    rw [List.intercalate_cons_cons, List.append_assoc, paramsFrom_natDigits]
    simp [paramsFrom, show isDigit semicolon = false from rfl,
      later]

def Decimal.isWhole (code : Decimal) : Bool := code.fraction.isEmpty

theorem Decimal.text_whole {code : Decimal} (whole : code.isWhole = true) : code.text = natDigits code.whole := by
  simp only [Decimal.isWhole] at whole
  simp [Decimal.text, whole]

variable {parts : List Decimal}

theorem sgrParams_sgrCode (whole : ∀ code ∈ parts, code.isWhole = true) (ne : parts ≠ []) :
    sgrParams (sgrCode parts) = parts.map Decimal.whole := by
  obtain ⟨first, more, rfl⟩ := List.exists_cons_of_ne_nil ne
  have texts : (first :: more).map Decimal.text = ((first :: more).map Decimal.whole).map natDigits := by
    rw [List.map_map]
    exact List.map_congr_left fun code mem => Decimal.text_whole (whole code mem)
  rw [sgrParams, isSgr_sgrCode, sgrBody_sgrCode, texts, List.map_cons (f := Decimal.whole), paramsFrom_intercalate]
  rfl

theorem isFinalUnit_of_param (param : isParamUnit u = true) : isFinalUnit u = false := by
  simp only [isParamUnit, isDigit, Bool.or_eq_true, Bool.and_eq_true, decide_eq_true_eq,
    beq_iff_eq] at param
  have below : u.toNat < 64 := by
    rcases param with (⟨_, high⟩ | rfl) | rfl
    · have bound : u.toNat ≤ 57 := high
      omega
    · decide
    · decide
  simp only [isFinalUnit, Bool.and_eq_false_iff, UInt16.le_iff_toNat_le]
  exact .inl (by simpa using below)

theorem csiEnd_params {params : Text} (allowed : ∀ u ∈ params, isParamUnit u = true) (rest : Text) :
    csiEnd (params ++ 0x6d :: rest) = some (params.length + 1) := by
  induction params with
  | nil => rfl
  | cons u params ih =>
    have param := allowed u List.mem_cons_self
    simp [csiEnd, isFinalUnit_of_param param, param, ih fun v mem => allowed v (List.mem_cons_of_mem u mem)]

theorem csiEnd_dot {params : Text} (allowed : ∀ u ∈ params, isParamUnit u = true) (rest : Text) :
    csiEnd (params ++ 0x2e :: rest) = none := by
  induction params with
  | nil => rfl
  | cons u params ih =>
    have param := allowed u List.mem_cons_self
    simp [csiEnd, isFinalUnit_of_param param, ih fun v mem => allowed v (List.mem_cons_of_mem u mem)]

theorem isParamUnit_of_digit (digit : isDigit u = true) : isParamUnit u = true := by
  simp [isParamUnit, digit]

theorem mem_intercalate {texts : List Text} (mem : u ∈ [semicolon].intercalate texts) :
    u = semicolon ∨ ∃ text ∈ texts, u ∈ text := by
  induction texts with
  | nil => simp at mem
  | cons first rest ih =>
    cases rest with
    | nil => exact .inr ⟨first, List.mem_cons_self, by simpa using mem⟩
    | cons second rest =>
      rw [List.intercalate_cons_cons] at mem
      rcases List.mem_append.mp mem with head | tail
      · rcases List.mem_append.mp head with inFirst | separator
        · exact .inr ⟨first, List.mem_cons_self, inFirst⟩
        · exact .inl (List.mem_singleton.mp separator)
      · rcases ih tail with separator | ⟨text, among, inside⟩
        · exact .inl separator
        · exact .inr ⟨text, List.mem_cons_of_mem _ among, inside⟩

theorem ansiAt_sgrCode (whole : ∀ code ∈ parts, code.isWhole = true) (rest : Text) :
    ansiAt (sgrCode parts ++ rest) = some (sgrCode parts).length := by
  have allowed : ∀ u ∈ [semicolon].intercalate (parts.map Decimal.text), isParamUnit u = true := by
    intro u mem
    rcases mem_intercalate mem with rfl | ⟨text, among, inside⟩
    · rfl
    · obtain ⟨code, part, rfl⟩ := List.mem_map.mp among
      rw [Decimal.text_whole (whole code part)] at inside
      exact isParamUnit_of_digit (natDigits_digit inside)
  have ends := csiEnd_params allowed rest
  simp [sgrCode, ansiAt, ends]

namespace CompiledRule

def isWhole (rule : CompiledRule) : Bool := rule.color.all Decimal.isWhole

theorem sgrParts_ne_nil (rule : CompiledRule) : rule.sgrParts ≠ [] := by
  have styled := rule.styled
  unfold sgrParts
  cases colour : rule.color <;> cases bold : rule.bold <;> cases underline : rule.underline <;>
    simp_all

theorem resetParts_ne_nil (rule : CompiledRule) : rule.resetParts ≠ [] := by
  have styled := rule.styled
  unfold resetParts
  cases colour : rule.color <;> cases bold : rule.bold <;> cases underline : rule.underline <;>
    simp_all

variable {rule : CompiledRule}

theorem sgrParts_whole (whole : rule.isWhole = true) : ∀ code ∈ rule.sgrParts, code.isWhole = true := by
  intro code mem
  simp only [sgrParts, List.mem_append, Option.mem_toList] at mem
  rcases mem with (colour | bold) | underline
  · simp only [isWhole, Option.mem_def.mp colour] at whole
    exact whole
  · split_ifs at bold
    · rw [List.mem_singleton.mp bold]
      rfl
    · simp at bold
  · split_ifs at underline
    · rw [List.mem_singleton.mp underline]
      rfl
    · simp at underline

theorem resetParts_whole (rule : CompiledRule) : ∀ code ∈ rule.resetParts, code.isWhole = true := by
  unfold resetParts
  generalize rule.color.isSome = coloured
  cases coloured <;> cases rule.bold <;> cases rule.underline <;> decide

theorem ansiAt_closeCode (rule : CompiledRule) (rest : Text) :
    ansiAt (rule.closeCode ++ rest) = some rule.closeCode.length :=
  ansiAt_sgrCode rule.resetParts_whole rest

theorem ansiAt_openCode (whole : rule.isWhole = true) (rest : Text) :
    ansiAt (rule.openCode ++ rest) = some rule.openCode.length :=
  ansiAt_sgrCode (sgrParts_whole whole) rest

theorem foreground_param {code : Decimal} (colour : rule.color = some code) :
    isForegroundParam code.whole = true := by
  have range := rule.foreground code colour
  simp only [isForegroundCode, Decimal.between, Bool.or_eq_true, Bool.and_eq_true,
    decide_eq_true_eq, beq_iff_eq] at range
  simp only [isForegroundParam, Bool.or_eq_true, Bool.and_eq_true, decide_eq_true_eq]
  omega

theorem sgrOpsOf_openCode (whole : rule.isWhole = true) : sgrOpsOf rule.openCode =
      (rule.color.toList.map fun code => SgrOp.foreground (some (.basic code.whole))) ++
        (if rule.bold then [.bold true] else []) ++ if rule.underline then [.underline true] else [] := by
  have styles : sgrOps ((if rule.bold then [1] else []) ++ if rule.underline then [4] else []) =
      (if rule.bold then [.bold true] else []) ++
        if rule.underline then [.underline true] else [] := by
    cases rule.bold <;> cases rule.underline <;> decide
  have numbers : rule.sgrParts.map Decimal.whole = rule.color.toList.map Decimal.whole ++
      ((if rule.bold then [1] else []) ++ if rule.underline then [4] else []) := by
    unfold sgrParts
    cases rule.bold <;> cases rule.underline <;> simp [Decimal.ofNat]
  rw [sgrOpsOf, openCode, sgrParams_sgrCode (sgrParts_whole whole) rule.sgrParts_ne_nil, numbers]
  cases colour : rule.color with
  | none => simpa using styles
  | some code =>
    have param := foreground_param colour
    have range := param
    simp only [isForegroundParam, Bool.or_eq_true, Bool.and_eq_true, decide_eq_true_eq] at range
    have plain : isExtendedParam code.whole = false := by
      simp only [isExtendedParam, Bool.or_eq_false_iff, beq_eq_false_iff_ne]
      omega
    have op : sgrOp code.whole = .foreground (some (.basic code.whole)) := by
      simp only [sgrOp]
      split_ifs <;> first | rfl | omega
    simp [sgrOps_cons plain, op, styles]

theorem sgrOpsOf_closeCode (rule : CompiledRule) :
    sgrOpsOf rule.closeCode =
      (if rule.color.isSome then [.foreground none] else []) ++
        (if rule.bold then [.bold false] else []) ++ if rule.underline then [.underline false] else [] := by
  rw [sgrOpsOf, closeCode, sgrParams_sgrCode rule.resetParts_whole rule.resetParts_ne_nil]
  unfold resetParts
  generalize rule.color.isSome = coloured
  cases coloured <;> cases rule.bold <;> cases rule.underline <;> decide

theorem styleAfter_codes (whole : rule.isWhole = true) (style : Style) :
    styleAfter (styleAfter style rule.openCode) rule.closeCode =
      { foreground := if rule.color.isSome then none else style.foreground
        bold := !rule.bold && style.bold
        underline := !rule.underline && style.underline } := by
  simp only [styleAfter, sgrOpsOf_openCode whole, sgrOpsOf_closeCode]
  cases rule.color <;> cases rule.bold <;> cases rule.underline <;> rfl

theorem openCode_eq (rule : CompiledRule) : ∃ code, rule.openCode = esc :: openBracket :: code := ⟨_, rfl⟩

theorem closeCode_eq (rule : CompiledRule) : ∃ code, rule.closeCode = esc :: openBracket :: code := ⟨_, rfl⟩

end CompiledRule

theorem intercalate_start (first : Text) (texts : List Text) :
    ∃ tail, [semicolon].intercalate (first :: texts) = first ++ tail := by
  cases texts with
  | nil => exact ⟨[], by simp⟩
  | cons second rest => exact ⟨_, by rw [List.intercalate_cons_cons, List.append_assoc]⟩

theorem ne_esc_of_digit (digit : isDigit u = true) : u ≠ esc := by
  rintro rfl
  exact absurd digit (by decide)

theorem Decimal.text_ne_esc {code : Decimal} (mem : u ∈ code.text) : u ≠ esc := by
  have fractionDigit : ∀ d : Fin 10, UInt16.ofNat (0x30 + d.val) ≠ esc := by decide
  rcases List.mem_append.mp mem with whole | fraction
  · exact ne_esc_of_digit (natDigits_digit whole)
  · split_ifs at fraction
    · simp at fraction
    · rcases List.mem_cons.mp fraction with rfl | digit
      · decide
      · obtain ⟨d, _, rfl⟩ := List.mem_map.mp digit
        exact fractionDigit d

theorem sgrCode_ne_esc (mem : u ∈ openBracket :: ([semicolon].intercalate (parts.map Decimal.text) ++ [0x6d])) :
    u ≠ esc := by
  rcases List.mem_cons.mp mem with rfl | inside
  · decide
  · rcases List.mem_append.mp inside with num | final
    · rcases mem_intercalate num with rfl | ⟨text, among, inText⟩
      · decide
      · obtain ⟨code, _, rfl⟩ := List.mem_map.mp among
        exact Decimal.text_ne_esc inText
    · rw [List.mem_singleton.mp final]
      decide

namespace CompiledRule

/-- The code of a colour that is no whole number is no escape sequence. -/
theorem plainRun_openCode {rule : CompiledRule} (broken : rule.isWhole = false) (rest : Text) :
    PlainRun rule.openCode rest := by
  obtain ⟨code, colour, fraction⟩ : ∃ code, rule.color = some code ∧ code.isWhole = false := by
    cases colour : rule.color with
    | none => simp [isWhole, colour] at broken
    | some code => exact ⟨code, rfl, by simpa [isWhole, colour] using broken⟩
  obtain ⟨tail, dotted⟩ : ∃ tail, [semicolon].intercalate (rule.sgrParts.map Decimal.text) =
      natDigits code.whole ++ 0x2e :: tail := by
    simp only [Decimal.isWhole] at fraction
    simp only [sgrParts, colour, Option.toList_some, List.cons_append, List.map_cons]
    obtain ⟨tail, starts⟩ := intercalate_start code.text _
    exact ⟨_, by rw [starts, Decimal.text, fraction, List.append_assoc]; rfl⟩
  refine ⟨?_, plainRun_of_no_esc fun u => sgrCode_ne_esc⟩
  have allowed : ∀ u ∈ natDigits code.whole, isParamUnit u = true :=
    fun u mem => isParamUnit_of_digit (natDigits_digit mem)
  have ends := csiEnd_dot allowed (tail ++ [0x6d] ++ rest)
  simp only [dotted, List.cons_append, List.append_assoc] at ends ⊢
  simp only [ansiAt, ne_eq, not_true_eq_false, if_false, if_true, ends, Option.map_none]

end CompiledRule

end NexTerminal.Terminal
