import NexTerminal.Terminal.Ansi

namespace NexTerminal.Terminal

/-- How the sequences of one kind start: `ESC ]` and a code. -/
structure Opener where
  code : Text
  plain : ∀ u ∈ code, u ≠ bel ∧ u ≠ esc

def Opener.text (opener : Opener) : Text := esc :: closeBracket :: opener.code

inductive Terminator
  | bel
  | st
  deriving DecidableEq

def Terminator.units : Terminator → Text
  | .bel => [Terminal.bel]
  | .st => [esc, backslash]

/-- A character, or a sequence: without a terminator it was interrupted by another escape. -/
inductive Piece
  | char (u : UInt16)
  | sequence (payload : Text) (terminator : Option Terminator)
  deriving DecidableEq

def Piece.kept : Piece → Text
  | .char u => [u]
  | .sequence _ _ => []

def kept (pieces : List Piece) : Text := pieces.flatMap Piece.kept

@[simp] theorem kept_char (u : UInt16) (pieces : List Piece) : kept (.char u :: pieces) = u :: kept pieces := rfl

@[simp] theorem kept_sequence (payload : Text) (terminator : Option Terminator) (pieces : List Piece) :
    kept (.sequence payload terminator :: pieces) = kept pieces := rfl

@[simp] theorem kept_append (first second : List Piece) : kept (first ++ second) = kept first ++ kept second :=
  List.flatMap_append

@[simp] theorem kept_chars (run : Text) : kept (run.map .char) = run := by
  induction run with
  | nil => rfl
  | cons u run ih => rw [List.map_cons, kept_char, ih]

def PayloadRun (units : Text) : Prop := ∀ u ∈ units, u ≠ bel ∧ u ≠ esc

theorem payloadRun_nil : PayloadRun [] := fun _ mem => absurd mem List.not_mem_nil

theorem payloadRun_cons {u : UInt16} {units : Text} :
    PayloadRun (u :: units) ↔ (u ≠ bel ∧ u ≠ esc) ∧ PayloadRun units := List.forall_mem_cons

/-- What ends a payload: a terminator, or an escape that is none and is read again. -/
inductive Ends : Text → Option Terminator → Text → Prop
  | bel (rest : Text) : Ends (Terminal.bel :: rest) (some .bel) rest
  | st (rest : Text) : Ends (esc :: backslash :: rest) (some .st) rest
  | stray {u : UInt16} (rest : Text) : u ≠ backslash → Ends (esc :: u :: rest) none (esc :: u :: rest)

def Apart (opener : Opener) (text : Text) : Prop := ¬opener.text <+: text ∧ ¬text <+: opener.text

def Undecided (opener : Opener) (text : Text) : Prop :=
  text <+: opener.text ∨
    ∃ payload stop, text = opener.text ++ (payload ++ stop) ∧ PayloadRun payload ∧ (stop = [] ∨ stop = [esc])

inductive Reading (opener : Opener) : Text → List Piece → Text → Prop
  | held {held} : Undecided opener held → Reading opener held [] held
  | char {u rest pieces held} : Apart opener (u :: rest) → Reading opener rest pieces held →
      Reading opener (u :: rest) (.char u :: pieces) held
  | sequence {payload stop terminator rest pieces held} : PayloadRun payload → Ends stop terminator rest →
      Reading opener rest pieces held →
      Reading opener (opener.text ++ (payload ++ stop)) (.sequence payload terminator :: pieces) held

variable {opener : Opener}

variable {terminator : Option Terminator} {stop rest : Text}

theorem Ends.append (ends : Ends stop terminator rest) (more : Text) :
    Ends (stop ++ more) terminator (rest ++ more) := by
  cases ends with
  | bel => exact .bel _
  | st => exact .st _
  | stray _ other => exact .stray _ other

theorem Apart.append {text : Text} (ne : Apart opener text) (more : Text) : Apart opener (text ++ more) := by
  constructor
  · intro starts
    rcases List.prefix_or_prefix_of_prefix starts (List.prefix_append text more) with within | beyond
    · exact ne.1 within
    · exact ne.2 beyond
  · intro starts
    exact ne.2 ((List.prefix_append text more).trans starts)

theorem Reading.append {text more held held' : Text} {pieces pieces' : List Piece}
    (reading : Reading opener text pieces held) (onward : Reading opener (held ++ more) pieces' held') :
    Reading opener (text ++ more) (pieces ++ pieces') held' := by
  induction reading with
  | held => exact onward
  | char ne _ ih => exact .char (ne.append more) (ih onward)
  | sequence run ends _ ih =>
    rw [List.append_assoc, List.append_assoc]
    exact .sequence run (ends.append more) (ih onward)

theorem undecided_nil : Undecided opener [] := .inl List.nil_prefix

theorem reading_nil : Reading opener [] [] [] := .held undecided_nil

theorem Reading.undecided {text held : Text} {pieces : List Piece} (reading : Reading opener text pieces held) :
    Undecided opener held := by
  induction reading with
  | held undecided => exact undecided
  | char _ _ ih | sequence _ _ _ ih => exact ih

theorem PayloadRun.unique {payload payload' stop stop' : Text} (run : PayloadRun payload) (run' : PayloadRun payload')
    (halts : ∀ u ∈ stop.head?, u = bel ∨ u = esc) (halts' : ∀ u ∈ stop'.head?, u = bel ∨ u = esc)
    (same : payload ++ stop = payload' ++ stop') : payload = payload' ∧ stop = stop' := by
  have ne : ∀ {u : UInt16} {units halted : Text}, (∀ v ∈ halted.head?, v = bel ∨ v = esc) →
      PayloadRun (u :: units) → ∀ {tail : Text}, ¬halted = u :: tail := by
    rintro u units _ halts run tail rfl
    have plain := (payloadRun_cons.mp run).1
    rcases halts u rfl with ringing | escaped
    · exact plain.1 ringing
    · exact plain.2 escaped
  induction payload generalizing payload' with
  | nil =>
    cases payload' with
    | nil => exact ⟨rfl, same⟩
    | cons u payload' => exact absurd same (ne halts run')
  | cons u payload ih =>
    cases payload' with
    | nil => exact absurd same.symm (ne halts' run)
    | cons v payload' =>
      obtain ⟨rfl, onward⟩ := List.cons.inj same
      obtain ⟨rfl, rest⟩ := ih (payloadRun_cons.mp run).2 (payloadRun_cons.mp run').2 onward
      exact ⟨rfl, rest⟩

theorem Ends.halts (ends : Ends stop terminator rest) :
    ∀ u ∈ stop.head?, u = Terminal.bel ∨ u = esc := by
  cases ends with
  | bel => exact fun u here => .inl (Option.some.inj here).symm
  | st | stray => exact fun u here => .inr (Option.some.inj here).symm

theorem Ends.unique {stop rest rest' : Text} {terminator' : Option Terminator} (ends : Ends stop terminator rest)
    (ends' : Ends stop terminator' rest') : terminator = terminator' ∧ rest = rest' := by
  generalize same : stop = stop' at ends'
  cases ends with
  | bel =>
    cases ends' with
    | bel => exact ⟨rfl, List.tail_eq_of_cons_eq same⟩
    | st | stray => exact absurd (List.head_eq_of_cons_eq same) (by decide)
  | st =>
    cases ends' with
    | bel => exact absurd (List.head_eq_of_cons_eq same) (by decide)
    | st => exact ⟨rfl, List.tail_eq_of_cons_eq (List.tail_eq_of_cons_eq same)⟩
    | stray _ other => exact absurd (List.head_eq_of_cons_eq (List.tail_eq_of_cons_eq same)).symm other
  | stray _ other =>
    cases ends' with
    | bel => exact absurd (List.head_eq_of_cons_eq same) (by decide)
    | st => exact absurd (List.head_eq_of_cons_eq (List.tail_eq_of_cons_eq same)) other
    | stray => exact ⟨rfl, same⟩

theorem Ends.ne_nil (ends : Ends stop terminator rest) : stop ≠ [] ∧ stop ≠ [esc] := by
  cases ends with
  | bel => exact ⟨List.cons_ne_nil _ _, fun same => absurd (List.head_eq_of_cons_eq same) (by decide)⟩
  | st | stray => exact ⟨List.cons_ne_nil _ _, fun same => List.cons_ne_nil _ _ (List.tail_eq_of_cons_eq same)⟩

theorem Undecided.not_apart {text : Text} (undecided : Undecided opener text) : ¬Apart opener text := by
  rintro ⟨open_, within⟩
  rcases undecided with short | ⟨payload, stop, rfl, -, -⟩
  · exact within short
  · exact open_ (List.prefix_append _ _)

theorem Ends.not_undecided {payload stop rest : Text} (run : PayloadRun payload) (ends : Ends stop terminator rest) :
    ¬Undecided opener (opener.text ++ (payload ++ stop)) := by
  rintro (short | ⟨payload', stop', same, run', left⟩)
  · have size := short.length_le
    simp only [List.length_append] at size
    exact ends.ne_nil.1 (List.eq_nil_of_length_eq_zero (by omega))
  · have halts : ∀ u ∈ stop'.head?, u = Terminal.bel ∨ u = esc := by
      rcases left with rfl | rfl
      · intro u here
        cases here
      · exact fun u here => .inr (Option.some.inj here).symm
    obtain ⟨-, rfl⟩ := run.unique run' ends.halts halts (List.append_cancel_left same)
    rcases left with none_ | lone
    · exact ends.ne_nil.1 none_
    · exact ends.ne_nil.2 lone

theorem Reading.unique {text held held' : Text} {pieces pieces' : List Piece}
    (reading : Reading opener text pieces held) (reading' : Reading opener text pieces' held') :
    pieces = pieces' ∧ held = held' := by
  suffices all : ∀ text' pieces', Reading opener text' pieces' held' → text = text' → pieces = pieces' ∧
    held = held' from
    all text pieces' reading' rfl
  clear reading'
  induction reading with
  | held undecided =>
    intro text' pieces' reading' same
    cases reading' with
    | held => exact ⟨rfl, same⟩
    | char ne => exact absurd ne (same ▸ undecided).not_apart
    | sequence run ends => exact absurd (same ▸ undecided) (ends.not_undecided run)
  | char ne _ ih =>
    intro text' pieces' reading' same
    cases reading' with
    | held undecided => exact absurd (same ▸ ne) undecided.not_apart
    | char _ onward =>
      obtain ⟨rfl, rfl⟩ := List.cons.inj same
      obtain ⟨rfl, rfl⟩ := ih _ _ onward rfl
      exact ⟨rfl, rfl⟩
    | sequence => exact absurd (List.prefix_append _ _) (same ▸ ne).1
  | sequence run ends _ ih =>
    intro text' pieces' reading' same
    cases reading' with
    | held undecided => exact absurd (same ▸ undecided) (ends.not_undecided run)
    | char ne => exact absurd (List.prefix_append _ _) (same ▸ ne).1
    | sequence run' ends' onward =>
      obtain ⟨rfl, rfl⟩ := run.unique run' ends.halts ends'.halts (List.append_cancel_left same)
      obtain ⟨rfl, rfl⟩ := ends.unique ends'
      obtain ⟨rfl, rfl⟩ := ih _ _ onward rfl
      exact ⟨rfl, rfl⟩

end NexTerminal.Terminal

/-! The two scanners for OSC sequences: the filter that takes systemd's context sequences out of
what a terminal gets (`oscContextFilter.ts`), and the observer of the reported working directory
(`osc7Parser.ts`). -/

namespace NexTerminal.Terminal

/-- `ESC ] 3008 ;`. -/
def contextOpener : Opener where
  code := [0x33, 0x30, 0x30, 0x38, semicolon]
  plain := by simp [bel, esc, semicolon]

/-- `ESC ] 7 ;`. -/
def osc7Opener : Opener where
  code := [0x37, semicolon]
  plain := by simp [bel, esc, semicolon]

def MAX_CARRY : Nat := 4096

/-- `text.indexOf(pattern)`. -/
def indexOf (pattern : Text) : Text → Option Nat
  | [] => if pattern.isEmpty then some 0 else none
  | u :: rest => if pattern.isPrefixOf (u :: rest) then some 0 else (indexOf pattern rest).map (· + 1)

inductive TerminatorResult
  | found (termStart stop : Nat)
  | strayEsc (strayEscIndex : Nat)
  | incomplete
  deriving DecidableEq

def findTerminatorFrom (i : Nat) : Text → TerminatorResult
  | [] => .incomplete
  | ch :: rest =>
    if ch = bel then .found i (i + 1)
    else if ch = esc then
      match rest with
      | [] => .incomplete
      | next :: _ => if next = backslash then .found i (i + 2) else .strayEsc i
    else findTerminatorFrom (i + 1) rest

def findTerminator (buf : Text) (searchFrom : Nat) : TerminatorResult :=
  findTerminatorFrom searchFrom (buf.drop searchFrom)

def trailingOpenFrom (pattern buf : Text) : Nat → Nat
  | 0 => 0
  | len + 1 =>
    let candidate := buf.drop (buf.length - (len + 1))
    if candidate.head? ≠ some esc then trailingOpenFrom pattern buf len
    else if candidate.isPrefixOf pattern then len + 1
    else trailingOpenFrom pattern buf len

def trailingOpenPrefix (pattern buf : Text) : Nat :=
  trailingOpenFrom pattern buf (min buf.length (pattern.length - 1))

namespace OscContextFilter

/-- The loop of `filter`: what is left of the buffer, the output so far; the output and the carry. -/
def filterLoop : Nat → Text → Text → Text × Text
  | 0, buf, output => (output, buf)
  | fuel + 1, buf, output =>
    match indexOf contextOpener.text buf with
    | none =>
      let tail := trailingOpenPrefix contextOpener.text buf
      if tail > 0 then (output ++ buf.take (buf.length - tail), buf.drop (buf.length - tail))
      else (output ++ buf, [])
    | some opIdx =>
      let output := output ++ buf.take opIdx
      let buf := buf.drop opIdx
      match findTerminator buf contextOpener.text.length with
      | .found _ stop => filterLoop fuel (buf.drop stop) output
      | .strayEsc strayEscIndex => filterLoop fuel (buf.drop strayEscIndex) output
      | .incomplete => (output, buf)

def filter (carry input : Text) : Text × Text :=
  let buf := carry ++ input
  let (output, carry) := filterLoop (buf.length + 1) buf []
  if carry.length > MAX_CARRY then (output ++ carry, []) else (output, carry)

end OscContextFilter

/-- What `new URL(...)` gives. -/
structure URL where
  protocol : Text
  pathname : Text
  hostname : Text
  deriving DecidableEq

structure Osc7Match where
  path : Text
  authority : Text
  deriving DecidableEq

/-- `new URL`, `decodeURIComponent` (both may throw) and `path.posix.normalize`. -/
structure Osc7Platform where
  parseUrl : Text → Option URL
  decodeURIComponent : Text → Option Text
  normalize : Text → Text

namespace Osc7Parser

def MAX_PATH_LENGTH : Nat := 4096

/-- `CONTROL_CHAR_RE.test(text)`. -/
def hasControlChar (text : Text) : Bool := text.any (· ≤ 0x1f)

/-- `file:`. -/
def fileProtocol : Text := [0x66, 0x69, 0x6c, 0x65, 0x3a]

def slash : UInt16 := 0x2f

variable (env : Osc7Platform)

def normalizeAbsolutePosixPath (candidate : Text) : Option Text :=
  if candidate.isEmpty || candidate.contains 0 then none
  else
    let normalized := env.normalize candidate
    if normalized.head? = some slash then some normalized else none

/-- `safeParsePayload`: an exception gives no match. -/
def safeParsePayload (raw : Text) : Option Osc7Match :=
  if hasControlChar raw then none
  else
    match env.parseUrl raw with
    | none => none
    | some url =>
      if url.protocol ≠ fileProtocol then none
      else
        match env.decodeURIComponent url.pathname with
        | none => none
        | some decoded =>
          if decoded.length > MAX_PATH_LENGTH then none
          else if hasControlChar decoded then none
          else (normalizeAbsolutePosixPath env decoded).map fun normalized => ⟨normalized, url.hostname⟩

/-- The loop of `feed`: what is left of the buffer, the matches so far; the matches and the carry. -/
def feedLoop : Nat → Text → List Osc7Match → List Osc7Match × Text
  | 0, buf, found => (found, buf)
  | fuel + 1, buf, found =>
    match indexOf osc7Opener.text buf with
    | none =>
      let tail := trailingOpenPrefix osc7Opener.text buf
      (found, if tail > 0 then buf.drop (buf.length - tail) else [])
    | some opIdx =>
      let buf := buf.drop opIdx
      match findTerminator buf osc7Opener.text.length with
      | .found termStart stop =>
        let payload := (buf.take termStart).drop osc7Opener.text.length
        feedLoop fuel (buf.drop stop) (found ++ (safeParsePayload env payload).toList)
      | .strayEsc strayEscIndex => feedLoop fuel (buf.drop strayEscIndex) found
      | .incomplete => (found, buf)

def feed (carry chunk : Text) : List Osc7Match × Text :=
  let buf := carry ++ chunk
  let (found, carry) := feedLoop env (buf.length + 1) buf []
  if carry.length > MAX_CARRY then (found, []) else (found, carry)

end Osc7Parser

/-- A run of characters none of which starts a sequence, before a given rest. -/
def Quiet (opener : Opener) : Text → Text → Prop
  | [], _ => True
  | u :: run, rest => Apart opener (u :: (run ++ rest)) ∧ Quiet opener run rest

variable {opener : Opener}

theorem Quiet.reading {run rest held : Text} {pieces : List Piece} (quiet : Quiet opener run rest)
    (reading : Reading opener rest pieces held) : Reading opener (run ++ rest) (run.map .char ++ pieces) held := by
  induction run with
  | nil => exact reading
  | cons u run ih => exact .char quiet.1 (ih quiet.2)

theorem indexOf_some {buf : Text} {opIdx : Nat} (hit : indexOf opener.text buf = some opIdx) :
    ∃ run rest, buf = run ++ (opener.text ++ rest) ∧ run.length = opIdx ∧
      Quiet opener run (opener.text ++ rest) := by
  induction buf generalizing opIdx with
  | nil => cases hit
  | cons u buf ih =>
    simp only [indexOf] at hit
    split_ifs at hit with here
    · obtain rfl := Option.some.inj hit
      obtain ⟨rest, same⟩ := List.isPrefixOf_iff_prefix.mp here
      exact ⟨[], rest, same.symm, rfl, trivial⟩
    · obtain ⟨later, beyond, rfl⟩ := Option.map_eq_some_iff.mp hit
      obtain ⟨run, rest, rfl, rfl, quiet⟩ := ih beyond
      refine ⟨u :: run, rest, rfl, rfl, ⟨fun starts => here (List.isPrefixOf_iff_prefix.mpr starts), ?_⟩, quiet⟩
      intro within
      have size := within.length_le
      simp only [List.length_cons, List.length_append] at size
      omega

theorem indexOf_none {buf : Text} (missed : indexOf opener.text buf = none) {run rest : Text}
    (parts : buf = run ++ rest) : ¬opener.text <+: rest := by
  induction buf generalizing run with
  | nil =>
    obtain ⟨rfl, rfl⟩ := List.append_eq_nil_iff.mp parts.symm
    exact fun starts => List.cons_ne_nil _ _ (List.prefix_nil.mp starts)
  | cons u buf ih =>
    simp only [indexOf] at missed
    split_ifs at missed with here
    cases run with
    | nil =>
      obtain rfl : u :: buf = rest := parts
      exact fun starts => here (List.isPrefixOf_iff_prefix.mpr starts)
    | cons v run =>
      obtain ⟨-, later⟩ := List.cons.inj parts
      exact ih (Option.map_eq_none_iff.mp missed) later

theorem trailingOpenFrom_spec (opener : Opener) (buf : Text) (len : Nat) :
    let tail := trailingOpenFrom opener.text buf len
    tail ≤ len ∧ buf.drop (buf.length - tail) <+: opener.text ∧
      ∀ longer, tail < longer → longer ≤ len → longer ≤ buf.length →
        ¬buf.drop (buf.length - longer) <+: opener.text := by
  induction len with
  | zero =>
    refine ⟨le_rfl, ?_, fun longer above below => absurd above (by omega)⟩
    rw [trailingOpenFrom, Nat.sub_zero, List.drop_length]
    exact List.nil_prefix
  | succ len ih =>
    simp only [trailingOpenFrom]
    have onward (fails : len + 1 ≤ buf.length → ¬buf.drop (buf.length - (len + 1)) <+: opener.text) :
        let tail := trailingOpenFrom opener.text buf len
        tail ≤ len + 1 ∧ buf.drop (buf.length - tail) <+: opener.text ∧
          ∀ longer, tail < longer → longer ≤ len + 1 → longer ≤ buf.length →
            ¬buf.drop (buf.length - longer) <+: opener.text := by
      refine ⟨Nat.le_succ_of_le ih.1, ih.2.1, ?_⟩
      intro longer above below within
      rcases Nat.lt_or_ge len longer with last | earlier
      · obtain rfl : longer = len + 1 := by omega
        exact fails within
      · exact ih.2.2 longer above earlier within
    split_ifs with other starts
    · refine onward fun within opens => other ?_
      obtain ⟨rest, same⟩ := opens
      cases drop : buf.drop (buf.length - (len + 1)) with
      | nil =>
        have size := congrArg List.length drop
        simp only [List.length_drop, List.length_nil] at size
        omega
      | cons u cand =>
        rw [drop, List.cons_append] at same
        exact congrArg some (List.head_eq_of_cons_eq same)
    · exact ⟨le_rfl, List.isPrefixOf_iff_prefix.mp starts, fun longer above below => absurd above (by omega)⟩
    · exact onward fun _ opens => starts (List.isPrefixOf_iff_prefix.mpr opens)

theorem trailing_quiet {buf : Text} (missed : indexOf opener.text buf = none) :
    ∃ run held, buf = run ++ held ∧ held.length = trailingOpenPrefix opener.text buf ∧ Quiet opener run held ∧
      held <+: opener.text := by
  have spec := trailingOpenFrom_spec opener buf (min buf.length (opener.text.length - 1))
  rw [← trailingOpenPrefix] at spec
  generalize trailingOpenPrefix opener.text buf = tail at spec ⊢
  obtain ⟨bound, opens, longest⟩ := spec
  refine ⟨buf.take (buf.length - tail), buf.drop (buf.length - tail), (List.take_append_drop _ _).symm,
    ?_, ?_, opens⟩
  · rw [List.length_drop]
    omega
  -- every suffix that starts before the tail is none of an opener
  have quiet : ∀ run past, buf = past ++ (run ++ buf.drop (buf.length - tail)) →
      Quiet opener run (buf.drop (buf.length - tail)) := by
    intro run
    induction run with
    | nil => exact fun _ _ => trivial
    | cons u run ih =>
      intro past parts
      refine ⟨⟨indexOf_none missed parts, ?_⟩, ih (past ++ [u]) (by rw [List.append_assoc]; exact parts)⟩
      intro short
      have here : buf.drop past.length = u :: (run ++ buf.drop (buf.length - tail)) := by
        conv_lhs => rw [parts]
        exact List.drop_left
      have size := congrArg List.length parts
      have size' := short.length_le
      have whole : ¬(u :: (run ++ buf.drop (buf.length - tail))).length = opener.text.length := by
        intro same
        have opening := short.eq_of_length same
        exact indexOf_none missed parts (opening ▸ List.prefix_rfl)
      simp only [List.length_append, List.length_cons, List.length_drop] at size size' whole
      refine longest (buf.length - past.length) (by omega) (by omega) (by omega) ?_
      rw [show buf.length - (buf.length - past.length) = past.length by omega, here]
      exact short
  exact quiet _ [] (List.take_append_drop _ _).symm

/-- The search stops at the first terminator, or at what may become one. -/
theorem findTerminatorFrom_spec (text : Text) (i : Nat) :
    ∃ payload stop, text = payload ++ stop ∧ PayloadRun payload ∧
      (findTerminatorFrom i text = .incomplete ∧ (stop = [] ∨ stop = [esc]) ∨
        (∃ terminator rest, Ends stop (some terminator) rest ∧
          findTerminatorFrom i text = .found (i + payload.length) (i + payload.length + terminator.units.length)) ∨
        ∃ rest, Ends stop none rest ∧ findTerminatorFrom i text = .strayEsc (i + payload.length)) := by
  induction text generalizing i with
  | nil => exact ⟨[], [], rfl, payloadRun_nil, .inl ⟨rfl, .inl rfl⟩⟩
  | cons u text ih =>
    simp only [findTerminatorFrom]
    by_cases ringing : u = bel
    · subst ringing
      exact ⟨[], _, rfl, payloadRun_nil, .inr (.inl ⟨.bel, text, .bel text, rfl⟩)⟩
    rw [if_neg ringing]
    by_cases escaped : u = esc
    · subst escaped
      cases text with
      | nil => exact ⟨[], _, rfl, payloadRun_nil, .inl ⟨rfl, .inr rfl⟩⟩
      | cons next text =>
        by_cases closes : next = backslash
        · subst closes
          exact ⟨[], _, rfl, payloadRun_nil, .inr (.inl ⟨.st, text, .st text, if_pos rfl⟩)⟩
        · exact ⟨[], _, rfl, payloadRun_nil, .inr (.inr ⟨_, .stray text closes, if_neg closes⟩)⟩
    rw [if_neg escaped]
    obtain ⟨payload, stop, rfl, run, what⟩ := ih (i + 1)
    refine ⟨u :: payload, stop, rfl, payloadRun_cons.mpr ⟨⟨ringing, escaped⟩, run⟩, ?_⟩
    rw [List.length_cons, show i + (payload.length + 1) = i + 1 + payload.length by omega]
    exact what

end NexTerminal.Terminal
