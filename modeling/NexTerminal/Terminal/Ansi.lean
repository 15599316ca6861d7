import Mathlib.Data.List.Basic
import Mathlib.Data.UInt

namespace NexTerminal.Terminal

abbrev Text := List UInt16

def esc : UInt16 := 0x1b

def bel : UInt16 := 0x07

def backslash : UInt16 := 0x5c

theorem esc_ne_bel : ¬esc = bel := by decide

def openBracket : UInt16 := 0x5b

def closeBracket : UInt16 := 0x5d

def isDigit (u : UInt16) : Bool := 0x30 ≤ u && u ≤ 0x39

def semicolon : UInt16 := 0x3b

/-- `[0-9;?]`. -/
def isParamUnit (u : UInt16) : Bool := isDigit u || u == semicolon || u == 0x3f

/-- `[@-~]`. -/
def isFinalUnit (u : UInt16) : Bool := 0x40 ≤ u && u ≤ 0x7e

def isLetter (u : UInt16) : Bool := (0x41 ≤ u && u ≤ 0x5a) || (0x61 ≤ u && u ≤ 0x7a)

/-- `[()#]`. -/
def isCharsetUnit (u : UInt16) : Bool := u == 0x28 || u == 0x29 || u == 0x23

/-- `[0-9;?]*[@-~]`: how much of the text it takes. -/
def csiEnd : Text → Option Nat
  | [] => none
  | u :: rest =>
    if isFinalUnit u then some 1
    else if isParamUnit u then (csiEnd rest).map (· + 1)
    else none

/-- `[^\x07\x1b]*(?:\x07|\x1b\\)?`: the terminator is optional. -/
def oscEnd : Text → Nat
  | [] => 0
  | u :: rest =>
    if u = bel then 1
    else if u = esc then (if rest.head? = some backslash then 2 else 0)
    else oscEnd rest + 1

/-- `createAnsiRegex()` tried at the start of the text: the length of its match. -/
def ansiAt : Text → Option Nat
  | [] => none
  | [_] => none
  | e :: u :: rest =>
    if e ≠ esc then none
    else if u = openBracket then (csiEnd rest).map (· + 2)
    else if u = closeBracket then some (oscEnd rest + 2)
    else if isCharsetUnit u then
      if rest.head?.any (fun v => isLetter v || isDigit v) then some 3 else none
    else if isLetter u then some 2
    else none

/-- `ansiRe.exec`: the index and the length of the first match. -/
def execAnsi : Text → Option (Nat × Nat)
  | [] => none
  | u :: rest =>
    match ansiAt (u :: rest) with
    | some length => some (0, length)
    | none => (execAnsi rest).map fun (index, length) => (index + 1, length)

inductive Token
  | char (unit : UInt16)
  | seq (units : Text)
  deriving DecidableEq

def lexFrom : Nat → Text → List Token
  | 0, _ => []
  | _ + 1, [] => []
  | fuel + 1, u :: rest =>
    match ansiAt (u :: rest) with
    | some length => .seq ((u :: rest).take length) :: lexFrom fuel ((u :: rest).drop length)
    | none => .char u :: lexFrom fuel rest

/-- A text as its sequences and the characters between them. -/
def lex (text : Text) : List Token := lexFrom text.length text

variable {text : Text} {length : Nat}

theorem ansiAt_pos (hit : ansiAt text = some length) : 0 < length := by
  match text, hit with
  | e :: u :: rest, hit =>
    simp only [ansiAt] at hit
    split_ifs at hit with notEsc bracket osc charset alnum letter
    · obtain ⟨-, _, rfl⟩ := Option.map_eq_some_iff.mp hit
      omega
    all_goals
      injection hit with hit
      omega

theorem csiEnd_le (ends : csiEnd text = some length) : length ≤ text.length := by
  induction text generalizing length with
  | nil => simp [csiEnd] at ends
  | cons u rest ih =>
    simp only [csiEnd] at ends
    simp only [List.length_cons]
    split_ifs at ends
    · injection ends with ends
      omega
    · obtain ⟨inner, hit, rfl⟩ := Option.map_eq_some_iff.mp ends
      have bound := ih hit
      omega

theorem oscEnd_le (text : Text) : oscEnd text ≤ text.length := by
  induction text with
  | nil => exact le_rfl
  | cons u rest ih =>
    simp only [oscEnd, List.length_cons]
    split_ifs with ringing escaped closed
    · omega
    · cases rest with
      | nil => simp at closed
      | cons => simp
    · omega
    · omega

theorem ansiAt_le (hit : ansiAt text = some length) : length ≤ text.length := by
  match text, hit with
  | e :: u :: rest, hit =>
    simp only [ansiAt] at hit
    simp only [List.length_cons]
    split_ifs at hit with notEsc bracket osc charset alnum letter
    · obtain ⟨count, ends, rfl⟩ := Option.map_eq_some_iff.mp hit
      have bound := csiEnd_le ends
      omega
    · injection hit with hit
      have bound := oscEnd_le rest
      omega
    · injection hit with hit
      cases rest with
      | nil => simp at alnum
      | cons => simp [← hit]
    · injection hit with hit
      omega

variable {rest : Text}

theorem ansiAt_ne_esc {u : UInt16} (ne : u ≠ esc) : ansiAt (u :: rest) = none := by
  cases rest <;> simp [ansiAt, ne]

theorem lexFrom_fuel {fuel : Nat} (enough : text.length ≤ fuel) : lexFrom fuel text = lex text := by
  have same : ∀ fuel fuel' text, text.length ≤ fuel → text.length ≤ fuel' →
      lexFrom fuel text = lexFrom fuel' text := by
    intro fuel
    induction fuel with
    | zero =>
      intro fuel' text enough _
      obtain rfl := List.eq_nil_of_length_eq_zero (by omega : text.length = 0)
      cases fuel' <;> rfl
    | succ fuel ih =>
      intro fuel' text enough enough'
      cases text with
      | nil => cases fuel' <;> rfl
      | cons u rest =>
        obtain ⟨fuel', rfl⟩ : ∃ f, fuel' = f + 1 := ⟨fuel' - 1, by simp at enough'; omega⟩
        simp only [List.length_cons] at enough enough'
        simp only [lexFrom]
        cases hit : ansiAt (u :: rest) with
        | none => simpa using ih fuel' rest (by omega) (by omega)
        | some length =>
          have positive := ansiAt_pos hit
          simpa using ih fuel' ((u :: rest).drop length) (by simp; omega) (by simp; omega)
  exact same _ _ _ enough le_rfl

@[simp]
theorem lex_nil : lex [] = [] := rfl

theorem lex_char {u : UInt16} (none : ansiAt (u :: rest) = none) : lex (u :: rest) = .char u :: lex rest := by
  simp [lex, lexFrom, none]

theorem lex_seq {seq rest : Text} (hit : ansiAt (seq ++ rest) = some seq.length) :
    lex (seq ++ rest) = .seq seq :: lex rest := by
  have positive := ansiAt_pos hit
  obtain ⟨u, tail, rfl⟩ : ∃ u tail, seq = u :: tail := by
    cases seq with
    | nil => simp at positive
    | cons u tail => exact ⟨u, tail, rfl⟩
  rw [← lexFrom_fuel (Nat.le_succ _)]
  simp only [List.cons_append] at hit
  simp only [List.cons_append, lexFrom, hit]
  have back : (u :: (tail ++ rest)) = (u :: tail) ++ rest := rfl
  rw [back, List.take_left, List.drop_left, lexFrom_fuel (by simp; omega)]

/-- A run of units none of which starts a sequence, before a given rest. -/
def PlainRun : Text → Text → Prop
  | [], _ => True
  | u :: run, rest => ansiAt (u :: (run ++ rest)) = none ∧ PlainRun run rest

theorem plainRun_append {first second : Text} :
    PlainRun (first ++ second) rest ↔ PlainRun first (second ++ rest) ∧ PlainRun second rest := by
  induction first with
  | nil => simp [PlainRun]
  | cons u first ih => simp [PlainRun, ih, and_assoc]

theorem PlainRun.lex {run : Text} (plain : PlainRun run rest) :
    lex (run ++ rest) = run.map .char ++ Terminal.lex rest := by
  induction run with
  | nil => rfl
  | cons u run ih =>
    rw [List.cons_append, lex_char plain.1, ih plain.2]
    rfl

theorem plainRun_of_no_esc {run : Text} (free : ∀ u ∈ run, u ≠ esc) : PlainRun run rest := by
  induction run with
  | nil => trivial
  | cons u run ih =>
    exact ⟨ansiAt_ne_esc (free u List.mem_cons_self), ih fun v mem => free v (List.mem_cons_of_mem u mem)⟩

theorem execAnsi_none (missed : execAnsi text = none) : PlainRun text [] := by
  induction text with
  | nil => trivial
  | cons u rest ih =>
    simp only [execAnsi] at missed
    split at missed
    · simp at missed
    · rename_i plain
      exact ⟨by simpa using plain, ih (by simpa using missed)⟩

theorem execAnsi_some {idx : Nat} (hit : execAnsi text = some (idx, length)) :
    PlainRun (text.take idx) (text.drop idx) ∧ ansiAt (text.drop idx) = some length := by
  induction text generalizing idx with
  | nil => simp [execAnsi] at hit
  | cons u rest ih =>
    simp only [execAnsi] at hit
    split at hit
    · rename_i count here
      obtain ⟨rfl, rfl⟩ := Prod.mk.inj (Option.some.inj hit)
      exact ⟨trivial, here⟩
    · rename_i plain
      obtain ⟨⟨earlier, count⟩, later, same⟩ := Option.map_eq_some_iff.mp hit
      obtain ⟨rfl, rfl⟩ := Prod.mk.inj same
      obtain ⟨run, here⟩ := ih later
      refine ⟨⟨?_, by simpa using run⟩, by simpa using here⟩
      simpa using plain

/-- `Woven before after`: the second text is the first with codes that start with
`ESC [` put in anywhere. -/
inductive Woven : Text → Text → Prop
  | done : Woven [] []
  | keep {before after} (u : UInt16) : Woven before after → Woven (u :: before) (u :: after)
  | insert {before after} (code : Text) : Woven before after → Woven before (esc :: openBracket :: (code ++ after))

variable {before after : Text}

theorem Woven.append (run : Text) (woven : Woven before after) :
    Woven (run ++ before) (run ++ after) := by
  induction run with
  | nil => exact woven
  | cons u run ih => exact .keep u ih

theorem Woven.head (woven : Woven before after) :
    after.head? = before.head? ∨ after.head? = some esc := by
  cases woven with
  | done | keep => exact .inl rfl
  | insert => exact .inr rfl

theorem csiEnd_append {code : Text} (ends : csiEnd code = some length) (rest : Text) :
    csiEnd (code ++ rest) = some length := by
  induction code generalizing length with
  | nil => simp [csiEnd] at ends
  | cons u code ih =>
    simp only [csiEnd] at ends
    simp only [List.cons_append, csiEnd]
    split_ifs at ends ⊢ with final param
    · exact ends
    · obtain ⟨inner, hit, rfl⟩ := Option.map_eq_some_iff.mp ends
      rw [ih hit]
      rfl

theorem csiEnd_whole {code : Text} (ends : csiEnd (code ++ rest) = some code.length) :
    csiEnd code = some code.length := by
  induction code with
  | nil =>
    cases rest with
    | nil => simp [csiEnd] at ends
    | cons u rest =>
      simp only [List.nil_append, csiEnd] at ends
      split_ifs at ends
      · simp at ends
      · simp at ends
  | cons u code ih =>
    simp only [List.cons_append, csiEnd, List.length_cons] at ends
    simp only [csiEnd]
    split_ifs at ends ⊢ with final param
    · exact ends
    · obtain ⟨inner, hit, same⟩ := Option.map_eq_some_iff.mp ends
      obtain rfl : inner = code.length := by omega
      rw [ih hit]
      rfl

theorem Woven.csiEnd_none (woven : Woven before after)
    (open' : csiEnd before = none) : csiEnd after = none := by
  induction woven with
  | done => exact open'
  | @keep before after u _ ih =>
    simp only [csiEnd] at open' ⊢
    split_ifs at open' ⊢ with final param
    · rw [ih (by simpa using open')]
      rfl
    · rfl
  | insert => rfl

theorem Woven.oscEnd {title before after : Text} (woven : Woven before after)
    (ends : oscEnd (title ++ before) = title.length) : oscEnd (title ++ after) = title.length := by
  induction title with
  | nil =>
    cases woven with
    | done | insert => rfl
    | @keep before after u woven =>
      simp only [List.nil_append, Terminal.oscEnd, List.length_nil] at ends ⊢
      by_cases ringing : u = bel
      · simp [ringing] at ends
      · by_cases escaped : u = esc
        · have unclosed : before.head? ≠ some backslash := by
            intro closed
            simp [escaped, closed, esc_ne_bel] at ends
          have still : after.head? ≠ some backslash := by
            rcases woven.head with same | inserted
            · rwa [same]
            · rw [inserted]
              decide
          rw [if_neg ringing, if_pos escaped, if_neg still]
        · simp [ringing, escaped] at ends
  | cons u title ih =>
    simp only [List.cons_append, Terminal.oscEnd, List.length_cons] at ends ⊢
    by_cases ringing : u = bel
    · simpa [ringing] using ends
    · by_cases escaped : u = esc
      · simp only [escaped, esc_ne_bel, if_true, if_false] at ends ⊢
        cases title with
        | nil =>
          split_ifs at ends
          simp at ends
        | cons v title => simpa using ends
      · simp only [ringing, escaped, if_false] at ends ⊢
        rw [ih (by omega)]

theorem Woven.ansiAt_none {u : UInt16} (woven : Woven before after)
    (plain : ansiAt (u :: before) = none) : ansiAt (u :: after) = none := by
  by_cases other : u = esc
  · subst other
    cases woven with
    | done | insert => rfl
    | @keep before after v woven =>
      simp only [ansiAt, ne_eq, not_true_eq_false, if_false] at plain ⊢
      by_cases bracket : v = openBracket
      · simp only [bracket, if_true, Option.map_eq_none_iff] at plain ⊢
        exact woven.csiEnd_none plain
      · simp only [bracket] at plain ⊢
        by_cases osc : v = closeBracket
        · simp [osc] at plain
        · simp only [osc, if_false] at plain ⊢
          by_cases charset : isCharsetUnit v = true
          · simp only [charset, if_true] at plain ⊢
            rcases woven.head with same | inserted
            · rwa [same]
            · rw [inserted]
              decide
          · simpa [charset] using plain
  · exact ansiAt_ne_esc other

/-- A sequence is still found when codes are woven in behind it. -/
theorem Woven.ansiAt_some {seq before after : Text} (woven : Woven before after)
    (hit : ansiAt (seq ++ before) = some seq.length) : ansiAt (seq ++ after) = some seq.length := by
  match seq, hit with
  | [], hit => exact absurd (ansiAt_pos hit) (by simp)
  | [u], hit =>
    cases before with
    | nil => simp [ansiAt] at hit
    | cons v before =>
      simp only [List.singleton_append, ansiAt] at hit
      split_ifs at hit
      all_goals simp at hit
  | e :: v :: seq, hit =>
    simp only [List.cons_append, ansiAt, List.length_cons] at hit ⊢
    by_cases escaped : e ≠ esc
    · simp [escaped] at hit
    · simp only [escaped] at hit ⊢
      by_cases bracket : v = openBracket
      · simp only [bracket] at hit ⊢
        obtain ⟨count, ends, same⟩ := Option.map_eq_some_iff.mp hit
        obtain rfl : count = seq.length := by omega
        rw [csiEnd_append (csiEnd_whole ends)]
        rfl
      · simp only [bracket, if_false] at hit ⊢
        by_cases osc : v = closeBracket
        · simp only [osc, if_true] at hit ⊢
          have ends := Option.some.inj hit
          rw [woven.oscEnd (by omega)]
        · simp only [osc] at hit ⊢
          by_cases charset : isCharsetUnit v = true
          · simp only [charset] at hit ⊢
            cases seq with
            | nil => simp at hit
            | cons w seq => simpa using hit
          · simpa [charset] using hit

theorem PlainRun.woven {run before after : Text} (plain : PlainRun run before)
    (woven : Woven before after) : PlainRun run after := by
  induction run with
  | nil => trivial
  | cons u run ih => exact ⟨(woven.append run).ansiAt_none plain.1, ih plain.2⟩

end NexTerminal.Terminal
