import NexTerminal.Terminal.OscScanners

namespace NexTerminal.Terminal

variable {opener : Opener}

def endUnits : Option Terminator → Text
  | some terminator => terminator.units
  | none => []

theorem Ends.shape {stop rest : Text} {term : Option Terminator} (ends : Ends stop term rest) :
    stop = endUnits term ++ rest := by
  cases ends <;> rfl

def endResult (start : Nat) : Option Terminator → TerminatorResult
  | some terminator => .found start (start + terminator.units.length)
  | none => .strayEsc start

inductive Round (opener : Opener) (buf : Text) : Prop
  | spent {run held} : buf = run ++ held → Quiet opener run held → held <+: opener.text →
      indexOf opener.text buf = none → trailingOpenPrefix opener.text buf = held.length → Round opener buf
  | unended {run payload stop} : buf = run ++ (opener.text ++ (payload ++ stop)) →
      Quiet opener run (opener.text ++ (payload ++ stop)) → PayloadRun payload → stop = [] ∨ stop = [esc] →
      indexOf opener.text buf = some run.length →
      findTerminator (opener.text ++ (payload ++ stop)) opener.text.length = .incomplete → Round opener buf
  | ended {run payload terminator rest} {stop} : buf = run ++ (opener.text ++ (payload ++ stop)) →
      Quiet opener run (opener.text ++ (payload ++ stop)) → PayloadRun payload → Ends stop terminator rest →
      indexOf opener.text buf = some run.length →
      findTerminator (opener.text ++ (payload ++ stop)) opener.text.length =
        endResult (opener.text.length + payload.length) terminator → Round opener buf

theorem round (opener : Opener) (buf : Text) : Round opener buf := by
  cases hit : indexOf opener.text buf with
  | none =>
    obtain ⟨run, held, parts, size, quiet, opens⟩ := trailing_quiet hit
    exact .spent parts quiet opens hit size.symm
  | some opIdx =>
    obtain ⟨run, after, rfl, rfl, quiet⟩ := indexOf_some hit
    obtain ⟨payload, stop, rfl, plain, what⟩ := findTerminatorFrom_spec after opener.text.length
    have searched : findTerminator (opener.text ++ (payload ++ stop)) opener.text.length =
        findTerminatorFrom opener.text.length (payload ++ stop) := by
      rw [findTerminator, List.drop_left]
    rw [← searched] at what
    rcases what with ⟨incomplete, left⟩ | ⟨term, rest, ends, res⟩ | ⟨rest, ends, res⟩
    · exact .unended rfl quiet plain left hit incomplete
    · exact .ended rfl quiet plain ends hit res
    · exact .ended rfl quiet plain ends hit res

theorem drop_sequence (payload rest : Text) (term : Option Terminator) :
    (opener.text ++ (payload ++ (endUnits term ++ rest))).drop
      (opener.text.length + payload.length + (endUnits term).length) = rest := by
  rw [← List.append_assoc, ← List.append_assoc, ← List.length_append, ← List.length_append, List.drop_left]

theorem rest_shorter (run payload rest : Text) (term : Option Terminator) :
    rest.length < (run ++ (opener.text ++ (payload ++ (endUnits term ++ rest)))).length := by
  simp only [List.length_append, Opener.text, List.length_cons]
  omega

theorem OscContextFilter.filterLoop_reads {fuel : Nat} {buf : Text} (enough : buf.length < fuel) (output : Text) :
    ∃ pieces held, Reading contextOpener buf pieces held ∧
      filterLoop fuel buf output = (output ++ kept pieces, held) := by
  induction fuel generalizing buf output with
  | zero => omega
  | succ fuel ih =>
    cases round contextOpener buf with
    | @spent run held parts quiet opens missed size =>
      subst parts
      refine ⟨run.map .char ++ [], held, quiet.reading (.held (.inl opens)), ?_⟩
      simp only [filterLoop, missed, size]
      cases held with
      | nil | cons u held => simp
    | @unended run payload stop parts quiet plain left hit incomplete =>
      subst parts
      refine ⟨run.map .char ++ [], _, quiet.reading (.held (.inr ⟨payload, stop, rfl, plain, left⟩)), ?_⟩
      simp [filterLoop, hit, incomplete]
    | @ended run payload term rest stop parts quiet plain ends hit res =>
      obtain rfl := ends.shape
      subst parts
      have shorter := @rest_shorter contextOpener run payload rest term
      obtain ⟨pieces, held, reading, same⟩ := ih (by omega : rest.length < fuel) (output ++ run)
      refine ⟨run.map .char ++ .sequence payload term :: pieces, held,
        quiet.reading (.sequence plain ends reading), ?_⟩
      rw [kept_append, kept_chars, kept_sequence, ← List.append_assoc output, ← same]
      have behind := @drop_sequence contextOpener payload rest term
      simp only [filterLoop, hit, List.drop_left, res, List.take_left]
      cases term with
      | none | some term => exact congrArg (filterLoop fuel · (output ++ run)) behind

def Osc7Parser.report (env : Osc7Platform) : Piece → List Osc7Match
  | .sequence payload (some _) => (safeParsePayload env payload).toList
  | _ => []

theorem Osc7Parser.feedLoop_reads (env : Osc7Platform) {fuel : Nat} {buf : Text} (enough : buf.length < fuel)
    (hit : List Osc7Match) :
    ∃ pieces held, Reading osc7Opener buf pieces held ∧
      feedLoop env fuel buf hit = (hit ++ pieces.flatMap (report env), held) := by
  have chars (run : Text) : (run.map Piece.char).flatMap (report env) = [] := by
    rw [List.flatMap_map]
    exact List.flatMap_eq_nil_iff.mpr fun _ _ => rfl
  induction fuel generalizing buf hit with
  | zero => omega
  | succ fuel ih =>
    cases round osc7Opener buf with
    | @spent run held parts quiet opens missed size =>
      subst parts
      refine ⟨run.map .char ++ [], held, quiet.reading (.held (.inl opens)), ?_⟩
      simp only [feedLoop, missed, size, List.append_nil, chars]
      cases held with
      | nil | cons u held => simp
    | @unended run payload stop parts quiet plain left opens incomplete =>
      subst parts
      refine ⟨run.map .char ++ [], _, quiet.reading (.held (.inr ⟨payload, stop, rfl, plain, left⟩)), ?_⟩
      simp [feedLoop, opens, incomplete, chars]
    | @ended run payload term rest stop parts quiet plain ends opens res =>
      obtain rfl := ends.shape
      subst parts
      have shorter := @rest_shorter osc7Opener run payload rest term
      have behind := @drop_sequence osc7Opener payload rest term
      obtain ⟨pieces, held, reading, same⟩ := ih (by omega : rest.length < fuel)
        (hit ++ report env (.sequence payload term))
      refine ⟨run.map .char ++ .sequence payload term :: pieces, held,
        quiet.reading (.sequence plain ends reading), ?_⟩
      rw [List.flatMap_append, chars, List.nil_append, List.flatMap_cons, ← List.append_assoc hit, ← same]
      simp only [feedLoop, opens, List.drop_left, res]
      cases term with
      | none =>
        have none_ : report env (.sequence payload none) = [] := rfl
        rw [none_, List.append_nil]
        exact congrArg (feedLoop env fuel · hit) behind
      | some term =>
        have inner : ((osc7Opener.text ++ (payload ++ (endUnits (some term) ++ rest))).take
            (osc7Opener.text.length + payload.length)).drop osc7Opener.text.length = payload := by
          rw [← List.append_assoc, ← List.length_append, List.take_left, List.drop_left]
        simp only [endResult, inner]
        exact congrArg (feedLoop env fuel · _) behind

/-- One call after another: what all tell, and the last carry. -/
def inChunks {β : Type*} (next : Text → Text → List β × Text) (carry : Text) : List Text → List β × Text
  | [] => ([], carry)
  | chunk :: chunks =>
    let (told, carry) := next carry chunk
    let (later, carry) := inChunks next carry chunks
    (told ++ later, carry)

/-- A scanner of buffers: what it tells of the pieces, and of a held text it gives up. -/
structure Scanner (opener : Opener) (β : Type*) where
  scan : Text → List β × Text
  report : Piece → List β
  abandoned : Text → List β
  abandoned_nil : abandoned [] = []
  reads : ∀ buf, ∃ pieces held, Reading opener buf pieces held ∧ scan buf = (pieces.flatMap report, held)

namespace Scanner

variable {β : Type*} (scanner : Scanner opener β)

/-- A chunk behind the carry: what is told, and the carry afterwards. -/
def next (carry chunk : Text) : List β × Text :=
  let (told, carry) := scanner.scan (carry ++ chunk)
  if carry.length > MAX_CARRY then (told ++ scanner.abandoned carry, []) else (told, carry)

def run (carry : Text) (chunks : List Text) : List β × Text := inChunks scanner.next carry chunks

def total (carry : Text) (chunks : List Text) : List β :=
  (scanner.run carry chunks).1 ++ scanner.abandoned (scanner.run carry chunks).2

variable {scanner}

theorem next_carry_le (carry chunk : Text) : (scanner.next carry chunk).2.length ≤ MAX_CARRY := by
  simp only [next]
  split_ifs with above
  · exact Nat.zero_le _
  · exact Nat.not_lt.mp above

theorem run_carry_le {carry : Text} (short : carry.length ≤ MAX_CARRY) (chunks : List Text) :
    (scanner.run carry chunks).2.length ≤ MAX_CARRY := by
  induction chunks generalizing carry with
  | nil => exact short
  | cons chunk chunks ih => exact ih (next_carry_le carry chunk)

end Scanner

/-- Between two chunks no more than the carry may have is held. -/
def HeldWithin (opener : Opener) (chunks : List Text) : Prop :=
  ∀ before after, chunks = before ++ after → after ≠ [] →
    ∀ pieces held, Reading opener before.flatten pieces held → held.length ≤ MAX_CARRY

theorem Scanner.total_reads {β : Type*} (scanner : Scanner opener β) {sofar carry : Text} {past : List Piece}
    (reading : Reading opener sofar past carry) (chunks : List Text)
    (within : ∀ pre after, chunks = pre ++ after → after ≠ [] →
      ∀ pieces held, Reading opener (sofar ++ pre.flatten) pieces held → held.length ≤ MAX_CARRY) :
    ∃ pieces held, Reading opener (sofar ++ chunks.flatten) (past ++ pieces) held ∧
      scanner.total carry chunks = pieces.flatMap scanner.report ++ scanner.abandoned held := by
  induction chunks generalizing sofar carry past with
  | nil => exact ⟨[], carry, by simpa using reading, rfl⟩
  | cons chunk chunks ih =>
    obtain ⟨pieces, held, here, told⟩ := scanner.reads (carry ++ chunk)
    have onward := reading.append here
    by_cases above : held.length > MAX_CARRY
    · have last : chunks = [] := by
        by_contra more
        have short := within [chunk] chunks rfl more _ held (by simpa using onward)
        omega
      subst last
      refine ⟨pieces, held, by simpa using onward, ?_⟩
      simp [total, run, inChunks, next, told, if_pos above, scanner.abandoned_nil]
    · obtain ⟨later, held', reading', same⟩ := ih onward fun pre after parts more pieces' held'' whole =>
        within (chunk :: pre) after (by rw [parts]; rfl) more pieces' held''
          (by rwa [List.flatten_cons, ← List.append_assoc])
      refine ⟨pieces ++ later, held', ?_, ?_⟩
      · rwa [List.flatten_cons, ← List.append_assoc, ← List.append_assoc]
      · rw [total, run] at same
        simp only [total, run, inChunks, next, told, if_neg above]
        rw [List.append_assoc, same, List.flatMap_append, List.append_assoc]

theorem heldWithin_single (chunk : Text) : HeldWithin opener [chunk] := by
  intro pre after parts more pieces held reading
  cases pre with
  | nil =>
    obtain ⟨-, rfl⟩ := reading.unique reading_nil
    exact Nat.zero_le _
  | cons first pre =>
    have none_ := (List.append_eq_nil_iff.mp (List.cons.inj parts).2.symm).2
    exact absurd none_ more

variable {chunks : List Text}

theorem Scanner.total_of_within {β : Type*} (scanner : Scanner opener β)
    (within : HeldWithin opener chunks) :
    ∃ pieces held, Reading opener chunks.flatten pieces held ∧
      scanner.total [] chunks = pieces.flatMap scanner.report ++ scanner.abandoned held := by
  exact scanner.total_reads reading_nil chunks within

theorem Scanner.total_chunks {β : Type*} (scanner : Scanner opener β)
    (within : HeldWithin opener chunks) : scanner.total [] chunks = scanner.total [] [chunks.flatten] := by
  obtain ⟨pieces, held, reading, told⟩ := scanner.total_of_within within
  obtain ⟨pieces', held', reading', told'⟩ := scanner.total_of_within (heldWithin_single chunks.flatten)
  rw [List.flatten_singleton] at reading'
  obtain ⟨rfl, rfl⟩ := reading.unique reading'
  rw [told, told']

variable {opener : Opener}

def OscContextFilter.scanner : Scanner contextOpener UInt16 where
  scan buf := filterLoop (buf.length + 1) buf []
  report := Piece.kept
  abandoned held := held
  abandoned_nil := rfl
  reads _ := filterLoop_reads (Nat.lt_succ_self _) []

def OscContextFilter.filterAll (chunks : List Text) : Text × Text := inChunks filter [] chunks

def OscContextFilter.written (chunks : List Text) : Text := (filterAll chunks).1 ++ (filterAll chunks).2

def Osc7Parser.scanner (env : Osc7Platform) : Scanner osc7Opener Osc7Match where
  scan buf := feedLoop env (buf.length + 1) buf []
  report := report env
  abandoned _ := []
  abandoned_nil := rfl
  reads _ := feedLoop_reads env (Nat.lt_succ_self _) []

def Osc7Parser.feedAll (env : Osc7Platform) (chunks : List Text) : List Osc7Match × Text :=
  inChunks (feed env) [] chunks

theorem Osc7Parser.feed_eq (env : Osc7Platform) (carry chunk : Text) :
    feed env carry chunk = (scanner env).next carry chunk := by
  simp [feed, Scanner.next, scanner]

theorem Osc7Parser.feedAll_eq (env : Osc7Platform) (chunks : List Text) :
    feedAll env chunks = (scanner env).run [] chunks := by
  rw [feedAll, show feed env = (scanner env).next from funext fun _ => funext fun _ => feed_eq ..]
  rfl

theorem Osc7Parser.reported_eq (env : Osc7Platform) (chunks : List Text) :
    (feedAll env chunks).1 = (scanner env).total [] chunks := by
  rw [feedAll_eq, Scanner.total]
  exact (List.append_nil _).symm

/-- The second text is the first without some of its sequences. -/
inductive Deletes (opener : Opener) : Text → Text → Prop
  | done : Deletes opener [] []
  | keep {text left} (u : UInt16) : Deletes opener text left → Deletes opener (u :: text) (u :: left)
  | delete {payload stop terminator rest left} : PayloadRun payload → Ends stop terminator rest →
      Deletes opener rest left → Deletes opener (opener.text ++ (payload ++ stop)) left

theorem Deletes.behind {text left : Text} (deletes : Deletes opener text left) (run : Text) :
    Deletes opener (run ++ text) (run ++ left) := by
  induction run with
  | nil => exact deletes
  | cons u run ih => exact .keep u ih

variable {pieces : List Piece} {held : Text}

theorem Reading.deletes {text more left : Text} (reading : Reading opener text pieces held)
    (onward : Deletes opener (held ++ more) left) : Deletes opener (text ++ more) (kept pieces ++ left) := by
  induction reading with
  | held => exact onward
  | char _ _ ih => exact .keep _ (ih onward)
  | sequence run ends _ ih =>
    rw [List.append_assoc, List.append_assoc]
    exact .delete run (ends.append more) (ih onward)

theorem OscContextFilter.run_deletes (carry : Text) (chunks : List Text) :
    Deletes contextOpener (carry ++ chunks.flatten) (scanner.total carry chunks) := by
  induction chunks generalizing carry with
  | nil =>
    have same := Deletes.behind (@Deletes.done contextOpener) carry
    simpa [Scanner.total, Scanner.run, inChunks, scanner] using same
  | cons chunk chunks ih =>
    obtain ⟨pieces, held, reading, told⟩ := scanner.reads (carry ++ chunk)
    rw [List.flatten_cons, ← List.append_assoc]
    by_cases above : held.length > MAX_CARRY
    · have onward := reading.deletes ((ih []).behind held)
      have same : scanner.total carry (chunk :: chunks) = kept pieces ++ (held ++ scanner.total [] chunks) := by
        simp only [Scanner.total, Scanner.run, inChunks, Scanner.next, told, if_pos above]
        simp only [List.append_assoc]
        rfl
      rw [same]
      exact onward
    · have onward := reading.deletes (ih held)
      have same : scanner.total carry (chunk :: chunks) = kept pieces ++ scanner.total held chunks := by
        simp only [Scanner.total, Scanner.run, inChunks, Scanner.next, told, if_neg above, List.append_assoc]
        rfl
      rw [same]
      exact onward

def ContainsSequence (opener : Opener) (text : Text) : Prop :=
  ∃ before payload terminator after, PayloadRun payload ∧
    text = before ++ (opener.text ++ (payload ++ (Terminator.units terminator ++ after)))

/-- A sequence stands in the midst of what is, without it, the opener of another one that is closed. -/
def Rejoins (opener : Opener) (text : Text) : Prop :=
  ∃ before opening closing held, Reading opener text (before ++ (opening ++ closing)) held ∧
    kept opening = opener.text ∧ (∃ payload terminator, Piece.sequence payload terminator ∈ opening) ∧
    ∃ payload terminator after, PayloadRun payload ∧
      kept closing = payload ++ (Terminator.units terminator ++ after)

theorem Undecided.no_bel (undecided : Undecided opener held) : bel ∉ held := by
  have opening : bel ∉ opener.text := by
    intro member
    rcases List.mem_cons.mp member with escaped | member
    · exact absurd escaped (by decide)
    rcases List.mem_cons.mp member with bracket | member
    · exact absurd bracket (by decide)
    · exact (opener.plain _ member).1 rfl
  rcases undecided with short | ⟨payload, stop, rfl, run, left⟩
  · exact fun member => opening (short.subset member)
  · intro member
    rcases List.mem_append.mp member with inOpener | member
    · exact opening inOpener
    rcases List.mem_append.mp member with inPayload | inStop
    · exact (run _ inPayload).1 rfl
    · rcases left with rfl | rfl
      · cases inStop
      · exact absurd (List.mem_singleton.mp inStop) (by decide)

theorem Undecided.head {more : Text} {u : UInt16} (undecided : Undecided opener held) (parts : held = u :: more) :
    u = esc := by
  subst parts
  rcases undecided with short | ⟨payload, stop, same, -, -⟩
  · exact (List.cons_prefix_cons.mp short).1
  · exact List.head_eq_of_cons_eq same

theorem Undecided.no_st (undecided : Undecided opener held) (pre after : Text) :
    held ≠ pre ++ (esc :: backslash :: after) := by
  rintro rfl
  have plain : esc ∉ closeBracket :: opener.code := by
    intro member
    rcases List.mem_cons.mp member with bracket | member
    · exact absurd bracket (by decide)
    · exact (opener.plain _ member).2 rfl
  rcases undecided with short | ⟨payload, stop, same, run, left⟩
  · cases pre with
    | nil =>
      have second := (List.cons_prefix_cons.mp (List.cons_prefix_cons.mp short).2).1
      exact absurd second (by decide)
    | cons u pre =>
      have behind := (List.cons_prefix_cons.mp short).2
      exact plain (behind.subset (List.mem_append_right pre List.mem_cons_self))
  · cases pre with
    | nil =>
      have second := List.head_eq_of_cons_eq (List.tail_eq_of_cons_eq same)
      exact absurd second (by decide)
    | cons u pre =>
      have behind : pre ++ (esc :: backslash :: after) = closeBracket :: opener.code ++ payload ++ stop := by
        rw [List.append_assoc]
        exact List.tail_eq_of_cons_eq same
      have free : esc ∉ closeBracket :: opener.code ++ payload := by
        intro member
        rcases List.mem_append.mp member with inOpener | inPayload
        · exact plain inOpener
        · exact (run _ inPayload).2 rfl
      rcases left with rfl | rfl
      · rw [List.append_nil] at behind
        exact free (behind ▸ List.mem_append_right pre List.mem_cons_self)
      · -- the only escape is the last character
        have shorter := congrArg List.dropLast behind
        rw [List.dropLast_concat, List.dropLast_append_of_ne_nil (List.cons_ne_nil _ _),
          List.dropLast_cons_cons] at shorter
        exact free (shorter ▸ List.mem_append_right pre List.mem_cons_self)

theorem Undecided.terminator_before {text front after : Text} (undecided : Undecided opener held)
    (term : Terminator) (parts : text ++ held = front ++ (term.units ++ after)) :
    ∃ after', text = front ++ (term.units ++ after') := by
  have outside (c : Text) (shape : held = c ++ (term.units ++ after)) : False := by
    cases term with
    | bel => exact undecided.no_bel (shape ▸ List.mem_append_right c List.mem_cons_self)
    | st => exact undecided.no_st c after shape
  rcases List.append_eq_append_iff.mp parts with ⟨c, -, shape⟩ | ⟨c, rfl, onward⟩
  · exact (outside c shape).elim
  rcases List.append_eq_append_iff.mp onward with ⟨more, rfl, -⟩ | ⟨more, within, shape⟩
  · exact ⟨more, rfl⟩
  cases more with
  | nil => exact ⟨[], by rw [List.append_nil] at within ⊢; rw [within]⟩
  | cons u more =>
    -- the held text would start with what is left of the terminator
    have first := undecided.head shape
    exfalso
    cases c with
    | nil => exact outside [] onward.symm
    | cons v c =>
      cases term with
      | bel =>
        have size := congrArg List.length within
        simp [Terminator.units] at size
      | st =>
        have size := congrArg List.length within
        simp only [Terminator.units, List.length_cons, List.length_nil, List.length_append] at size
        obtain rfl := List.eq_nil_of_length_eq_zero (by omega : c.length = 0)
        have second := List.head_eq_of_cons_eq (List.tail_eq_of_cons_eq within)
        exact absurd (second.trans first) (by decide)

variable {text : Text}

theorem Undecided.contains (undecided : Undecided opener held)
    (contains : ContainsSequence opener (text ++ held)) : ContainsSequence opener text := by
  obtain ⟨pre, payload, term, after, run, parts⟩ := contains
  rw [← List.append_assoc opener.text, ← List.append_assoc pre] at parts
  obtain ⟨after', rfl⟩ := undecided.terminator_before term parts
  exact ⟨pre, payload, term, after', run, by simp⟩

theorem kept_eq_append {first second : Text} (parts : kept pieces = first ++ second) :
    ∃ left right, pieces = left ++ right ∧ kept left = first ∧ kept right = second := by
  induction pieces generalizing first with
  | nil =>
    obtain ⟨rfl, rfl⟩ := List.append_eq_nil_iff.mp parts.symm
    exact ⟨[], [], rfl, rfl, rfl⟩
  | cons piece pieces ih =>
    cases piece with
    | char u =>
      cases first with
      | nil => exact ⟨[], _, rfl, rfl, parts⟩
      | cons v first =>
        obtain ⟨rfl, onward⟩ := List.cons.inj parts
        obtain ⟨left, right, rfl, rfl, rfl⟩ := ih onward
        exact ⟨.char u :: left, right, rfl, rfl, rfl⟩
    | sequence payload term =>
      obtain ⟨left, right, rfl, rfl, rfl⟩ := ih parts
      exact ⟨.sequence payload term :: left, right, rfl, rfl, rfl⟩

theorem chars_of_no_sequence (none_ : ∀ payload term, .sequence payload term ∉ pieces) :
    pieces = (kept pieces).map .char := by
  induction pieces with
  | nil => rfl
  | cons piece pieces ih =>
    cases piece with
    | char u =>
      rw [kept_char, List.map_cons, ← ih fun payload term mem => none_ payload term (.tail _ mem)]
    | sequence payload term => exact absurd List.mem_cons_self (none_ payload term)

theorem Reading.behind {first second : List Piece}
    (reading : Reading opener text (first ++ second) held) : ∃ rest, Reading opener rest second held := by
  induction first generalizing text with
  | nil => exact ⟨text, reading⟩
  | cons piece first ih =>
    cases reading with
    | char _ reading | sequence _ _ reading => exact ih reading

theorem Reading.chars {text run : Text} (reading : Reading opener text (run.map .char ++ pieces) held) :
    run <+: text := by
  induction run generalizing text with
  | nil => exact List.nil_prefix
  | cons u run ih =>
    cases reading with
    | char _ reading => exact List.cons_prefix_cons.mpr ⟨rfl, ih reading⟩

theorem Reading.no_opener {pre after : List Piece} :
    ¬Reading opener text (pre ++ (opener.text.map .char ++ after)) held := by
  intro reading
  obtain ⟨rest, reading⟩ := reading.behind
  have starts := reading.chars
  cases reading with
  | char ne => exact ne.1 starts

theorem Reading.contains_iff (reading : Reading opener text pieces held) :
    ContainsSequence opener (kept pieces ++ held) ↔ Rejoins opener text := by
  constructor
  · intro contains
    obtain ⟨pre, payload, term, after, run, parts⟩ := reading.undecided.contains contains
    obtain ⟨past, onward, rfl, -, same⟩ := kept_eq_append parts
    obtain ⟨opening, closing, rfl, opens, closes⟩ := kept_eq_append same
    refine ⟨past, opening, closing, held, reading, opens, ?_, payload, term, after, run, closes⟩
    by_contra none_
    rw [chars_of_no_sequence (fun payload term mem => none_ ⟨payload, term, mem⟩), opens] at reading
    exact reading.no_opener
  · rintro ⟨pre, opening, closing, held', reading', opens, -, payload, term, after, run, closes⟩
    obtain ⟨rfl, rfl⟩ := reading.unique reading'
    refine ⟨kept pre, payload, term, after ++ held, run, ?_⟩
    simp [opens, closes]

open OscContextFilter (filterAll written)
open Osc7Parser (feedAll)

/-- What both scanners owe a stream in chunks; the carry is what is held of the last one. -/
structure ScannersAgree (env : Osc7Platform) (chunks : List Text) : Prop where
  same_output : HeldWithin contextOpener chunks → written chunks = written [chunks.flatten]
  exact_ : HeldWithin contextOpener chunks → ∃ pieces held, Reading contextOpener chunks.flatten pieces held ∧
    written chunks = kept pieces ++ held
  clean : HeldWithin contextOpener chunks → ¬ContainsSequence contextOpener (written chunks)
  same_matches : HeldWithin osc7Opener chunks → (feedAll env chunks).1 = (feedAll env [chunks.flatten]).1
  carries : ∀ before after, chunks = before ++ after →
    (filterAll before).2.length ≤ MAX_CARRY ∧ (feedAll env before).2.length ≤ MAX_CARRY
  nothing_else_lost : Deletes contextOpener chunks.flatten (written chunks)

theorem written_reads (within : HeldWithin contextOpener chunks) :
    ∃ pieces held, Reading contextOpener chunks.flatten pieces held ∧ written chunks = kept pieces ++ held :=
  OscContextFilter.scanner.total_of_within within

theorem contains_iff_rejoins (within : HeldWithin contextOpener chunks) :
    ContainsSequence contextOpener (written chunks) ↔ Rejoins contextOpener chunks.flatten := by
  obtain ⟨pieces, held, reading, told⟩ := written_reads within
  rw [told]
  exact reading.contains_iff

/-- The scanners agree exactly where no removal joins what is around it to a new opener. -/
theorem scanners_agree_iff (env : Osc7Platform) (chunks : List Text) :
    ScannersAgree env chunks ↔ (HeldWithin contextOpener chunks → ¬Rejoins contextOpener chunks.flatten) := by
  constructor
  · intro agree within rejoined
    exact agree.clean within ((contains_iff_rejoins within).mpr rejoined)
  · intro apart
    exact {
      same_output := OscContextFilter.scanner.total_chunks
      exact_ := written_reads
      clean := fun within contains => apart within ((contains_iff_rejoins within).mp contains)
      same_matches := fun within => by
        rw [Osc7Parser.reported_eq, Osc7Parser.reported_eq, (Osc7Parser.scanner env).total_chunks within]
      carries := fun before _ _ => by
        refine ⟨OscContextFilter.scanner.run_carry_le (Nat.zero_le _) before, ?_⟩
        rw [Osc7Parser.feedAll_eq]
        exact (Osc7Parser.scanner env).run_carry_le (Nat.zero_le _) before
      nothing_else_lost := OscContextFilter.run_deletes [] chunks }

/-- `ESC ] 30`, a sequence, and the rest of an opener with its payload. -/
def tornOpener : Text :=
  [esc, closeBracket, 0x33, 0x30] ++ (contextOpener.text ++ [0x78, bel]) ++ [0x30, 0x38, semicolon, 0x79, bel]

def deafPlatform : Osc7Platform where
  parseUrl _ := none
  decodeURIComponent := some
  normalize path := path

/-- The filter takes out the one sequence, and the halves around it are another. -/
theorem torn_opener_left : ¬ScannersAgree deafPlatform [tornOpener] := by
  intro agree
  refine agree.clean (heldWithin_single _) ⟨[], [0x79], .bel, [], by simp [PayloadRun, bel, esc], ?_⟩
  decide

end NexTerminal.Terminal
