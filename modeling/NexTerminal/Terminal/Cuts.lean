import NexTerminal.AutoTrigger.MacroAutoTrigger

namespace NexTerminal.Terminal

open AutoTrigger (withoutAnsi)

def Token.units : Token → Text
  | .char u => [u]
  | .seq units => units

theorem lex_induction {P : Text → Prop} (nil : P [])
    (char : ∀ u rest, ansiAt (u :: rest) = none → P rest → P (u :: rest))
    (seq : ∀ units rest, ansiAt (units ++ rest) = some units.length → P rest → P (units ++ rest)) :
    ∀ text, P text := by
  intro text
  induction size : text.length using Nat.strongRecOn generalizing text with
  | ind size ih =>
    cases text with
    | nil => exact nil
    | cons u rest =>
      cases hit : ansiAt (u :: rest) with
      | none => exact char u rest hit (ih rest.length (by simp at size; omega) rest rfl)
      | some length =>
        have positive := ansiAt_pos hit
        have within := ansiAt_le hit
        have parts := List.take_append_drop length (u :: rest)
        have taken : ((u :: rest).take length).length = length := by
          rw [List.length_take]
          omega
        rw [← parts]
        refine seq _ _ (by rw [parts, taken]; exact hit) (ih _ ?_ _ rfl)
        rw [List.length_drop]
        omega

variable {rest : Text}

theorem withoutAnsi_char {u : UInt16} (plain : ansiAt (u :: rest) = none) :
    withoutAnsi (u :: rest) = u :: withoutAnsi rest := by
  rw [withoutAnsi, lex_char plain]
  rfl

theorem withoutAnsi_seq {units : Text} (hit : ansiAt (units ++ rest) = some units.length) :
    withoutAnsi (units ++ rest) = withoutAnsi rest := by
  rw [withoutAnsi, lex_seq hit]
  rfl

theorem PlainRun.withoutAnsi {run : Text} (plain : PlainRun run rest) :
    withoutAnsi (run ++ rest) = run ++ withoutAnsi rest := by
  induction run with
  | nil => rfl
  | cons u run ih =>
    rw [List.cons_append, withoutAnsi_char plain.1, ih plain.2]
    rfl

theorem units_lex (text : Text) : (lex text).flatMap Token.units = text := by
  induction text using lex_induction with
  | nil => rfl
  | char u rest plain ih => rw [lex_char plain, List.flatMap_cons, ih]; rfl
  | seq units rest hit ih => rw [lex_seq hit, List.flatMap_cons, ih]; rfl

theorem csiEnd_none_left {text : Text} (none_ : csiEnd (text ++ rest) = none) : csiEnd text = none := by
  cases ends : csiEnd text with
  | none => rfl
  | some len =>
    rw [csiEnd_append ends] at none_
    cases none_

theorem head_left {P : UInt16 → Bool} {text : Text} (none_ : ((text ++ rest).head?.any P) = false) :
    text.head?.any P = false := by
  cases text with
  | nil => rfl
  | cons => exact none_

theorem ansiAt_none_left {text rest : Text} (none_ : ansiAt (text ++ rest) = none) : ansiAt text = none := by
  match text, none_ with
  | [], _ => rfl
  | [_], _ => rfl
  | e :: u :: text, none_ =>
    simp only [List.cons_append, ansiAt] at none_ ⊢
    by_cases escaped : e ≠ esc
    · rw [if_pos escaped]
    rw [if_neg escaped] at none_ ⊢
    by_cases bracket : u = openBracket
    · rw [if_pos bracket, Option.map_eq_none_iff] at none_ ⊢
      exact csiEnd_none_left none_
    rw [if_neg bracket] at none_ ⊢
    by_cases osc : u = closeBracket
    · rw [if_pos osc] at none_
      cases none_
    rw [if_neg osc] at none_ ⊢
    by_cases charset : isCharsetUnit u = true
    · rw [if_pos charset] at none_ ⊢
      have free : (text ++ rest).head?.any (fun v => isLetter v || isDigit v) = false := by simpa using none_
      rw [head_left free, if_neg Bool.false_ne_true]
    · rw [if_neg charset] at none_ ⊢
      exact none_

theorem oscEnd_left {title text : Text} (ends : oscEnd (title ++ (text ++ rest)) = title.length) :
    oscEnd (title ++ text) = title.length := by
  induction title with
  | nil =>
    cases text with
    | nil => rfl
    | cons u text =>
      simp only [List.nil_append, List.cons_append, oscEnd, List.length_nil] at ends ⊢
      split_ifs at ends with ringing escaped closed
      have open_ : ¬text.head? = some backslash := by
        intro here
        cases text with
        | nil => cases here
        | cons => exact closed here
      rw [if_neg ringing, if_pos escaped, if_neg open_]
  | cons u title ih =>
    simp only [List.cons_append, oscEnd, List.length_cons] at ends ⊢
    by_cases ringing : u = bel
    · rw [if_pos ringing] at ends ⊢
      exact ends
    rw [if_neg ringing] at ends ⊢
    by_cases escaped : u = esc
    · rw [if_pos escaped] at ends ⊢
      cases title with
      | nil =>
        split_ifs at ends
        simp at ends
      | cons => exact ends
    · rw [if_neg escaped] at ends ⊢
      rw [ih (by omega)]

theorem ansiAt_some_left {units text : Text} (hit : ansiAt (units ++ (text ++ rest)) = some units.length) :
    ansiAt (units ++ text) = some units.length := by
  match units, hit with
  | [], hit => exact absurd (ansiAt_pos hit) (by simp)
  | [u], hit =>
    exfalso
    revert hit
    cases text ++ rest with
    | nil => simp [ansiAt]
    | cons v after =>
      simp only [List.singleton_append, ansiAt]
      split_ifs <;> simp
  | e :: u :: units, hit =>
    simp only [List.cons_append, ansiAt, List.length_cons] at hit ⊢
    by_cases escaped : e ≠ esc
    · rw [if_pos escaped] at hit
      cases hit
    rw [if_neg escaped] at hit ⊢
    by_cases bracket : u = openBracket
    · rw [if_pos bracket] at hit ⊢
      obtain ⟨count, ends, same⟩ := Option.map_eq_some_iff.mp hit
      obtain rfl : count = units.length := by omega
      rw [csiEnd_append (csiEnd_whole ends)]
      rfl
    rw [if_neg bracket] at hit ⊢
    by_cases osc : u = closeBracket
    · rw [if_pos osc] at hit ⊢
      have ends : oscEnd (units ++ (text ++ rest)) = units.length := by
        have same := Option.some.inj hit
        omega
      rw [oscEnd_left ends]
    rw [if_neg osc] at hit ⊢
    by_cases charset : isCharsetUnit u = true
    · rw [if_pos charset] at hit ⊢
      cases units with
      | nil => simp at hit
      | cons => exact hit
    · rw [if_neg charset] at hit ⊢
      exact hit

theorem plainRun_csi {code rest : Text} {len : Nat} (ends : csiEnd code = some len) :
    PlainRun (code.take len) rest := by
  refine plainRun_of_no_esc ?_
  induction code generalizing len with
  | nil => cases ends
  | cons u code ih =>
    simp only [csiEnd] at ends
    split_ifs at ends with final param
    · obtain rfl := Option.some.inj ends
      intro v mem
      obtain rfl : v = u := by simpa using mem
      rintro rfl
      exact absurd final (by decide)
    · obtain ⟨inner, hit, rfl⟩ := Option.map_eq_some_iff.mp ends
      intro v mem
      rw [List.take_succ_cons, List.mem_cons] at mem
      rcases mem with rfl | later
      · rintro rfl
        exact absurd param (by decide)
      · exact ih hit v later

theorem plainRun_osc (title rest : Text) (after : rest = title.drop (oscEnd title)) :
    PlainRun (title.take (oscEnd title)) rest := by
  induction title with
  | nil => trivial
  | cons u title ih =>
    simp only [oscEnd] at after ⊢
    split_ifs at after ⊢ with ringing escaped closed
    · subst ringing
      exact ⟨ansiAt_ne_esc (by decide), trivial⟩
    · cases title with
      | nil => cases closed
      | cons v title =>
        obtain rfl := Option.some.inj closed
        exact ⟨by simp [ansiAt, backslash, openBracket, closeBracket, isCharsetUnit, isLetter],
          ansiAt_ne_esc (by decide), trivial⟩
    · trivial
    · exact ⟨ansiAt_ne_esc escaped, ih (by simpa using after)⟩

theorem plainRun_tail {u : UInt16} {units : Text} (hit : ansiAt (u :: (units ++ rest)) = some (units.length + 1)) :
    PlainRun units rest := by
  match units, hit with
  | [], _ => trivial
  | v :: units, hit =>
    simp only [List.cons_append, ansiAt, List.length_cons] at hit
    split_ifs at hit with notEsc bracket osc charset alnum letter
    · obtain ⟨count, ends, same⟩ := Option.map_eq_some_iff.mp hit
      obtain rfl : count = units.length := by omega
      have run := @plainRun_csi _ rest _ ends
      rw [List.take_left] at run
      exact ⟨ansiAt_ne_esc (by rw [bracket]; decide), run⟩
    · have ends : oscEnd (units ++ rest) = units.length := by
        have same := Option.some.inj hit
        omega
      have run := plainRun_osc (units ++ rest) rest (by rw [ends, List.drop_left])
      rw [ends, List.take_left] at run
      exact ⟨ansiAt_ne_esc (by rw [osc]; decide), run⟩
    · have one : units.length = 1 := by
        have same := Option.some.inj hit
        omega
      obtain ⟨w, rfl⟩ := List.length_eq_one_iff.mp one
      refine plainRun_of_no_esc ?_
      intro x mem
      rcases List.mem_pair.mp mem with rfl | rfl
      · rintro rfl
        exact absurd charset (by decide)
      · rintro rfl
        exact absurd alnum (show ¬(isLetter esc || isDigit esc) = true by decide)
    · have none_ : units = [] := List.length_eq_zero_iff.mp (by
        have same := Option.some.inj hit
        omega)
      subst none_
      refine ⟨ansiAt_ne_esc ?_, trivial⟩
      rintro rfl
      exact absurd letter (by decide)

/-- A cut after so many characters falls between two tokens. -/
def Boundary (tokens : List Token) (count : Nat) : Prop :=
  ∃ kept rest, tokens = kept ++ rest ∧ (kept.flatMap Token.units).length = count

theorem boundary_zero (tokens : List Token) : Boundary tokens 0 := ⟨[], tokens, rfl, rfl⟩

theorem boundary_cons {token : Token} {tokens : List Token} {count : Nat} :
    Boundary (token :: tokens) count ↔
      count = 0 ∨ ∃ more, Boundary tokens more ∧ count = token.units.length + more := by
  constructor
  · rintro ⟨kept, rest, parts, size⟩
    cases kept with
    | nil => exact .inl size.symm
    | cons first kept =>
      obtain ⟨rfl, rfl⟩ := List.cons.inj parts
      refine .inr ⟨_, ⟨kept, rest, rfl, rfl⟩, ?_⟩
      rw [← size, List.flatMap_cons, List.length_append]
  · rintro (rfl | ⟨more, ⟨kept, rest, rfl, size⟩, rfl⟩)
    · exact boundary_zero _
    · refine ⟨token :: kept, rest, rfl, ?_⟩
      rw [List.flatMap_cons, List.length_append, size]

theorem lex_cut (pre after : Text) :
    (Boundary (lex (pre ++ after)) pre.length ∧ lex (pre ++ after) = lex pre ++ lex after) ∨
      ¬Boundary (lex (pre ++ after)) pre.length ∧
        (withoutAnsi (pre ++ after)).length < (withoutAnsi pre).length + (withoutAnsi after).length := by
  generalize whole : pre ++ after = text
  induction text using lex_induction generalizing pre with
  | nil =>
    obtain ⟨rfl, rfl⟩ := List.append_eq_nil_iff.mp whole
    exact .inl ⟨boundary_zero _, rfl⟩
  | char u rest plain ih =>
    cases pre with
    | nil =>
      obtain rfl : after = u :: rest := whole
      exact .inl ⟨boundary_zero _, rfl⟩
    | cons v pre =>
      obtain ⟨rfl, rfl⟩ := List.cons.inj whole
      have alone : ansiAt (v :: pre) = none := @ansiAt_none_left (v :: pre) after plain
      rw [lex_char plain, lex_char alone, withoutAnsi_char plain, withoutAnsi_char alone, boundary_cons]
      have step : (v :: pre).length = (Token.char v).units.length + pre.length := Nat.add_comm _ _
      rcases ih pre rfl with ⟨boundary, same⟩ | ⟨inside, more⟩
      · exact .inl ⟨.inr ⟨_, boundary, step⟩, by rw [same]; rfl⟩
      · refine .inr ⟨?_, by simp only [List.length_cons]; omega⟩
        rintro (zero | ⟨count, boundary, size⟩)
        · cases zero
        · obtain rfl : pre.length = count := by omega
          exact inside boundary
  | seq units rest hit ih =>
    rw [lex_seq hit, withoutAnsi_seq hit, boundary_cons]
    by_cases behind : units.length ≤ pre.length
    · obtain ⟨more, rfl⟩ : ∃ more, pre = units ++ more := by
        refine ⟨pre.drop units.length, ?_⟩
        have taken := congrArg (List.take units.length) whole
        rw [List.take_append_of_le_length behind, List.take_left] at taken
        rw [← taken, List.length_take, Nat.min_eq_left behind, List.take_append_drop]
      rw [List.append_assoc] at whole
      obtain rfl := List.append_cancel_left whole
      have alone := ansiAt_some_left hit
      rw [lex_seq alone, withoutAnsi_seq alone]
      have step : (units ++ more).length = (Token.seq units).units.length + more.length := List.length_append
      have positive := ansiAt_pos hit
      rcases ih more rfl with ⟨boundary, same⟩ | ⟨inside, left⟩
      · exact .inl ⟨.inr ⟨_, boundary, step⟩, by rw [same]; rfl⟩
      · refine .inr ⟨?_, left⟩
        rintro (zero | ⟨count, boundary, size⟩)
        · omega
        · obtain rfl : more.length = count := by omega
          exact inside boundary
    · cases pre with
      | nil =>
        obtain rfl : after = units ++ rest := whole
        exact .inl ⟨.inl rfl, (lex_seq hit).symm⟩
      | cons u pre =>
        right
        obtain ⟨more, rfl, rfl⟩ : ∃ more, units = u :: (pre ++ more) ∧ after = more ++ rest := by
          rcases List.append_eq_append_iff.mp whole with ⟨more, shape, shape'⟩ | ⟨more, shape, -⟩
          · exact ⟨more, shape, shape'⟩
          · rw [shape, List.length_append] at behind
            omega
        constructor
        · rintro (zero | ⟨count, -, step⟩)
          · cases zero
          · simp only [Token.units] at step behind
            omega
        · have run : PlainRun (pre ++ more) rest := plainRun_tail (by simpa using hit)
          rw [(plainRun_append.mp run).2.withoutAnsi, List.length_append]
          simp only [List.length_cons, List.length_append] at behind
          omega

theorem withoutAnsi_append {pre after : Text} (ne : lex (pre ++ after) = lex pre ++ lex after) :
    withoutAnsi (pre ++ after) = withoutAnsi pre ++ withoutAnsi after := by
  rw [withoutAnsi, ne, List.filterMap_append]
  rfl

/-- No cut between the chunks falls inside a sequence of the whole stream. -/
def NoCutInside (chunks : List Text) : Prop :=
  ∀ before after, chunks = before ++ after → Boundary (lex chunks.flatten) before.flatten.length

theorem noCutInside_cons {chunk : Text} {chunks : List Text} :
    NoCutInside (chunk :: chunks) ↔ Boundary (lex (chunk ++ chunks.flatten)) chunk.length ∧ NoCutInside chunks := by
  constructor
  · intro whole
    have first : Boundary (lex (chunk ++ chunks.flatten)) chunk.length := by
      simpa using whole [chunk] chunks rfl
    refine ⟨first, ?_⟩
    rintro pre after rfl
    have ne : lex (chunk ++ (pre ++ after).flatten) = lex chunk ++ lex (pre ++ after).flatten := by
      rcases lex_cut chunk (pre ++ after).flatten with ⟨-, same⟩ | ⟨inside, -⟩
      · exact same
      · exact absurd first inside
    obtain ⟨kept, rest, parts, size⟩ := whole (chunk :: pre) after rfl
    rw [List.flatten_cons, ne] at parts
    rw [List.flatten_cons, List.length_append] at size
    rcases List.append_eq_append_iff.mp parts.symm with ⟨more, shape, -⟩ | ⟨more, shape, shape'⟩
    · have units := congrArg (fun tokens => (tokens.flatMap Token.units).length) shape
      simp only [units_lex, List.flatMap_append, List.length_append] at units
      have none_ : pre.flatten.length = 0 := by omega
      rw [none_]
      exact boundary_zero _
    · refine ⟨more, rest, shape', ?_⟩
      rw [shape, List.flatMap_append, units_lex, List.length_append] at size
      omega
  · rintro ⟨first, later⟩ pre after parts
    have ne : lex (chunk ++ chunks.flatten) = lex chunk ++ lex chunks.flatten := by
      rcases lex_cut chunk chunks.flatten with ⟨-, same⟩ | ⟨inside, -⟩
      · exact same
      · exact absurd first inside
    cases pre with
    | nil => exact boundary_zero _
    | cons head pre =>
      obtain ⟨rfl, rfl⟩ := List.cons.inj parts
      obtain ⟨kept, rest, held, size⟩ := later pre after rfl
      refine ⟨lex chunk ++ kept, rest, ?_, ?_⟩
      · rw [List.flatten_cons, ne, held, List.append_assoc]
      · rw [List.flatMap_append, units_lex, List.length_append, size, List.flatten_cons, List.length_append]

/-- The chunks lose what the stream loses exactly where no cut falls inside a sequence; else
there is more left. -/
theorem withoutAnsi_chunks (chunks : List Text) :
    (NoCutInside chunks ∧ chunks.flatMap withoutAnsi = withoutAnsi chunks.flatten) ∨
      ¬NoCutInside chunks ∧ (withoutAnsi chunks.flatten).length < (chunks.flatMap withoutAnsi).length := by
  induction chunks with
  | nil =>
    refine .inl ⟨?_, rfl⟩
    intro pre after parts
    obtain ⟨rfl, rfl⟩ := List.append_eq_nil_iff.mp parts.symm
    exact boundary_zero _
  | cons chunk chunks ih =>
    rw [noCutInside_cons, List.flatten_cons, List.flatMap_cons, List.length_append]
    rcases lex_cut chunk chunks.flatten with ⟨boundary, ne⟩ | ⟨inside, more⟩
    · rw [withoutAnsi_append ne, List.length_append]
      rcases ih with ⟨whole, same⟩ | ⟨cut, more⟩
      · exact .inl ⟨⟨boundary, whole⟩, by rw [same]⟩
      · exact .inr ⟨fun both => cut both.2, by omega⟩
    · refine .inr ⟨fun both => inside both.1, ?_⟩
      have least : (withoutAnsi chunks.flatten).length ≤ (chunks.flatMap withoutAnsi).length := by
        rcases ih with ⟨-, same⟩ | ⟨-, more⟩
        · rw [same]
        · omega
      omega

end NexTerminal.Terminal
