import NexTerminal.Terminal.RuleCodes

namespace NexTerminal.Terminal

namespace Part

def source : Part → Text
  | .seq units => units
  | .plain units => units
  | .highlighted _ units => units

def marks : Part → List Bool
  | .seq _ => []
  | .plain units => units.map fun _ => false
  | .highlighted _ units => units.map fun _ => true

def tokens : Part → List Token
  | .seq units => [.seq units]
  | .plain units => units.map .char
  | .highlighted _ units => units.map .char

def openTokens (rule : CompiledRule) : List Token :=
  if rule.isWhole then [.seq rule.openCode] else rule.openCode.map .char

def outputTokens : Part → List Token
  | .seq units => [.seq units]
  | .plain units => units.map .char
  | .highlighted rule units => openTokens rule ++ units.map .char ++ [.seq rule.closeCode]

def InSegment : Part → Prop
  | .seq _ => False
  | .plain _ => True
  | .highlighted _ units => units ≠ []

end Part

def sourceText (parts : List Part) : Text := parts.flatMap Part.source

def outputText (parts : List Part) : Text := parts.flatMap Part.output

@[simp]
theorem sourceText_cons (part : Part) (parts : List Part) :
    sourceText (part :: parts) = part.source ++ sourceText parts := List.flatMap_cons

@[simp]
theorem sourceText_append (first second : List Part) :
    sourceText (first ++ second) = sourceText first ++ sourceText second := List.flatMap_append

@[simp]
theorem outputText_cons (part : Part) (parts : List Part) :
    outputText (part :: parts) = part.output ++ outputText parts := List.flatMap_cons

def Cut : List Part → Prop
  | [] => True
  | .seq units :: rest => ansiAt (units ++ sourceText rest) = some units.length ∧ Cut rest
  | .plain units :: rest => PlainRun units (sourceText rest) ∧ Cut rest
  | .highlighted _ units :: rest => (units ≠ [] ∧ PlainRun units (sourceText rest)) ∧ Cut rest

theorem woven_output (parts : List Part) : Woven (sourceText parts) (outputText parts) := by
  induction parts with
  | nil => exact .done
  | cons part rest ih =>
    cases part with
    | seq units | plain units => exact ih.append units
    | highlighted rule units =>
      obtain ⟨closing, close⟩ := rule.closeCode_eq
      obtain ⟨opening, opens⟩ := rule.openCode_eq
      have closed : Woven (sourceText rest) (rule.closeCode ++ outputText rest) := by
        rw [close]
        exact .insert closing ih
      rw [sourceText_cons, outputText_cons, Part.output, opens]
      simpa [Part.source] using Woven.insert opening (closed.append units)

theorem Cut.lex_source {parts : List Part} (cut : Cut parts) :
    lex (sourceText parts) = parts.flatMap Part.tokens := by
  induction parts with
  | nil => rfl
  | cons part rest ih =>
    rw [sourceText_cons, List.flatMap_cons]
    cases part with
    | seq units =>
      rw [Part.source, lex_seq cut.1, ih cut.2]
      rfl
    | plain units =>
      rw [Part.source, cut.1.lex, ih cut.2]
      rfl
    | highlighted rule units =>
      rw [Part.source, cut.1.2.lex, ih cut.2]
      rfl

theorem lex_openCode (rule : CompiledRule) (rest : Text) :
    lex (rule.openCode ++ rest) = Part.openTokens rule ++ lex rest := by
  cases whole : rule.isWhole with
  | true =>
    rw [lex_seq (CompiledRule.ansiAt_openCode whole rest)]
    simp [Part.openTokens, whole]
  | false =>
    rw [(CompiledRule.plainRun_openCode whole rest).lex]
    simp [Part.openTokens, whole]

theorem Cut.lex_output {parts : List Part} (cut : Cut parts) :
    lex (outputText parts) = parts.flatMap Part.outputTokens := by
  induction parts with
  | nil => rfl
  | cons part rest ih =>
    have woven := woven_output rest
    rw [outputText_cons, List.flatMap_cons]
    cases part with
    | seq units =>
      rw [Part.output, lex_seq (woven.ansiAt_some cut.1), ih cut.2]
      rfl
    | plain units =>
      rw [Part.output, (cut.1.woven woven).lex, ih cut.2]
      rfl
    | highlighted rule units =>
      obtain ⟨closing, close⟩ := rule.closeCode_eq
      have closed : Woven (sourceText rest) (rule.closeCode ++ outputText rest) := by
        rw [close]
        exact .insert closing woven
      rw [Part.output, List.append_assoc, List.append_assoc, lex_openCode,
        (cut.1.2.woven closed).lex, lex_seq (rule.ansiAt_closeCode _), ih cut.2]
      simp [Part.outputTokens]

theorem cut_segment {seg rest : List Part} (inside : ∀ part ∈ seg, part.InSegment)
    (plain : PlainRun (sourceText seg) (sourceText rest)) (cut : Cut rest) : Cut (seg ++ rest) := by
  induction seg with
  | nil => exact cut
  | cons part seg ih =>
    rw [sourceText_cons, plainRun_append] at plain
    have later := ih (fun p mem => inside p (List.mem_cons_of_mem part mem)) plain.2
    have here := inside part List.mem_cons_self
    rw [← sourceText_append] at plain
    cases part with
    | seq units => exact here.elim
    | plain units => exact ⟨plain.1, later⟩
    | highlighted rule units => exact ⟨⟨here, plain.1⟩, later⟩

/-- What a match has to be for the pieces to be built from it. -/
def Match.Fits (text : Text) (rules : List CompiledRule) (m : Match) : Prop :=
  m.start < m.stop ∧ m.stop ≤ text.length ∧ m.ruleIndex < rules.length

variable {text : Text}

theorem collectFrom_fits {regex : RegExp} {ruleIndex fuel lastIndex : Nat} {m : Match}
    (mem : m ∈ collectFrom regex text ruleIndex fuel lastIndex) :
    m.start < m.stop ∧ m.stop ≤ text.length ∧ m.ruleIndex = ruleIndex := by
  induction fuel generalizing lastIndex with
  | zero => simp [collectFrom] at mem
  | succ fuel ih =>
    rw [collectFrom] at mem
    cases hit : regex.exec text (if regex.global then lastIndex else 0) with
    | none => simp [hit] at mem
    | some span =>
      have bounds := regex.within _ _ _ _ hit
      simp only [hit] at mem
      rcases List.mem_append.mp mem with here | later
      · split_ifs at here with longer
        · rw [List.mem_singleton.mp here]
          exact ⟨longer, bounds.2.2, rfl⟩
        · simp at here
      · split_ifs at later
        · exact ih later
        · exact ih later
        · simp at later

variable {rules : List CompiledRule}

theorem collectMatches_fits {m : Match} (mem : m ∈ collectMatches text rules) : m.Fits text rules := by
  obtain ⟨hit, among, inside⟩ := List.mem_flatten.mp mem
  obtain ⟨idx, bound, rfl⟩ := List.mem_mapIdx.mp among
  obtain ⟨longer, within, rule⟩ := collectFrom_fits inside
  exact ⟨longer, within, rule ▸ bound⟩

/-- Each match starts at or behind the end of the one before it. -/
def Chained : Nat → List Match → Prop
  | _, [] => True
  | pos, m :: rest => pos ≤ m.start ∧ Chained m.stop rest

theorem discardOverlaps_chained (last : Match) (ms : List Match) : Chained last.stop (discardOverlaps last ms) := by
  induction ms generalizing last with
  | nil => trivial
  | cons m rest ih =>
    simp only [discardOverlaps]
    split_ifs with ne
    · exact ⟨ne, ih m⟩
    · exact ih last

theorem filtered_chained (ms : List Match) : Chained 0 (filtered ms) := by
  cases ms with
  | nil => trivial
  | cons first rest => exact ⟨Nat.zero_le _, discardOverlaps_chained first rest⟩

variable {ms : List Match}

theorem mem_discardOverlaps {last m : Match} (mem : m ∈ discardOverlaps last ms) : m ∈ ms := by
  induction ms generalizing last with
  | nil => exact mem
  | cons first rest ih =>
    simp only [discardOverlaps] at mem
    split_ifs at mem
    · rcases List.mem_cons.mp mem with rfl | later
      · exact List.mem_cons_self
      · exact List.mem_cons_of_mem first (ih later)
    · exact List.mem_cons_of_mem first (ih mem)

theorem mem_filtered {m : Match} (mem : m ∈ filtered ms) : m ∈ ms := by
  cases ms with
  | nil => exact mem
  | cons first rest =>
    rcases List.mem_cons.mp mem with rfl | later
    · exact List.mem_cons_self
    · exact List.mem_cons_of_mem first (mem_discardOverlaps later)

theorem slice_append_drop {text : Text} {start stop : Nat} (ordered : start ≤ stop) :
    slice text start stop ++ text.drop stop = text.drop start := by
  rw [slice, List.drop_take]
  obtain ⟨-, rfl⟩ := Nat.exists_eq_add_of_le ordered
  rw [Nat.add_sub_cancel_left, ← List.drop_drop, List.take_append_drop]

theorem slice_ne_nil {start stop : Nat} (longer : start < stop) (within : stop ≤ text.length) :
    slice text start stop ≠ [] := by
  have len : (slice text start stop).length = stop - start := by
    rw [slice, List.length_drop, List.length_take, Nat.min_eq_left within]
  intro empty
  rw [empty] at len
  simp at len
  omega

theorem buildParts_inside {pos : Nat} (fits : ∀ m ∈ ms, m.Fits text rules) :
    ∀ part ∈ buildParts text rules pos ms, part.InSegment := by
  induction ms generalizing pos with
  | nil =>
    intro part mem
    simp only [buildParts] at mem
    split_ifs at mem
    · rw [List.mem_singleton.mp mem]
      trivial
    · simp at mem
  | cons m rest ih =>
    obtain ⟨longer, within, bound⟩ := fits m List.mem_cons_self
    intro part mem
    simp only [buildParts, List.getElem?_eq_getElem bound] at mem
    rcases List.mem_append.mp mem with here | later
    · rcases List.mem_append.mp here with pre | matched
      · split_ifs at pre
        · rw [List.mem_singleton.mp pre]
          trivial
        · simp at pre
      · rw [List.mem_singleton.mp matched]
        exact slice_ne_nil longer within
    · exact ih (fun m' mem => fits m' (List.mem_cons_of_mem m mem)) part later

theorem buildParts_source {pos : Nat} (chained : Chained pos ms) (fits : ∀ m ∈ ms, m.Fits text rules) :
    sourceText (buildParts text rules pos ms) = text.drop pos := by
  induction ms generalizing pos with
  | nil =>
    simp only [buildParts]
    split_ifs with more
    · simp [sourceText, Part.source]
    · simp [sourceText, List.drop_eq_nil_of_le (by omega : text.length ≤ pos)]
  | cons m rest ih =>
    obtain ⟨longer, -, bound⟩ := fits m List.mem_cons_self
    have later := ih chained.2 fun m' mem => fits m' (List.mem_cons_of_mem m mem)
    have matched := @slice_append_drop text _ _ longer.le
    simp only [buildParts, List.getElem?_eq_getElem bound]
    rw [sourceText_append, sourceText_append, later]
    split_ifs with gap
    · have pre := @slice_append_drop text _ _ gap.le
      simpa [sourceText, Part.source, matched] using pre
    · obtain rfl : pos = m.start := by have := chained.1; omega
      simpa [sourceText, Part.source] using matched

theorem plainTextParts_inside (text : Text) (rules : List CompiledRule) :
    ∀ part ∈ plainTextParts text rules, part.InSegment := by
  unfold plainTextParts
  split
  · simp [Part.InSegment]
  · rename_i first rest hit
    apply buildParts_inside
    intro m mem
    apply collectMatches_fits
    rw [hit]
    exact (List.mergeSort_perm _ _).mem_iff.mp (mem_filtered mem)

theorem plainTextParts_source (text : Text) (rules : List CompiledRule) :
    sourceText (plainTextParts text rules) = text := by
  unfold plainTextParts
  split
  · simp [sourceText, Part.source]
  · rename_i first rest hit
    refine buildParts_source (filtered_chained _) fun m mem => ?_
    apply collectMatches_fits
    rw [hit]
    exact (List.mergeSort_perm _ _).mem_iff.mp (mem_filtered mem)

theorem segmentParts_inside (rules : List CompiledRule) (colorActive : Bool) (plain : Text) :
    ∀ part ∈ segmentParts rules colorActive plain, part.InSegment := by
  unfold segmentParts
  split_ifs
  · simp
  · simp [Part.InSegment]
  · exact plainTextParts_inside plain rules

theorem segmentParts_source (rules : List CompiledRule) (colorActive : Bool) (plain : Text) :
    sourceText (segmentParts rules colorActive plain) = plain := by
  unfold segmentParts
  split_ifs with empty
  · simp only [List.isEmpty_iff] at empty
    rw [empty]
    rfl
  · simp [sourceText, Part.source]
  · exact plainTextParts_source plain rules

theorem ansiParts_cut (rules : List CompiledRule) {fuel : Nat} {colorActive : Bool} {text : Text}
    (enough : text.length < fuel) :
    sourceText (ansiParts rules fuel colorActive text) = text ∧ Cut (ansiParts rules fuel colorActive text) := by
  induction fuel generalizing colorActive text with
  | zero => omega
  | succ fuel ih =>
    have source := segmentParts_source rules colorActive
    have inside := segmentParts_inside rules colorActive
    rw [ansiParts]
    cases hit : execAnsi text with
    | none =>
      have plain := execAnsi_none hit
      have alone := @cut_segment (segmentParts rules colorActive text) [] (inside text)
        (by rw [source]; exact plain) trivial
      exact ⟨source text, by simpa using alone⟩
    | some span =>
      obtain ⟨index, length⟩ := span
      obtain ⟨pre, here⟩ := execAnsi_some hit
      have positive := ansiAt_pos here
      have bound := ansiAt_le here
      rw [List.length_drop] at bound
      obtain ⟨later, cut⟩ := @ih (colorActiveAfter colorActive (slice text index (index + length)))
        (text.drop (index + length)) (by rw [List.length_drop]; omega)
      have cutAt := @slice_append_drop text _ _ (Nat.le_add_right index length)
      have count : (slice text index (index + length)).length = length := by
        rw [slice, List.length_drop, List.length_take, Nat.min_eq_left (by omega)]
        omega
      have whole : sourceText (.seq (slice text index (index + length)) ::
          ansiParts rules fuel (colorActiveAfter colorActive (slice text index (index + length)))
            (text.drop (index + length))) = text.drop index := by
        rw [sourceText_cons, later, Part.source, cutAt]
      refine ⟨?_, cut_segment (inside _) ?_ ⟨?_, cut⟩⟩
      · rw [sourceText_append, source, whole, List.take_append_drop]
      · rw [source, whole]
        exact pre
      · rw [later, cutAt, count]
        exact here

def Tracked : Bool → List Part → Prop
  | _, [] => True
  | colorActive, .seq units :: rest => Tracked (colorActiveAfter colorActive units) rest
  | colorActive, .plain _ :: rest => Tracked colorActive rest
  | colorActive, .highlighted _ _ :: rest => colorActive = false ∧ Tracked colorActive rest

theorem tracked_segment {colorActive : Bool} {seg rest : List Part} (inside : ∀ part ∈ seg, part.InSegment)
    (plain : colorActive = true → ∀ part ∈ seg, part.marks.all (! ·) = true)
    (tracked : Tracked colorActive rest) :
    Tracked colorActive (seg ++ rest) := by
  induction seg with
  | nil => exact tracked
  | cons part seg ih =>
    have later := ih (fun p mem => inside p (List.mem_cons_of_mem part mem))
      fun active p mem => plain active p (List.mem_cons_of_mem part mem)
    have here := inside part List.mem_cons_self
    cases part with
    | seq units => exact here.elim
    | plain units => exact later
    | highlighted rule units =>
      refine ⟨?_, later⟩
      cases active : colorActive with
      | false => rfl
      | true =>
        obtain ⟨u, more, rfl⟩ := List.exists_cons_of_ne_nil here
        simpa [Part.marks] using plain active _ List.mem_cons_self

theorem segmentParts_plain (rules : List CompiledRule) {colorActive : Bool} (active : colorActive = true)
    (plain : Text) : ∀ part ∈ segmentParts rules colorActive plain, part.marks.all (! ·) = true := by
  simp only [segmentParts]
  split_ifs
  · simp
  · simp [Part.marks]

theorem ansiParts_tracked (rules : List CompiledRule) (fuel : Nat) (colorActive : Bool) (text : Text) :
    Tracked colorActive (ansiParts rules fuel colorActive text) := by
  induction fuel generalizing colorActive text with
  | zero => trivial
  | succ fuel ih =>
    have seg : ∀ plain rest, Tracked colorActive rest →
        Tracked colorActive (segmentParts rules colorActive plain ++ rest) := fun plain rest =>
      tracked_segment (segmentParts_inside rules colorActive plain)
        fun active => segmentParts_plain rules active plain
    rw [ansiParts]
    cases execAnsi text with
    | none =>
      have alone := seg text [] trivial
      simpa using alone
    | some span => exact seg _ _ (ih _ _)

namespace TerminalHighlighter

/-- The pieces that the result of `apply` consists of. -/
def parts (highlighter : TerminalHighlighter) (text : Text) : List Part :=
  if !highlighter.enabled || highlighter.rules.isEmpty then ansiParts [] (text.length + 1) false text
  else if maxInputLength < text.length then ansiParts [] (text.length + 1) false text
  else if !text.contains esc then plainTextParts text highlighter.rules
  else ansiParts highlighter.rules (text.length + 1) false text

end TerminalHighlighter

theorem ansiParts_nil_output (fuel : Nat) (colorActive : Bool) (text : Text) :
    outputText (ansiParts [] fuel colorActive text) = sourceText (ansiParts [] fuel colorActive text) := by
  have seg : ∀ colorActive plain, outputText (segmentParts [] colorActive plain) =
      sourceText (segmentParts [] colorActive plain) := by
    intro colorActive plain
    simp only [segmentParts]
    split_ifs <;> rfl
  induction fuel generalizing colorActive text with
  | zero => rfl
  | succ fuel ih =>
    rw [ansiParts]
    cases execAnsi text with
    | none => exact seg colorActive text
    | some span =>
      have later := ih (colorActiveAfter colorActive (slice text span.1 (span.1 + span.2)))
        (text.drop (span.1 + span.2))
      have here := seg colorActive (text.take span.1)
      simp only [outputText, sourceText, List.flatMap_append, List.flatMap_cons] at later here ⊢
      rw [here, later]
      rfl

namespace TerminalHighlighter

theorem apply_eq (highlighter : TerminalHighlighter) (text : Text) :
    highlighter.apply text = outputText (highlighter.parts text) := by
  have whole := (@ansiParts_cut [] _ false text (Nat.lt_succ_self _)).1
  unfold apply parts
  split_ifs
  · rw [ansiParts_nil_output, whole]
  · rw [ansiParts_nil_output, whole]
  · rfl
  · rfl

/-- The parts are the text, cut where it may be cut. -/
theorem parts_cut (highlighter : TerminalHighlighter) (text : Text) :
    sourceText (highlighter.parts text) = text ∧ Cut (highlighter.parts text) := by
  unfold parts
  split_ifs with off long free
  · exact ansiParts_cut [] (Nat.lt_succ_self _)
  · exact ansiParts_cut [] (Nat.lt_succ_self _)
  · have source := plainTextParts_source text highlighter.rules
    have noEsc : ∀ u ∈ text, u ≠ esc := by
      rintro u mem rfl
      simp [mem] at free
    have cut := @cut_segment _ [] (plainTextParts_inside text highlighter.rules)
      (by rw [source]; exact plainRun_of_no_esc noEsc) trivial
    exact ⟨source, by simpa using cut⟩
  · exact ansiParts_cut highlighter.rules (Nat.lt_succ_self _)

theorem parts_tracked (highlighter : TerminalHighlighter) (text : Text) : Tracked false (highlighter.parts text) := by
  unfold parts
  split_ifs
  · exact ansiParts_tracked [] _ false text
  · exact ansiParts_tracked [] _ false text
  · have tracked := @tracked_segment false _ [] (plainTextParts_inside text highlighter.rules)
      (by simp) trivial
    simpa using tracked
  · exact ansiParts_tracked highlighter.rules _ false text

end TerminalHighlighter

end NexTerminal.Terminal
