import NexTerminal.Inventory.NormalPaths
import NexTerminal.Inventory.InventoryParser

namespace NexTerminal.Inventory

open Library

def doubleQuotes (field : Text) : Text := field.flatMap fun c => if c = '"' then ['"', '"'] else [c]

def quoteField (field : Text) : Text := '"' :: (doubleQuotes field ++ ['"'])

inductive CsvField (field : Text) : Text → Prop
  | quoted : CsvField field (quoteField field)
  | bare : '"' ∉ field → ',' ∉ field → CsvField field field

inductive CsvFields : List Text → Text → Prop
  | one {field written} : CsvField field written → CsvFields [field] written
  | more {field written fields rest} : CsvField field written → CsvFields fields rest →
      CsvFields (field :: fields) (written ++ (',' :: rest))

def recordFields (record : ImportedSession) : List Text :=
  [record.host, record.name, record.username, number record.port, record.folder]

def CsvLine (record : ImportedSession) (line : Text) : Prop := CsvFields (recordFields record) line

inductive IsBreak : Text → Prop
  | crlf : IsBreak ['\r', '\n']
  | lf : IsBreak ['\n']

/-- The lines of the records, each behind a break; the last may have one behind it. -/
inductive CsvRecords : List ImportedSession → Text → Prop
  | finished : CsvRecords [] []
  | final {ending} : IsBreak ending → CsvRecords [] ending
  | next {ending record line records rest} : IsBreak ending → CsvLine record line → CsvRecords records rest →
      CsvRecords (record :: records) (ending ++ (line ++ rest))

def headerLine : Text := "host,name,username,port,folder".toList

def CsvText (records : List ImportedSession) (text : Text) : Prop :=
  ∃ rest, text = headerLine ++ rest ∧ CsvRecords records rest

theorem splitCsv_char (fields : List Text) (current : Text) {c : Char} (other : c ≠ '"') (rest : Text) :
    splitCsvFrom ',' fields current true (c :: rest) = splitCsvFrom ',' fields (current ++ [c]) true rest := by
  cases rest <;> simp [splitCsvFrom, other]

theorem splitCsv_within (fields : List Text) (current field : Text) {rest : Text} (plain : rest.head? ≠ some '"') :
    splitCsvFrom ',' fields current true (doubleQuotes field ++ ('"' :: rest)) =
      splitCsvFrom ',' fields (current ++ field) false rest := by
  induction field generalizing current with
  | nil =>
    cases rest with
    | nil => simp [doubleQuotes, splitCsvFrom]
    | cons c rest =>
      have other : c ≠ '"' := fun same => plain (congrArg some same)
      simp [doubleQuotes, splitCsvFrom, other]
  | cons c field ih =>
    have onward := ih (current ++ [c])
    rw [List.append_assoc, List.singleton_append] at onward
    by_cases quote : c = '"'
    · subst quote
      rw [← onward]
      simp [doubleQuotes, splitCsvFrom]
    · rw [← onward, ← splitCsv_char fields current quote]
      simp [doubleQuotes, quote]

theorem splitCsv_bare (fields : List Text) (current : Text) {field : Text} (unquoted : '"' ∉ field)
    (whole : ',' ∉ field)
    (rest : Text) : splitCsvFrom ',' fields current false (field ++ rest) =
      splitCsvFrom ',' fields (current ++ field) false rest := by
  induction field generalizing current with
  | nil => rw [List.append_nil, List.nil_append]
  | cons c field ih =>
    rw [List.mem_cons, not_or] at unquoted whole
    have onward := ih (current ++ [c]) unquoted.2 whole.2
    rw [List.append_assoc, List.singleton_append] at onward
    rw [← onward, List.cons_append, splitCsvFrom, if_neg (fun quote => unquoted.1 quote.1.symm),
      if_neg (Ne.symm whole.1)]

variable {field written : Text}

theorem CsvField.split (csv : CsvField field written) (fields : List Text) {rest : Text}
    (plain : rest.head? ≠ some '"') :
    splitCsvFrom ',' fields [] false (written ++ rest) = splitCsvFrom ',' fields field false rest := by
  cases csv with
  | quoted =>
    rw [quoteField, List.cons_append, List.append_assoc, List.singleton_append, splitCsvFrom, if_pos ⟨rfl, rfl⟩,
      splitCsv_within fields [] field plain, List.nil_append]
  | bare unquoted whole => rw [splitCsv_bare fields [] unquoted whole, List.nil_append]

variable {fields : List Text}

theorem CsvFields.split {line : Text} (csv : CsvFields fields line) (pre : List Text) :
    splitCsvFrom ',' pre [] false line = pre ++ fields := by
  induction csv generalizing pre with
  | one field =>
    have read := field.split pre (show ([] : Text).head? ≠ some '"' by decide)
    rw [List.append_nil] at read
    rw [read, splitCsvFrom]
  | @more value _ _ _ field _ ih =>
    have comma : ¬(',' = '"' ∧ trim value = []) := fun quote => absurd quote.1 (by decide)
    rw [field.split pre (by simp), splitCsvFrom, if_neg comma, if_pos rfl, ih, List.append_assoc]
    rfl

theorem unifyBreaks_cons {c : Char} (other : c ≠ '\r') (rest : Text) :
    unifyBreaks (c :: rest) = c :: unifyBreaks rest := by
  cases rest with
  | nil => rw [unifyBreaks, if_neg other, unifyBreaks]
  | cons d rest => rw [unifyBreaks, if_neg other]

theorem unifyBreaks_append {run : Text} (plain : '\r' ∉ run) (rest : Text) :
    unifyBreaks (run ++ rest) = run ++ unifyBreaks rest := by
  induction run with
  | nil => rfl
  | cons c run ih =>
    rw [List.mem_cons, not_or] at plain
    rw [List.cons_append, unifyBreaks_cons (Ne.symm plain.1), ih plain.2, List.cons_append]

theorem unifyBreaks_break {ending : Text} (isBreak : IsBreak ending) (rest : Text) :
    unifyBreaks (ending ++ rest) = '\n' :: unifyBreaks rest := by
  cases isBreak with
  | crlf => exact if_pos rfl |>.trans (if_pos rfl)
  | lf => exact unifyBreaks_cons (by decide) rest

theorem splitOn_break (rest : Text) : ('\n' :: rest).splitOn '\n' = [] :: rest.splitOn '\n' := by
  rw [List.splitOn_cons_eq_if_modifyHead, if_pos (by decide)]

theorem splitOn_line {line : Text} (plain : '\n' ∉ line) (rest : Text) :
    (line ++ ('\n' :: rest)).splitOn '\n' = line :: rest.splitOn '\n' := by
  rw [splitOn_append_of_notMem plain, splitOn_break, List.modifyHead_cons, List.append_nil]

def Unbroken (line : Text) : Prop := '\r' ∉ line ∧ '\n' ∉ line

/-- The lines of the text are those written, with an empty one where the text ends in a break. -/
theorem CsvRecords.lines {records : List ImportedSession} {rest : Text} (csv : CsvRecords records rest)
    (unbroken : ∀ record ∈ records, ∀ line, CsvLine record line → Unbroken line) {line : Text}
    (plain : Unbroken line) :
    ∃ lines blank, List.Forall₂ CsvLine records lines ∧ (blank = [] ∨ blank = [[]]) ∧
      (unifyBreaks (line ++ rest)).splitOn '\n' = line :: (lines ++ blank) := by
  rw [unifyBreaks_append plain.1]
  induction csv generalizing line with
  | finished =>
    refine ⟨[], [], .nil, .inl rfl, ?_⟩
    rw [unifyBreaks, List.append_nil, List.splitOn_eq_singleton plain.2]
    rfl
  | final isBreak =>
    refine ⟨[], [[]], .nil, .inr rfl, ?_⟩
    have one := unifyBreaks_break isBreak []
    rw [List.append_nil] at one
    rw [one, splitOn_line plain.2]
    rfl
  | next isBreak written _ ih =>
    have unbroken' := unbroken _ List.mem_cons_self _ written
    obtain ⟨lines, blank, all, last, same⟩ :=
      ih (fun record mem => unbroken record (List.mem_cons_of_mem _ mem)) unbroken'
    refine ⟨_ :: lines, blank, .cons written all, last, ?_⟩
    rw [unifyBreaks_break isBreak, splitOn_line plain.2, unifyBreaks_append unbroken'.1, same]
    rfl

variable {c : Char}

theorem hostChar_bounds (isHost : isHostChar c = true) : 0x25 ≤ c.toNat ∧ c.toNat < 0x7B ∧ c ≠ '@' := by
  rw [isHostChar, Bool.or_eq_true] at isHost
  rcases isHost with alphanum | listed
  · have bounds : 0x25 ≤ c.toNat ∧ c.toNat < 0x7B ∧ c.toNat ≠ 0x40 := by
      unfold Char.isAlphanum Char.isAlpha Char.isUpper Char.isLower Char.isDigit at alphanum
      simp only [Bool.or_eq_true, UInt32.le_iff_toNat_le] at alphanum
      rcases alphanum with (upper | lower) | digit
      · simp at upper
        omega
      · simp at lower
        omega
      · simp at digit
        omega
    refine ⟨bounds.1, bounds.2.1, ?_⟩
    rintro rfl
    exact bounds.2.2 rfl
  · have all : "._:-[]%_".toList.all (fun d => 0x25 ≤ d.toNat && d.toNat < 0x7B && d != '@') = true := by decide
    have one := List.all_eq_true.mp all c (by simpa using listed)
    simpa only [Bool.and_eq_true, decide_eq_true_eq, bne_iff_ne, and_assoc] using one

def HostChars (text : Text) : Prop := ∀ c ∈ text, isHostChar c = true

variable {text : Text}

theorem not_trimmed (isHost : isHostChar c = true) : isTrimmed c = false := by
  obtain ⟨low, high, -⟩ := hostChar_bounds isHost
  simp only [isTrimmed, Bool.or_eq_false_iff, Bool.and_eq_false_iff, decide_eq_false_iff_not, beq_eq_false_iff_ne]
  omega

theorem HostChars.notMem (chars : HostChars text) (other : isHostChar c = false) : c ∉ text := by
  intro mem
  rw [chars c mem] at other
  cases other

theorem HostChars.trim (chars : HostChars text) : trim text = text :=
  trimWith_bare {
    head := fun a first => not_trimmed (chars a (List.mem_of_head? first))
    last := fun a last => not_trimmed (chars a (List.mem_of_getLast? last)) }

theorem HostChars.unwrapped (chars : HostChars text) : wrapped text = false := by
  have unquoted : ¬text.head? = some '"' := fun first => chars.notMem (by decide) (List.mem_of_head? first)
  simp [wrapped, unquoted]

theorem hostChars_number (n : Nat) : HostChars (number n) := by
  intro c mem
  have digit := Nat.isDigit_of_mem_toDigits (by decide) (by decide) mem
  rw [isHostChar, Char.isAlphanum, digit, Bool.or_true, Bool.true_or]

theorem parseDigits_number (n : Nat) : parseDigits (number n) = n := by
  have same : parseDigits (number n) = Nat.ofDigitChars 10 (number n) 0 := by
    unfold parseDigits
    congr 1
    funext value c
    rw [Nat.mul_comm]
  rw [same]
  exact Nat.ofDigitChars_ten_toDigits

theorem isPortLike_number {n : Nat} (positive : 1 ≤ n) (small : n ≤ 65535) : isPortLike (number n) = true := by
  have digits : allDigits (number n) = true := by
    rw [allDigits, Bool.and_eq_true]
    refine ⟨?_, List.all_eq_true.mpr fun c mem => Nat.isDigit_of_mem_toDigits (by decide) (by decide) mem⟩
    have ne : number n ≠ [] := Nat.toDigits_ne_nil
    simpa using ne
  simp only [isPortLike, (hostChars_number n).trim, digits, parseDigits_number, Bool.true_and, decide_eq_true_eq]
  exact ⟨positive, small⟩

/-- What the fields of a record must be to be listed at all. -/
structure Listed (record : ImportedSession) : Prop where
  host : matchesHost record.host = true
  name : record.name ≠ [] ∧ utf16Length record.name ≤ MAX_NAME_LENGTH
  namePlain : Unbroken record.name ∧ trim record.name = record.name
  username : record.username ≠ []
  port : 1 ≤ record.port ∧ record.port ≤ 65535
  folder : record.folder = [] ∨ Normal record.folder

/-- The host is no endpoint, and no field is one that the reader trims or takes for quoted. -/
structure Importable (record : ImportedSession) : Prop extends Listed record where
  short : utf16Length record.host ≤ MAX_HOST_LENGTH
  unbracketed : record.host.head? ≠ some '['
  unported : record.host.count ':' = 1 → record.host.head? = some ':'
  usernamePlain : Unbroken record.username ∧ trim record.username = record.username
  folderUnbroken : Unbroken record.folder
  unwrapped : wrapped record.name = false ∧ wrapped record.username = false ∧ wrapped record.folder = false

theorem hostChars_of_matches (matching : matchesHost text = true) : text ≠ [] ∧ HostChars text := by
  rw [matchesHost, Bool.and_eq_true, List.all_eq_true] at matching
  exact ⟨by simpa using matching.1, matching.2⟩

theorem last_parts (mem : c ∈ text) : ∃ pre after, text = pre ++ (c :: after) ∧ c ∉ after ∧
      (text.reverse.takeWhile (· ≠ c)).reverse = after := by
  have shape := List.takeWhile_append_dropWhile (p := (· ≠ c)) (l := text.reverse)
  cases rest : text.reverse.dropWhile (· ≠ c) with
  | nil =>
    have all := List.dropWhile_eq_nil_iff.mp rest c (List.mem_reverse.mpr mem)
    simp at all
  | cons d pre =>
    obtain rfl : d = c := by
      have stops := List.head?_dropWhile_not (· ≠ c) text.reverse
      rw [rest] at stops
      simpa using stops
    refine ⟨pre.reverse, (text.reverse.takeWhile (· ≠ d)).reverse, ?_, ?_, rfl⟩
    · rw [rest] at shape
      have turned := congrArg List.reverse shape
      rw [List.reverse_append, List.reverse_cons, List.reverse_reverse, List.append_assoc] at turned
      exact turned.symm
    · intro inside
      have other := List.mem_takeWhile_imp (List.mem_reverse.mp inside)
      simp at other

/-- A host that is no endpoint is taken whole. -/
theorem parseHostShorthand_host {host : Text} (chars : HostChars host) (unbracketed : host.head? ≠ some '[')
    (unported : host.count ':' = 1 → host.head? = some ':') : parseHostShorthand host = { host } := by
  have noUser : host.contains '@' = false := by
    rw [List.contains_eq_mem, decide_eq_false_iff_not]
    exact chars.notMem (by decide)
  have whole : parseEndpoint none host = { host } := by
    simp only [parseEndpoint, if_neg unbracketed]
    rw [if_neg]
    rw [Bool.and_eq_true, Bool.and_eq_true]
    rintro ⟨⟨colon, ne⟩, single⟩
    obtain ⟨before, after, rfl, free, same⟩ := last_parts (by simpa using colon)
    rw [same] at ne single
    have front : (before ++ (':' :: after)).take ((before ++ (':' :: after)).length - after.length - 1) = before := by
      rw [List.length_append, List.length_cons, show before.length + (after.length + 1) - after.length - 1 =
        before.length by omega, List.take_left]
    rw [front] at ne single
    have alone : ':' ∉ before := by simpa using single
    have first := unported (by
      rw [List.count_append, List.count_cons_self, List.count_eq_zero_of_not_mem alone,
        List.count_eq_zero_of_not_mem free])
    cases before with
    | nil => simp at ne
    | cons c before =>
      obtain rfl : c = ':' := by simpa using first
      exact alone List.mem_cons_self
  simp only [parseHostShorthand, noUser, Bool.false_and, Bool.false_eq_true, if_false, whole]

def headerColumns : HeaderMap
  | .host => some 0
  | .name => some 1
  | .username => some 2
  | .port => some 3
  | .folder => some 4

def headerNames : List Text := ["host", "name", "username", "port", "folder"].map String.toList

variable (letters : LetterCase)

theorem header_detected : detectHeader letters headerNames = some ⟨headerColumns, false⟩ := by
  have tokens : headerNames.map (normalizeHeaderToken letters) = headerNames := by
    have lower : ∀ field ∈ headerNames, normalizeHeaderToken letters field = field := by
      intro field mem
      have ascii : headerNames.all (fun name => trim name == name && (name.all fun c => c.toNat < 0x80) &&
          (name.map Char.toLower).filter (fun c => !(isTrimmed c || c == '_')) == name) = true := by decide
      have one := List.all_eq_true.mp ascii field mem
      simp only [Bool.and_eq_true, beq_iff_eq, List.all_eq_true, decide_eq_true_eq] at one
      obtain ⟨⟨trimmed, low⟩, same⟩ := one
      rw [normalizeHeaderToken, trimmed, letters.ascii field low, same]
    rw [List.map_congr_left lower, List.map_id']
  have columns : mapColumns (fun _ => none) 0 headerNames = headerColumns := by
    funext role
    cases role <;> decide
  simp only [detectHeader, tokens, columns]
  rfl

theorem header_fields : (splitFields headerLine (pickDelimiter headerLine)).map cleanField = headerNames := by decide

theorem CsvField.unbroken (csv : CsvField field written) (plain : Unbroken field) :
    Unbroken written := by
  cases csv with
  | bare => exact plain
  | quoted =>
    have chars : ∀ c ∈ quoteField field, c = '"' ∨ c ∈ field := by
      intro c mem
      simp only [quoteField, doubleQuotes, List.mem_cons, List.mem_append, List.mem_flatMap, List.not_mem_nil,
        or_false] at mem
      rcases mem with quote | ⟨d, inside, here⟩ | quote
      · exact .inl quote
      · split_ifs at here with quoted
        · exact .inl (by simpa using here)
        · exact .inr (by rwa [List.mem_singleton.mp here])
      · exact .inl quote
    constructor <;> intro mem <;> rcases chars _ mem with quote | inside
    · exact absurd quote (by decide)
    · exact plain.1 inside
    · exact absurd quote (by decide)
    · exact plain.2 inside

theorem CsvFields.unbroken {line : Text} (csv : CsvFields fields line)
    (plain : ∀ field ∈ fields, Unbroken field) : Unbroken line := by
  induction csv with
  | one field => exact field.unbroken (plain _ List.mem_cons_self)
  | more field _ ih =>
    have first := field.unbroken (plain _ List.mem_cons_self)
    have later := ih fun other mem => plain other (List.mem_cons_of_mem _ mem)
    constructor <;> intro mem <;> rcases List.mem_append.mp mem with here | there
    · exact first.1 here
    · exact later.1 ((List.mem_cons.mp there).resolve_left (by decide))
    · exact first.2 here
    · exact later.2 ((List.mem_cons.mp there).resolve_left (by decide))

theorem bare_trim (trimmed : trim text = text) : Bare isTrimmed text := by
  have bare := @bare_trimWith _ isTrimmed text
  exact trimmed ▸ bare

theorem CsvField.last (csv : CsvField field written) (trimmed : trim field = field)
    (last : written.getLast? = some c) : isTrimmed c = false := by
  cases csv with
  | bare => exact (bare_trim trimmed).last c last
  | quoted =>
    rw [quoteField, ← List.cons_append, List.getLast?_concat] at last
    obtain rfl := Option.some.inj last
    decide

theorem CsvFields.last {line : Text} (csv : CsvFields fields line)
    (trimmed : ∀ field ∈ fields, trim field = field) (last : line.getLast? = some c) : isTrimmed c = false := by
  induction csv with
  | one field => exact field.last (trimmed _ List.mem_cons_self) last
  | @more _ _ _ rest _ _ ih =>
    rw [List.getLast?_append, List.getLast?_cons, Option.some_or] at last
    cases more : rest.getLast? with
    | none =>
      rw [more] at last
      obtain rfl := Option.some.inj last
      decide
    | some d =>
      rw [more] at last
      obtain rfl := Option.some.inj last
      exact ih (fun other mem => trimmed other (List.mem_cons_of_mem _ mem)) more

def Clean (field : Text) : Prop := trim field = field ∧ wrapped field = false

theorem Clean.cleanField {field : Text} (clean : Clean field) : cleanField field = field := by
  rw [Inventory.cleanField]
  simp only [clean.1, clean.2]
  rfl

theorem HostChars.clean (chars : HostChars text) : Clean text := ⟨chars.trim, chars.unwrapped⟩

namespace Importable

variable {record : ImportedSession} (importable : Importable record)
include importable

theorem hostChars : HostChars record.host := (hostChars_of_matches importable.host).2

theorem folder_trimmed : trim record.folder = record.folder := by
  rcases importable.folder with none_ | normal
  · rw [none_]
    rfl
  · exact normal.trimmed

theorem clean : ∀ field ∈ recordFields record, Clean field := by
  simp only [recordFields, List.forall_mem_cons]
  exact ⟨importable.hostChars.clean, ⟨importable.namePlain.2, importable.unwrapped.1⟩,
    ⟨importable.usernamePlain.2, importable.unwrapped.2.1⟩, (hostChars_number _).clean,
    ⟨importable.folder_trimmed, importable.unwrapped.2.2⟩, fun _ mem => absurd mem List.not_mem_nil⟩

variable {line : Text}

section

variable (csv : CsvLine record line)
include csv

theorem unbroken : Unbroken line := by
  refine csv.unbroken ?_
  have plain {text : Text} (chars : HostChars text) : Unbroken text :=
    ⟨chars.notMem (by decide), chars.notMem (by decide)⟩
  simp only [recordFields, List.forall_mem_cons]
  exact ⟨plain importable.hostChars, importable.namePlain.1, importable.usernamePlain.1, plain (hostChars_number _),
    importable.folderUnbroken, fun _ mem => absurd mem List.not_mem_nil⟩

theorem line_head : ∃ c rest, line = c :: rest ∧ isTrimmed c = false ∧ c ≠ '#' ∧ ',' ∈ line := by
  cases csv with
  | more host later =>
    cases host with
    | quoted => exact ⟨'"', _, rfl, by decide, by decide, by simp⟩
    | bare =>
      obtain ⟨c, rest, shape⟩ := List.exists_cons_of_ne_nil (hostChars_of_matches importable.host).1
      have chars := importable.hostChars
      rw [shape] at chars ⊢
      have first := chars c List.mem_cons_self
      refine ⟨c, _, rfl, not_trimmed first, ?_, by simp⟩
      rintro rfl
      exact absurd first (by decide)

theorem line_trimmed : trim line = line := by
  refine trimWith_bare ⟨fun a first => ?_, fun a last => ?_⟩
  · obtain ⟨c, rest, rfl, plain, -, -⟩ := importable.line_head csv
    obtain rfl := Option.some.inj first
    exact plain
  · exact CsvFields.last csv (fun field mem => (importable.clean field mem).1) last

theorem line_counts : isDataLine line = true := by
  obtain ⟨c, -, rfl, -, noComment, -⟩ := importable.line_head csv
  simp [isDataLine, noComment]

theorem line_fields : (splitFields line (pickDelimiter line)).map cleanField = recordFields record := by
  obtain ⟨c, -, -, -, -, comma⟩ := importable.line_head csv
  have delimiter : pickDelimiter line = .comma := if_pos (by simpa using comma)
  rw [delimiter, splitFields, splitCsvLike, CsvFields.split csv [], List.nil_append]
  have same : ∀ field ∈ recordFields record, cleanField field = field := fun field mem =>
    (importable.clean field mem).cleanField
  rw [List.map_congr_left same, List.map_id']

end

theorem folder_joined : joinFolderSegments none record.folder = record.folder := by
  simp only [joinFolderSegments, importable.folder_trimmed]
  cases shape : record.folder with
  | nil => rfl
  | cons c rest =>
    have kept : ([[], c :: rest] : List Text).filter (fun segment => !segment.isEmpty) = [c :: rest] := rfl
    rw [Option.map_none, Option.getD_none, kept, joinPath, List.intercalate_singleton]

theorem resolved {row : Row} (csv : CsvLine record row.text) {opts : InventoryParseOptions}
    (noFolder : opts.defaultFolder = none) : resolveRow opts (some headerColumns) row = .ok ⟨record, true⟩ := by
  obtain ⟨-, chars⟩ := hostChars_of_matches importable.host
  have fields : rowFields (some headerColumns) (recordFields record) =
      ⟨record.host, record.name, record.username, number record.port, record.folder⟩ := rfl
  have hostWhole := parseHostShorthand_host chars importable.unbracketed importable.unported
  have port : number record.port ≠ [] := Nat.toDigits_ne_nil
  have portLike := isPortLike_number importable.port.1 importable.port.2
  have short : ¬utf16Length record.host > MAX_HOST_LENGTH := Nat.not_lt.mpr importable.short
  have named : ¬utf16Length record.name > MAX_NAME_LENGTH := Nat.not_lt.mpr importable.name.2
  have ne := (hostChars_of_matches importable.host).1
  simp only [resolveRow, importable.line_fields csv, fields, chars.trim, hostWhole, if_neg ne, if_neg short,
    importable.host, (hostChars_number record.port).trim, portLike, ne_eq,
    port, not_false_eq_true, if_true, parseDigits_number, importable.usernamePlain.2, importable.username,
    importable.namePlain.2, importable.name.1, if_neg named, noFolder]
  rw [if_neg (by decide), importable.folder_joined]
  rcases importable.folder with none_ | normal
  · rw [if_pos none_, ← none_]
    rfl
  · rw [if_neg normal.nonempty, (show normalizeFolderPath record.folder = some record.folder from normal)]
    rfl

end Importable

variable {letters}

variable {records : List ImportedSession}

/-- Rows of new records are all taken. -/
theorem processRows_taken {opts : InventoryParseOptions} (noFolder : opts.defaultFolder = none)
    {rows : List Row} (importable : ∀ record ∈ records, Importable record)
    (written : List.Forall₂ CsvLine records (rows.map Row.text)) {progress : Progress} {processed : Nat}
    (accounted : Accounted letters progress processed)
    (nodup : ((progress.sessions ++ records).map (sessionKey letters)).Nodup) :
    let res := rows.foldl (processRow letters opts (some headerColumns)) progress
    res.sessions = progress.sessions ++ records ∧ res.issues = progress.issues ∧
      res.skippedCount = progress.skippedCount := by
  generalize lines : rows.map Row.text = texts at written
  induction written generalizing rows progress processed with
  | nil =>
    obtain rfl := List.map_eq_nil_iff.mp lines
    exact ⟨(List.append_nil _).symm, rfl, rfl⟩
  | @cons record line records texts csv _ ih =>
    obtain ⟨row, rows, rfl, rfl, rfl⟩ := List.map_eq_cons_iff.mp lines
    have resolved := (importable record List.mem_cons_self).resolved csv noFolder
    have fresh : progress.seen.lookup (sessionKey letters record) = none := by
      rw [List.lookup_eq_none_iff]
      rintro ⟨key, line⟩ mem
      have used : key ∈ progress.sessions.map (sessionKey letters) := by
        rw [← List.mem_reverse, ← accounted.keyed]
        exact List.mem_map_of_mem mem
      rw [List.map_append, List.nodup_append] at nodup
      have other := nodup.2.2 key used _ (List.mem_map_of_mem List.mem_cons_self)
      simpa using Ne.symm other
    have next := @Accounted.processRow letters opts _ _ accounted (some headerColumns) row
    have taken : (processRow letters opts (some headerColumns) progress row).sessions =
      progress.sessions ++ [record] ∧
        (processRow letters opts (some headerColumns) progress row).issues = progress.issues ∧
        (processRow letters opts (some headerColumns) progress row).skippedCount = progress.skippedCount := by
      simp [processRow, resolved, fresh]
    have onward := ih (fun other mem => importable other (List.mem_cons_of_mem _ mem)) next
      (by rw [taken.1, List.append_assoc]; exact nodup) rfl
    rw [taken.1, taken.2.1, taken.2.2, List.append_assoc] at onward
    exact onward

/-- The same records in the same order, and nothing to report. -/
structure RoundTrips (letters : LetterCase) (options : InventoryParseOptions) (records : List ImportedSession)
    (text : Text) : Prop where
  sessions : (parseInventoryList letters options text).sessions = records
  issues : (parseInventoryList letters options text).issues = []
  skipped : (parseInventoryList letters options text).skippedCount = 0

theorem dataLines_written {text : Text} (csv : CsvText records text)
    (importable : ∀ record ∈ records, Importable record) :
    ∃ lines, List.Forall₂ CsvLine records lines ∧ dataLines text = headerLine :: lines := by
  obtain ⟨rest, rfl, csv⟩ := csv
  obtain ⟨lines, blank, written, last, split⟩ := csv.lines
    (fun record mem line csv => (importable record mem).unbroken csv)
      (show Unbroken headerLine from ⟨by decide, by decide⟩)
  refine ⟨lines, written, ?_⟩
  have clean : cleanText (headerLine ++ rest) = unifyBreaks (headerLine ++ rest) := rfl
  have kept : ∀ line ∈ lines, trim line = line ∧ isDataLine line = true := by
    intro line mem
    obtain ⟨record, inside, csv⟩ := exists_of_forall₂_right written mem
    exact ⟨(importable record inside).line_trimmed csv, (importable record inside).line_counts csv⟩
  have header : trim headerLine = headerLine ∧ isDataLine headerLine = true := by decide
  rw [dataLines, clean, split, List.map_cons, header.1, List.filter_cons_of_pos header.2, List.map_append,
    List.filter_append, List.map_congr_left fun line mem => (kept line mem).1, List.map_id',
    List.filter_eq_self.mpr fun line mem => (kept line mem).2]
  rcases last with rfl | rfl
  · exact congrArg (headerLine :: ·) (List.append_nil lines)
  · exact congrArg (headerLine :: ·) (List.append_nil lines)

/-- What is written is read back. -/
theorem records_imported {opts : InventoryParseOptions} (noFolder : opts.defaultFolder = none) {text : Text}
    (few : records.length ≤ MAX_DATA_ROWS) (importable : ∀ record ∈ records, Importable record)
    (nodup : (records.map (sessionKey letters)).Nodup) (csv : CsvText records text) :
    RoundTrips letters opts records text := by
  obtain ⟨lines, written, data⟩ := dataLines_written csv importable
  have header : detectedHeader letters text = some ⟨headerColumns, false⟩ := by
    rw [detectedHeader, data, List.head?_cons, Option.bind_some, header_fields, header_detected]
  have texts := numbered_texts 0 ((cleanText text).splitOn '\n')
  rw [← dataLines, data] at texts
  have total : (dataLines text).length - 1 = records.length := by
    rw [data, List.length_cons, Nat.add_sub_cancel, written.length_eq]
  have limits : ROW_COLLECTION_LIMIT = 5002 ∧ MAX_DATA_ROWS = 5000 := ⟨rfl, rfl⟩
  obtain ⟨first, rows, whole, -, rowTexts⟩ := List.map_eq_cons_iff.mp texts
  have count : rows.length = records.length := by
    rw [← List.length_map Row.text, rowTexts, written.length_eq]
  have all : (first :: rows).take ROW_COLLECTION_LIMIT = first :: rows :=
    List.take_of_length_le (by rw [List.length_cons]; omega)
  have taken := processRows_taken noFolder importable (rowTexts ▸ written)
    (show Accounted letters { issues := [] } 0 from ⟨rfl, rfl, List.nodup_nil⟩) nodup
  have ofRows : headerOf letters (first :: rows) = some ⟨headerColumns, false⟩ := by
    rw [← all, ← whole, headerOf_rows, header]
  have untruncated : ¬records.length > MAX_DATA_ROWS := Nat.not_lt.mpr few
  have rowsTaken : rows.take MAX_DATA_ROWS = rows := List.take_of_length_le (by omega)
  constructor <;>
  · simp [parseInventoryList, collectRows_text, whole, all, ofRows, total, if_neg untruncated, rowsTaken,
      taken]

/-- A list of records is read back as it was written, and every line of any text is accounted for. -/
theorem inventory_list_faithful (letters : LetterCase) :
    (∀ (options : InventoryParseOptions) (records : List ImportedSession) (text : Text),
      options.defaultFolder = none → records.length ≤ MAX_DATA_ROWS →
        (∀ record ∈ records, Importable record) →
      (records.map (sessionKey letters)).Nodup → CsvText records text → RoundTrips letters options records text) ∧
    ∀ (options : InventoryParseOptions) (text : Text),
      let result := parseInventoryList letters options text
      result.sessions.length + result.skippedCount + result.truncatedCount +
          (if (detectedHeader letters text).isSome then 1 else 0) = (dataLines text).length ∧
        (result.sessions.map (sessionKey letters)).Nodup :=
  ⟨fun _ _ _ noFolder few importable distinct csv => records_imported noFolder few importable distinct csv,
    fun options text => inventory_accounted letters options text⟩

def asciiLetters : LetterCase where
  toLowerCase text := text.map Char.toLower
  ascii _ _ := rfl

def labSwitch : ImportedSession :=
  ⟨"Core, \"A\" side".toList, "10.0.0.1".toList, 22, "admin".toList, "Site A/Rack 1".toList⟩

def edgeHost : ImportedSession := ⟨"edge".toList, "fe80::1".toList, 2222, "ops".toList, []⟩

def labLine : Text := "10.0.0.1,\"Core, \"\"A\"\" side\",admin,22,Site A/Rack 1".toList

def edgeHostLine : Text := "fe80::1,edge,\"ops\",2222,".toList

theorem labLine_written : CsvLine labSwitch labLine :=
  .more (.bare (by decide) (by decide)) (.more .quoted (.more (.bare (by decide) (by decide))
    (.more (.bare (by decide) (by decide)) (.one (.bare (by decide) (by decide))))))

theorem edgeHostLine_written : CsvLine edgeHost edgeHostLine :=
  .more (.bare (by decide) (by decide)) (.more (.bare (by decide) (by decide)) (.more .quoted
    (.more (.bare (by decide) (by decide)) (.one (.bare (by decide) (by decide))))))

/-- A name with a comma and quotes in it, an address with more than one colon, no folder. -/
theorem inventory_list_faithful_switches :
    RoundTrips asciiLetters {} [labSwitch, edgeHost]
      (headerLine ++ (['\r', '\n'] ++ (labLine ++ (['\n'] ++ (edgeHostLine ++ ['\n']))))) := by
  have core : Importable labSwitch := by
    refine ⟨⟨?_, ?_, ⟨⟨?_, ?_⟩, ?_⟩, ?_, ?_, .inr ?_⟩, ?_, ?_, ?_, ⟨⟨?_, ?_⟩, ?_⟩, ⟨?_, ?_⟩,
      ?_⟩ <;> decide
  have edge : Importable edgeHost := by
    refine ⟨⟨?_, ?_, ⟨⟨?_, ?_⟩, ?_⟩, ?_, ?_, .inl ?_⟩, ?_, ?_, ?_, ⟨⟨?_, ?_⟩, ?_⟩, ⟨?_, ?_⟩,
      ?_⟩ <;> decide
  refine (inventory_list_faithful asciiLetters).1 {} _ _ rfl (by decide) ?_ (by decide)
    ⟨_, rfl, .next .crlf labLine_written (.next .lf edgeHostLine_written (.final .lf))⟩
  intro record member
  rcases List.mem_pair.mp member with rfl | rfl
  · exact core
  · exact edge

def loopback : ImportedSession := ⟨"loop".toList, "[::1]".toList, 22, "root".toList, []⟩

def loopbackLine : Text := "[::1],loop,root,22,".toList

/-- A host in brackets is stored without them. -/
theorem brackets_not_kept :
    Listed loopback ∧ CsvText [loopback] (headerLine ++ (['\r', '\n'] ++ (loopbackLine ++ []))) ∧
      ¬RoundTrips asciiLetters {} [loopback] (headerLine ++ (['\r', '\n'] ++ (loopbackLine ++ []))) := by
  refine ⟨⟨?_, ?_, ⟨⟨?_, ?_⟩, ?_⟩, ?_, ?_, .inl ?_⟩, ⟨_, rfl, .next .crlf ?_ .finished⟩, ?_⟩
  all_goals try decide
  · exact .more (.bare (by decide) (by decide)) (.more (.bare (by decide) (by decide)) (.more
      (.bare (by decide) (by decide)) (.more (.bare (by decide) (by decide)) (.one (.bare (by decide) (by decide))))))
  · intro trip
    have stored : (parseInventoryList asciiLetters {} (headerLine ++ (['\r', '\n'] ++ (loopbackLine ++ [])))).sessions =
        [{ loopback with host := "::1".toList }] := by decide
    exact absurd (stored.symm.trans trip.sessions) (by decide)

end NexTerminal.Inventory
