import NexTerminal.Dhcp.Cursor
import NexTerminal.Library.OrderedMap
import NexTerminal.Library.TaggedFields

namespace NexTerminal.Dhcp

open Std Library

def optionSyntax : FieldSyntax UInt8 where
  pad := optionPad
  stop := optionEnd
  size := UInt8.toNat

def DecodeError.ofFault : FieldFault UInt8 → DecodeError
  | .missingSize code => .optionMissingLength code
  | .truncated code declared available => .optionTruncated code declared available

def Options.appendAll (options : Options) (fields : List (UInt8 × Bytes)) : Options :=
  fields.foldl (fun options field => options.append field.1 field.2) options

/-- The options of some fields: one value for each code, of all its occurrences. -/
def Options.Of (options : Options) (fields : List (UInt8 × Bytes)) : Prop :=
  ∀ code : UInt8, options[code]? = joinedUnder code fields

variable {fields : List (UInt8 × Bytes)}

theorem Options.Of.append {opts : Options} (holds : opts.Of fields) (field : UInt8 × Bytes) :
    (opts.append field.1 field.2).Of (fields ++ [field]) := by
  intro code
  rw [joinedUnder_snoc, Options.append, TreeMap.getElem?_insert_eq, holds field.1]
  split
  · rename_i same
    rw [same]
  · exact holds code

theorem Options.Of.appendAll {opts : Options} (holds : opts.Of fields) (more : List (UInt8 × Bytes)) :
    (opts.appendAll more).Of (fields ++ more) := by
  induction more generalizing opts fields with
  | nil => rwa [List.append_nil]
  | cons field rest ih =>
    have next := ih (holds.append field)
    rwa [List.append_assoc, List.singleton_append] at next

theorem Options.of_empty : (∅ : Options).Of [] := fun _ => by simp [joinedUnder, valuesUnder]

section

variable {code size : UInt8} {value rest region : Bytes} {fields : List (UInt8 × Bytes)}

theorem parseOptions_pad (rest : Bytes) (into : Options) :
    parseOptions (optionPad :: rest) into = parseOptions rest into := by
  rw [parseOptions.eq_def]
  exact if_pos rfl

theorem parseOptions_end (rest : Bytes) (into : Options) : parseOptions (optionEnd :: rest) into = .ok into := by
  rw [parseOptions.eq_def]
  exact (if_neg (by decide)).trans (if_pos rfl)

theorem isTag_iff : optionSyntax.IsTag code ↔ code ≠ optionPad ∧ code ≠ optionEnd := Iff.rfl

theorem parseOptions_field (isTag : optionSyntax.IsTag code) (fits : value.length = size.toNat) (into : Options) :
    parseOptions (code :: size :: (value ++ rest)) into = parseOptions rest (into.append code value) := by
  have enough : ¬ value.length > (value ++ rest).length := by
    rw [List.length_append]
    omega
  obtain ⟨notPad, notEnd⟩ := isTag_iff.mp isTag
  rw [parseOptions.eq_def]
  dsimp only
  rw [if_neg notPad, if_neg notEnd, ← fits, if_neg enough, List.drop_left, List.take_left]

theorem parseOptions_region (read : optionSyntax.Region region fields) (into : Options) :
    parseOptions region into = .ok (into.appendAll fields) := by
  induction read generalizing into with
  | exhausted => rw [parseOptions.eq_def]; rfl
  | stopped rest => exact parseOptions_end rest into
  | padded _ ih => exact (parseOptions_pad _ into).trans (ih into)
  | field isTag fits _ ih => rw [parseOptions_field isTag fits, ih]; rfl

theorem parseOptions_broken {fault : FieldFault UInt8} (broken : optionSyntax.Broken region fault)
    (into : Options) : parseOptions region into = .error (.ofFault fault) := by
  induction broken generalizing into with
  | missingSize isTag =>
    obtain ⟨notPad, notEnd⟩ := isTag_iff.mp isTag
    rw [parseOptions.eq_def]
    dsimp only
    rw [if_neg notPad, if_neg notEnd]
    rfl
  | truncated isTag short =>
    obtain ⟨notPad, notEnd⟩ := isTag_iff.mp isTag
    rw [parseOptions.eq_def]
    dsimp only
    rw [if_neg notPad, if_neg notEnd]
    exact if_pos short
  | padded _ ih => exact (parseOptions_pad _ into).trans (ih into)
  | field isTag fits _ ih => rw [parseOptions_field isTag fits, ih]

end

def slice (buf : Bytes) (offset width : Nat) : Bytes := (buf.drop offset).take width

def numberAt (buf : Bytes) (offset width : Nat) : Nat := fromBeBytes (slice buf offset width)

abbrev Check := Bytes → Option DecodeError

def present (field : String) (offset width : Nat) : Check := fun buf =>
  if width > buf.length - offset then some (.tooShort field width (buf.length - offset)) else none

def knownOperation : Check := fun buf =>
  let op : UInt8 := .ofNat (numberAt buf 0 1)
  if op ≠ opBootrequest ∧ op ≠ opBootreply then some (.badOperation op) else none

def usableHardwareLength : Check := fun buf =>
  let hlen : UInt8 := .ofNat (numberAt buf 2 1)
  if hlen = 0 ∨ hlen.toNat > maxHardwareLen then some (.badHardwareLength hlen) else none

def rightCookie : Check := fun buf =>
  if slice buf 236 4 ≠ magicCookie then some (.badMagicCookie (slice buf 236 4)) else none

def openingChecks : List Check := [present "op" 0 1, knownOperation, present "htype" 1 1, present "hlen" 2 1]

def addressChecks : List Check :=
  [present "hops" 3 1, present "xid" 4 4, present "secs" 8 2, present "flags" 10 2, present "ciaddr" 12 4,
    present "yiaddr" 16 4, present "siaddr" 20 4, present "giaddr" 24 4]

def closingChecks : List Check :=
  [present "chaddr" 28 16, present "sname" 44 64, present "file" 108 128, present "magic cookie" 236 4, rightCookie]

def wireOrder : List Check := openingChecks ++ usableHardwareLength :: addressChecks ++ closingChecks

/-- The rules as they are judged: `hlen` where the hardware address it measures is read. -/
def readingOrder : List Check := openingChecks ++ addressChecks ++ usableHardwareLength :: closingChecks

def firstViolation (checks : List Check) (buf : Bytes) : Option DecodeError :=
  checks.findSome? fun check => check buf

/-- A reader at an offset that applies the checks in turn, and comes to the verdict when
all of them pass. -/
def Judges {α : Type} (buf : Bytes) (reader : Reader α) (offset : Nat) (checks : List Check)
    (verdict : Except DecodeError (α × Bytes)) : Prop :=
  reader.run (buf.drop offset) =
    match firstViolation checks buf with
    | some error => .error error
    | none => verdict

section

variable {α : Type} {buf : Bytes} {offset : Nat} {checks : List Check}
  {verdict : Except DecodeError (α × Bytes)}

variable {field : String}

theorem Judges.take {n : Nat} {next : Bytes → Reader α}
    (later : Judges buf (next (slice buf offset n)) (offset + n) checks verdict) :
    Judges buf (Reader.take n field >>= next) offset (present field offset n :: checks) verdict := by
  unfold Judges firstViolation at *
  rw [StateT.run_bind, List.findSome?_cons]
  change (if n > (buf.drop offset).length then _ else _) >>= _ = _
  rw [List.length_drop, present]
  split
  · rfl
  · rw [ok_bind, List.drop_drop]
    exact later

theorem Judges.u8 {next : UInt8 → Reader α}
    (later : Judges buf (next (.ofNat (numberAt buf offset 1))) (offset + 1) checks verdict) :
    Judges buf (Reader.u8 field >>= next) offset (present field offset 1 :: checks) verdict := by
  simp only [Reader.u8, bind_assoc]
  exact .take later

theorem Judges.u16 {next : UInt16 → Reader α}
    (later : Judges buf (next (.ofNat (numberAt buf offset 2))) (offset + 2) checks verdict) :
    Judges buf (Reader.u16 field >>= next) offset (present field offset 2 :: checks) verdict := by
  simp only [Reader.u16, bind_assoc]
  exact .take later

theorem Judges.u32 {next : UInt32 → Reader α}
    (later : Judges buf (next (.ofNat (numberAt buf offset 4))) (offset + 4) checks verdict) :
    Judges buf (Reader.u32 field >>= next) offset (present field offset 4 :: checks) verdict := by
  simp only [Reader.u32, bind_assoc]
  exact .take later

theorem Judges.unless {c : Prop} [Decidable c] {error : DecodeError} {check : Check} {next : Unit → Reader α}
    (rule : check buf = if c then some error else none) (later : Judges buf (next ()) offset checks verdict) :
    Judges buf (if c then throw error >>= next else next ()) offset (check :: checks) verdict := by
  unfold Judges firstViolation at *
  rw [List.findSome?_cons, rule]
  split
  · rfl
  · exact later

end

def headerMessage (buf : Bytes) (options : Options) : Message where
  op := .ofNat (numberAt buf 0 1)
  htype := .ofNat (numberAt buf 1 1)
  hops := .ofNat (numberAt buf 3 1)
  xid := .ofNat (numberAt buf 4 4)
  secs := .ofNat (numberAt buf 8 2)
  flags := .ofNat (numberAt buf 10 2)
  ciaddr := .ofNat (numberAt buf 12 4)
  yiaddr := .ofNat (numberAt buf 16 4)
  siaddr := .ofNat (numberAt buf 20 4)
  giaddr := .ofNat (numberAt buf 24 4)
  chaddr := (slice buf 28 16).take (UInt8.ofNat (numberAt buf 2 1)).toNat
  sname := slice buf 44 64
  file := slice buf 108 128
  options := options

theorem decodeMain_judges (buf : Bytes) :
    Judges buf Message.decodeMain 0 readingOrder
      ((parseOptions (buf.drop 240) ∅).map fun opts => (headerMessage buf opts, buf.drop 240)) := by
  refine .u8 (.unless rfl (.u8 (.u8 (.u8 (.u32 (.u16 (.u16 (.u32 (.u32 (.u32 (.u32 ?_)))))))))))
  refine .unless rfl (.take (.take (.take (.take (.unless rfl ?_)))))
  change Except.bind (Except.bind (parseOptions (buf.drop 240) ∅) fun opts => .ok (opts, buf.drop 240)) _ = _
  cases parseOptions (buf.drop 240) ∅ with
  | error error | ok opts => rfl

/-- The fixed header and the cookie, all there and each field usable. -/
structure WellFormedHeader (buf : Bytes) : Prop where
  whole : 240 ≤ buf.length
  operation : UInt8.ofNat (numberAt buf 0 1) = opBootrequest ∨ UInt8.ofNat (numberAt buf 0 1) = opBootreply
  hardware : 1 ≤ (UInt8.ofNat (numberAt buf 2 1)).toNat ∧ (UInt8.ofNat (numberAt buf 2 1)).toNat ≤ maxHardwareLen
  cookie : slice buf 236 4 = magicCookie

section

variable {buf : Bytes}

theorem present_eq_none {field : String} {offset width : Nat} :
    present field offset width buf = none ↔ width ≤ buf.length - offset := by
  unfold present
  split
  · simp only [reduceCtorEq, false_iff]
    omega
  · simp only [true_iff]
    omega

theorem knownOperation_eq_none :
    knownOperation buf = none ↔ UInt8.ofNat (numberAt buf 0 1) = opBootrequest ∨
      UInt8.ofNat (numberAt buf 0 1) = opBootreply := by
  simp only [knownOperation, ite_eq_right_iff, reduceCtorEq, imp_false, not_and_or, not_not]

theorem usableHardwareLength_eq_none :
    usableHardwareLength buf = none ↔ 1 ≤ (UInt8.ofNat (numberAt buf 2 1)).toNat ∧
      (UInt8.ofNat (numberAt buf 2 1)).toNat ≤ maxHardwareLen := by
  simp only [usableHardwareLength, ite_eq_right_iff, reduceCtorEq, imp_false, not_or, Nat.not_lt,
    ← UInt8.toNat_inj, Nat.one_le_iff_ne_zero]
  rfl

theorem rightCookie_eq_none : rightCookie buf = none ↔ slice buf 236 4 = magicCookie := by
  simp [rightCookie]

theorem firstViolation_eq_none : firstViolation readingOrder buf = none ↔ WellFormedHeader buf := by
  simp only [firstViolation, readingOrder, openingChecks, addressChecks, closingChecks, List.cons_append,
    List.nil_append, List.findSome?_eq_none_iff, List.forall_mem_cons, present_eq_none,
    knownOperation_eq_none, usableHardwareLength_eq_none, rightCookie_eq_none]
  constructor
  · rintro ⟨_, known, _, _, _, _, _, _, _, _, _, _, usable, _, _, _, cookie, right, _⟩
    exact ⟨by omega, known, usable, right⟩
  · intro header
    have whole := header.whole
    simp only [header.operation, header.hardware, header.cookie, List.not_mem_nil, false_imp_iff, implies_true,
      true_and, and_true]
    omega

end

/-- What the main area's fields select, by the one byte of option 52. -/
def overloadOf (main : List (UInt8 × Bytes)) : UInt8 :=
  match joinedUnder optionOverload main with
  | some [byte] => byte
  | _ => 0

def furtherAreas (buf : Bytes) (overload : UInt8) : List Bytes :=
  (if overload &&& 1 ≠ 0 then [slice buf 108 128] else []) ++
    if overload &&& 2 ≠ 0 then [slice buf 44 64] else []

/-- The fields of every area consulted: the main one, then `file`, then `sname`. -/
def OptionFields (buf : Bytes) (fields : List (UInt8 × Bytes)) : Prop :=
  ∃ main further, optionSyntax.Region (buf.drop 240) main ∧
    optionSyntax.Regions (furtherAreas buf (overloadOf main)) further ∧ fields = main ++ further

def OptionFault (buf : Bytes) (fault : FieldFault UInt8) : Prop :=
  optionSyntax.Broken (buf.drop 240) fault ∨
    ∃ main, optionSyntax.Region (buf.drop 240) main ∧
      optionSyntax.FirstBroken (furtherAreas buf (overloadOf main)) fault

theorem optionFields_or_fault (buf : Bytes) :
    (∃ fields, OptionFields buf fields) ∨ ∃ fault, OptionFault buf fault := by
  rcases optionSyntax.region_or_broken (buf.drop 240) with ⟨main, read⟩ | ⟨fault, broken⟩
  · rcases optionSyntax.regions_or_broken (furtherAreas buf (overloadOf main)) with
      ⟨further, later⟩ | ⟨fault, broken⟩
    · exact .inl ⟨_, main, further, read, later, rfl⟩
    · exact .inr ⟨fault, .inr ⟨main, read, broken⟩⟩
  · exact .inr ⟨fault, .inl broken⟩

def parseAreas (areas : List Bytes) (options : Options) : Except DecodeError Options :=
  areas.foldlM (fun options area => parseOptions area options) options

theorem parseAreas_further (buf : Bytes) (overload : UInt8) (opts : Options) :
    parseAreas (furtherAreas buf overload) opts =
      (furtherArea (overload &&& 1 ≠ 0) (slice buf 108 128) opts
        >>= furtherArea (overload &&& 2 ≠ 0) (slice buf 44 64)) := by
  unfold parseAreas furtherAreas furtherArea
  simp only [decide_eq_true_eq, List.foldlM_append]
  split
  · split
    · simp
    · exact bind_pure (parseOptions (slice buf 108 128) opts >>= pure)
  · split
    · exact bind_pure (parseOptions (slice buf 44 64) opts)
    · rfl

section

variable {areas : List Bytes} {fields : List (UInt8 × Bytes)}

theorem parseAreas_regions (read : optionSyntax.Regions areas fields) (opts : Options) :
    parseAreas areas opts = .ok (opts.appendAll fields) := by
  induction read generalizing opts with
  | done => rfl
  | next read _ ih =>
    unfold parseAreas at *
    rw [List.foldlM_cons, parseOptions_region read, ok_bind, ih, Options.appendAll, Options.appendAll,
      Options.appendAll, List.foldl_append]

theorem parseAreas_broken {fault : FieldFault UInt8} (broken : optionSyntax.FirstBroken areas fault)
    (opts : Options) : parseAreas areas opts = .error (.ofFault fault) := by
  induction broken generalizing opts with
  | here broken =>
    unfold parseAreas
    rw [List.foldlM_cons, parseOptions_broken broken]
    rfl
  | later read _ ih =>
    unfold parseAreas at *
    rw [List.foldlM_cons, parseOptions_region read, ok_bind, ih]

theorem overloadOf_of {opts : Options} (holds : opts.Of fields) :
    (opts.u8 optionOverload).getD 0 = overloadOf fields := by
  unfold Options.u8 overloadOf
  rw [holds]
  cases joinedUnder optionOverload fields with
  | none => rfl
  | some value =>
    match value with
    | [] => rfl
    | [byte] => rfl
    | _ :: _ :: _ => rfl

end

variable {buf : Bytes}

theorem decode_of_header (header : WellFormedHeader buf) : Message.decode buf =
      ((parseOptions (buf.drop 240) ∅).bind fun main =>
        parseAreas (furtherAreas buf ((main.u8 optionOverload).getD 0)) main).map (headerMessage buf) := by
  have main := decodeMain_judges buf
  unfold Judges at main
  rw [firstViolation_eq_none.mpr header, List.drop_zero] at main
  rw [Message.decode_eq, main]
  cases parseOptions (buf.drop 240) ∅ with
  | error error => rfl
  | ok opts =>
    change Except.map _ (furtherArea _ (slice buf 108 128) opts >>= furtherArea _ (slice buf 44 64)) = _
    rw [← parseAreas_further]
    rfl

theorem decode_of_violation {error : DecodeError} (violation : firstViolation readingOrder buf = some error) :
    Message.decode buf = .error error := by
  have main := decodeMain_judges buf
  unfold Judges at main
  rw [violation, List.drop_zero] at main
  rw [Message.decode_eq, main]

theorem decode_of_fields (header : WellFormedHeader buf) (read : OptionFields buf fields) :
    Message.decode buf = .ok (headerMessage buf (Options.appendAll ∅ fields)) := by
  obtain ⟨main, further, region, regions, rfl⟩ := read
  have selected := overloadOf_of (Options.of_empty.appendAll main)
  rw [List.nil_append] at selected
  rw [decode_of_header header, parseOptions_region region]
  simp only [Except.bind, selected, parseAreas_regions regions]
  rw [Except.map, Options.appendAll, Options.appendAll, Options.appendAll, List.foldl_append]

theorem decode_of_fault {fault : FieldFault UInt8} (header : WellFormedHeader buf) (faulty : OptionFault buf fault) :
    Message.decode buf = .error (.ofFault fault) := by
  rw [decode_of_header header]
  rcases faulty with broken | ⟨main, region, broken⟩
  · rw [parseOptions_broken broken]
    rfl
  · have selected := overloadOf_of (Options.of_empty.appendAll main)
    rw [List.nil_append] at selected
    rw [parseOptions_region region]
    simp only [Except.bind, selected, parseAreas_broken broken]
    rfl

/-- What decoding a buffer amounts to, faults of the header being told in this order. -/
structure Decodes (order : List Check) (buf : Bytes) : Prop where
  accepts : (∃ message, Message.decode buf = .ok message) ↔
    WellFormedHeader buf ∧ ∃ fields, OptionFields buf fields
  carries : ∀ message, Message.decode buf = .ok message →
    message = headerMessage buf message.options ∧
      ∀ fields, OptionFields buf fields → ∀ code : UInt8, message.options[code]? = joinedUnder code fields
  refuses : ∀ error, Message.decode buf = .error error ↔
    firstViolation order buf = some error ∨
      firstViolation order buf = none ∧ ∃ fault, OptionFault buf fault ∧ error = .ofFault fault
  /-- No reader asks for bytes beyond the end of what it reads. -/
  reads : (Cursor.decode buf).1 = Message.decode buf ∧ ∀ cursor ∈ (Cursor.decode buf).2, cursor.Within

/-- Of all byte strings: which decode, to what, and with which error the others fail. -/
theorem decode_judged (buf : Bytes) : Decodes readingOrder buf := by
  have reads := Cursor.decode_spec buf
  cases judged : firstViolation readingOrder buf with
  | some error =>
    have refused := decode_of_violation judged
    have faulty : ¬ WellFormedHeader buf := by
      rw [← firstViolation_eq_none, judged]
      nofun
    refine ⟨?_, ?_, ?_, reads⟩
    · simp [refused, faulty]
    · simp [refused]
    · simp [refused, judged]
  | none =>
    have header := firstViolation_eq_none.mp judged
    rcases optionFields_or_fault buf with ⟨fields, read⟩ | ⟨fault, faulty⟩
    · have decoded := decode_of_fields header read
      refine ⟨?_, ?_, ?_, reads⟩
      · exact ⟨fun _ => ⟨header, fields, read⟩, fun _ => ⟨_, decoded⟩⟩
      · intro message accepted
        refine ⟨?_, fun other readOther code => ?_⟩
        · rw [decoded] at accepted
          cases accepted
          rfl
        · rw [decode_of_fields header readOther] at accepted
          cases accepted
          have holds := Options.of_empty.appendAll other code
          rwa [List.nil_append] at holds
      · intro error
        rw [judged, decoded]
        refine ⟨nofun, fun refused => ?_⟩
        obtain ⟨_, fault, faulty, _⟩ := refused.resolve_left nofun
        rw [decode_of_fault header faulty] at decoded
        cases decoded
    · have refused := decode_of_fault header faulty
      refine ⟨?_, ?_, ?_, reads⟩
      · refine ⟨fun ⟨_, accepted⟩ => ?_, fun ⟨_, fields, read⟩ => ⟨_, decode_of_fields header read⟩⟩
        rw [refused] at accepted
        cases accepted
      · intro message accepted
        rw [refused] at accepted
        cases accepted
      · intro error
        constructor
        · intro same
          rw [refused] at same
          cases same
          exact .inr ⟨judged, fault, faulty, rfl⟩
        · intro told
          obtain ⟨_, other, otherFaulty, rfl⟩ := told.resolve_left (by rw [judged]; nofun)
          exact decode_of_fault header otherFaulty

/-- A cut packet with a hardware length of zero is refused for what it lacks after that byte. -/
theorem decode_not_wireOrder : ¬ Decodes wireOrder [1, 1, 0] := by
  intro decodes
  have refused : Message.decode [1, 1, 0] = .error (.tooShort "hops" 1 0) := decode_of_violation (by decide)
  rcases (decodes.refuses _).mp refused with told | ⟨none, _⟩
  · cases told
  · cases none

end NexTerminal.Dhcp
