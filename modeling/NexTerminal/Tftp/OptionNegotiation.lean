import NexTerminal.Tftp.PacketRoundTrip
import NexTerminal.Tftp.Session

namespace NexTerminal.Tftp

open Library
open Dhcp (Text trim isWhitespace digitValue)

/-- Numbers for the options that were answered, the protocol's defaults for the others. -/
def clientOptions (options : RawOptions) : Except ProtocolError ValidatedOptions := do
  let blksize ← negotiated options.blksize defaultBlockSize (parseOptionValue "blksize")
  let windowsize ← negotiated options.windowsize defaultWindowSize (parseOptionValue "windowsize")
  let timeout ← negotiated options.timeout none fun value => some <$> parseOptionValue "timeout" value
  let tsize ← negotiated options.tsize none fun value => some <$> parseOptionValue "tsize" value
  return { blksize := blksize, windowsize := windowsize, timeout := timeout, tsize := tsize }

/-- The options of the OACK a client was answered with, if it was one. -/
def clientReads (packets : List Bytes) : Except ProtocolError RawOptions :=
  match packets with
  | [] => .ok {}
  | packet :: _ => do
    match ← parse packet with
    | some (.oack options) => return options
    | _ => return {}

def RawOptions.names (options : RawOptions) : List Text := options.pairs.map Prod.fst

/-- A session as its request opens it, with what is sent first. -/
def opened (init : TransferInit) (now : Nat) (fileSize : UInt64) : TransferSession × List Bytes :=
  match init.direction with
  | .read => (TransferSession.new init now).initForRead fileSize.toNat
  | .write => (TransferSession.new init now).initForWrite

theorem trim_digits (n : Nat) : trim (Nat.toDigits 10 n) = Nat.toDigits 10 n := by
  have ink : ∀ c ∈ Nat.toDigits 10 n, isWhitespace c = false := by
    intro c mem
    have digit := Nat.isDigit_of_mem_toDigits (by decide) (by decide) mem
    simp only [Char.isDigit, Bool.and_eq_true, decide_eq_true_eq] at digit
    change 0x30 ≤ c.toNat ∧ c.toNat ≤ 0x39 at digit
    simp only [isWhitespace, Bool.or_eq_false_iff, Bool.and_eq_false_iff, decide_eq_false_iff_not,
      beq_eq_false_iff_ne]
    omega
  have bare : Bare isWhitespace (Nat.toDigits 10 n) :=
    ⟨fun c first => ink c (List.mem_of_head? first), fun c last => ink c (List.mem_of_getLast? last)⟩
  exact trimWith_bare bare

theorem parseOptionValue_digits (name : String) {n : Nat} (small : n ≤ u64Max) :
    parseOptionValue name (Nat.toDigits 10 n) = .ok n := by
  have ne : (Nat.toDigits 10 n).isEmpty = false := by
    have positive : 0 < (Nat.toDigits 10 n).length := Nat.length_toDigits_pos
    rw [List.isEmpty_eq_false_iff]
    exact List.ne_nil_of_length_pos positive
  have digits : (Nat.toDigits 10 n).all Char.isDigit = true :=
    List.all_eq_true.mpr fun c mem => Nat.isDigit_of_mem_toDigits (by decide) (by decide) mem
  have value : (Nat.toDigits 10 n).foldl (fun n c => n * 10 + digitValue c) 0 = n := by
    have read := Nat.ofDigitChars_toDigits (b := 10) (n := n) (by decide) (by decide)
    rw [Nat.ofDigitChars_eq_foldl] at read
    simpa only [Nat.mul_comm 10, digitValue] using read
  rw [parseOptionValue]
  rw [trim_digits, ne, digits, value, if_neg]
  simpa using small

structure ValidatedOptions.InRange (opts : ValidatedOptions) : Prop where
  blksize : opts.blksize ≤ blksizeMax
  windowsize : opts.windowsize ≤ maxWindow opts.blksize
  timeout : ∀ seconds ∈ opts.timeout, seconds ≤ timeoutMax
  tsize : ∀ size ∈ opts.tsize, size ≤ u64Max

theorem maxWindow_le (blksize : Nat) : maxWindow blksize ≤ windowsizeMax := by
  unfold maxWindow blockSpace windowsizeMax
  omega

theorem parseOptionValue_le {name : String} {raw : Text} {value : Nat}
    (parsed : parseOptionValue name raw = .ok value) : value ≤ u64Max := by
  unfold parseOptionValue at parsed
  dsimp only at parsed
  split at parsed
  · cases parsed
  · next ok =>
    cases parsed
    simp only [Bool.or_eq_true, decide_eq_true_eq] at ok
    omega

theorem negotiated_some_le {raw : Option Text} {value : Option Nat} {bound : Nat}
    {parse : Text → Except ProtocolError Nat}
    (res : negotiated raw none (fun text => some <$> parse text) = .ok value)
    (small : ∀ text n, parse text = .ok n → n ≤ bound) : ∀ n ∈ value, n ≤ bound := by
  have reads : ∀ text (value : Option Nat), some <$> parse text = .ok value → ∀ n ∈ value, n ≤ bound := by
    intro text value read n mem
    cases parsed : parse text with
    | error msg =>
      rw [parsed] at read
      cases read
    | ok num =>
      rw [parsed] at read
      cases read
      cases mem
      exact small text n parsed
  exact negotiated_holds res nofun reads

variable {opts : ValidatedOptions} {raw : RawOptions}

theorem validateOptions_inRange (validated : validateOptions raw {} = .ok opts) : opts.InRange := by
  obtain ⟨blksize, first, rest⟩ := bind_eq_ok validated
  obtain ⟨timeout, second, rest⟩ := bind_eq_ok rest
  obtain ⟨tsize, third, rest⟩ := bind_eq_ok rest
  obtain ⟨windowsize, -, rest⟩ := bind_eq_ok rest
  cases rest
  have size : blksize ≤ blksizeMax :=
    @negotiated_holds _ (· ≤ blksizeMax) _ _ _ _ first (by decide)
      fun _ _ parsed => (parseBounded_bounds parsed).2
  have seconds := negotiated_some_le second fun _ _ parsed => (parseBounded_bounds parsed).2
  have total := negotiated_some_le third fun _ _ parsed => parseOptionValue_le parsed
  refine ⟨size, ?_, seconds, total⟩
  dsimp only
  split <;> omega

theorem clientOptions_validatedToRaw (range : opts.InRange) : clientOptions (validatedToRaw opts) = .ok opts := by
  obtain ⟨blksize, windowsize, timeout, tsize⟩ := opts
  have size : negotiated (validatedToRaw ⟨blksize, windowsize, timeout, tsize⟩).blksize defaultBlockSize
      (parseOptionValue "blksize") = .ok blksize := by
    have small : blksize ≤ u64Max := range.blksize.trans (by decide)
    unfold validatedToRaw
    dsimp only
    split
    · exact parseOptionValue_digits "blksize" small
    · next same => rw [negotiated, not_not.mp same]
  have window : negotiated (validatedToRaw ⟨blksize, windowsize, timeout, tsize⟩).windowsize defaultWindowSize
      (parseOptionValue "windowsize") = .ok windowsize := by
    have small : windowsize ≤ u64Max := (range.windowsize.trans (maxWindow_le blksize)).trans (by decide)
    unfold validatedToRaw
    dsimp only
    split
    · exact parseOptionValue_digits "windowsize" small
    · next same => rw [negotiated, not_not.mp same]
  have optional : ∀ (name : String) (value : Option Nat), (∀ n ∈ value, n ≤ u64Max) →
      negotiated (value.map (Nat.toDigits 10)) none (fun text => some <$> parseOptionValue name text) =
        .ok value := by
    intro name value small
    cases value with
    | none => rfl
    | some n =>
      rw [Option.map_some, negotiated, parseOptionValue_digits name (small n rfl)]
      rfl
  have seconds := optional "timeout" timeout fun n mem => (range.timeout n mem).trans (by decide)
  have total := optional "tsize" tsize range.tsize
  unfold clientOptions
  rw [size, window, ok_bind, ok_bind]
  change (negotiated (timeout.map (Nat.toDigits 10)) none _ >>= _) = _
  rw [seconds, ok_bind]
  change (negotiated (tsize.map (Nat.toDigits 10)) none _ >>= _) = _
  rw [total, ok_bind]
  rfl

theorem digits_nonempty (n : Nat) : Nat.toDigits 10 n ≠ [] := List.ne_nil_of_length_pos Nat.length_toDigits_pos

theorem digits_plain (n : Nat) : '\x00' ∉ Nat.toDigits 10 n := fun mem =>
  absurd (Nat.isDigit_of_mem_toDigits (by decide) (by decide) mem) (by decide)

theorem validatedToRaw_values (opts : ValidatedOptions) :
    ∀ pair ∈ (validatedToRaw opts).pairs, ∃ n, pair.2 = Nat.toDigits 10 n := by
  intro pair mem
  obtain ⟨entry, listed, shown⟩ := List.mem_filterMap.mp mem
  simp only [List.mem_cons, List.not_mem_nil, or_false] at listed
  obtain ⟨value, present, rfl⟩ := Option.map_eq_some_iff.mp shown
  rcases listed with rfl | rfl | rfl | rfl
  · exact ⟨opts.blksize, by simp_all [validatedToRaw]⟩
  · obtain ⟨n, -, same⟩ := Option.map_eq_some_iff.mp present
    exact ⟨n, same.symm⟩
  · obtain ⟨n, -, same⟩ := Option.map_eq_some_iff.mp present
    exact ⟨n, same.symm⟩
  · exact ⟨opts.windowsize, by simp_all [validatedToRaw]⟩

theorem clientReads_oack (opts : ValidatedOptions) :
    clientReads [encodeOack (validatedToRaw opts)] = .ok (validatedToRaw opts) := by
  have plain : (Sendable.oack (validatedToRaw opts)).Plain := by
    intro pair mem
    obtain ⟨n, same⟩ := validatedToRaw_values opts pair mem
    rw [same]
    exact digits_plain n
  have filled : (Sendable.oack (validatedToRaw opts)).Bounded := by
    intro pair last
    obtain ⟨n, same⟩ := validatedToRaw_values opts pair (List.mem_of_getLast? last)
    rw [same]
    exact digits_nonempty n
  have read : parse (encodeOack (validatedToRaw opts)) = .ok (some (.oack (validatedToRaw opts))) :=
    parse_encode plain filled
  rw [clientReads, read]
  rfl

theorem isEmpty_eq_true {opts : RawOptions} (empty : opts.isEmpty = true) : opts = {} := by
  obtain ⟨blksize, timeout, tsize, windowsize⟩ := opts
  simp_all [RawOptions.isEmpty]

theorem names_subset {answer req : RawOptions} (blksize : answer.blksize.isSome → req.blksize.isSome)
    (timeout : answer.timeout.isSome → req.timeout.isSome) (tsize : answer.tsize.isSome → req.tsize.isSome)
    (windowsize : answer.windowsize.isSome → req.windowsize.isSome) : answer.names ⊆ req.names := by
  have listed : ∀ (name : Text) (value : Option Text), value.isSome →
      (name, value) ∈ [("blksize".toList, req.blksize), ("timeout".toList, req.timeout),
        ("tsize".toList, req.tsize), ("windowsize".toList, req.windowsize)] →
      name ∈ req.names := by
    intro name value present mem
    obtain ⟨text, rfl⟩ := Option.isSome_iff_exists.mp present
    exact List.mem_map.mpr ⟨(name, text), List.mem_filterMap.mpr ⟨(name, some text), mem, rfl⟩, rfl⟩
  intro name mem
  obtain ⟨pair, paired, rfl⟩ := List.mem_map.mp mem
  obtain ⟨entry, known, shown⟩ := List.mem_filterMap.mp paired
  obtain ⟨value, present, rfl⟩ := Option.map_eq_some_iff.mp shown
  have filled : entry.2.isSome := Option.isSome_of_mem present
  simp only [List.mem_cons, List.not_mem_nil, or_false] at known
  rcases known with rfl | rfl | rfl | rfl
  · exact listed _ _ (blksize filled) (by simp)
  · exact listed _ _ (timeout filled) (by simp)
  · exact listed _ _ (tsize filled) (by simp)
  · exact listed _ _ (windowsize filled) (by simp)

theorem validateOptions_echoes (validated : validateOptions raw {} = .ok opts) :
    (opts.blksize ≠ defaultBlockSize → raw.blksize.isSome) ∧ (opts.timeout.isSome → raw.timeout.isSome) ∧
      (opts.tsize.isSome → raw.tsize.isSome) ∧
      (opts.windowsize ≠ defaultWindowSize → raw.windowsize.isSome) := by
  obtain ⟨blksize, first, rest⟩ := bind_eq_ok validated
  obtain ⟨timeout, second, rest⟩ := bind_eq_ok rest
  obtain ⟨tsize, third, rest⟩ := bind_eq_ok rest
  obtain ⟨windowsize, fourth, rest⟩ := bind_eq_ok rest
  cases rest
  have kept : ∀ {α : Type} {text : Option Text} {default value : α} {parse : Text → Except ProtocolError α},
      negotiated text default parse = .ok value → value ≠ default → text.isSome := by
    intro α text default value parse res ne
    cases text with
    | none =>
      cases res
      exact absurd rfl ne
    | some text => rfl
  refine ⟨kept first, fun present => kept second ?_, fun present => kept third ?_, fun ne => kept fourth ?_⟩
  · exact Option.isSome_iff_ne_none.mp present
  · exact Option.isSome_iff_ne_none.mp present
  · -- the default window is within every budget
    rintro rfl
    have clamp := maxWindow_bounds blksize
    refine ne (if_neg ?_)
    change ¬ defaultWindowSize > maxWindow blksize
    unfold defaultWindowSize
    omega

theorem maxWindow_budget {blksize windowsize : Nat} (clamped : windowsize ≤ maxWindow blksize) :
    blksize * windowsize ≤ max maxInFlightBytes blksize := by
  rcases le_max_iff.mp clamped with one | budget
  · calc blksize * windowsize ≤ blksize * 1 := Nat.mul_le_mul_left blksize one
      _ ≤ max maxInFlightBytes blksize := (Nat.mul_one blksize).trans_le (le_max_right _ _)
  · calc blksize * windowsize
        ≤ blksize * (maxInFlightBytes / blksize) := Nat.mul_le_mul_left blksize (le_min_iff.mp budget).1
      _ ≤ maxInFlightBytes := Nat.mul_div_le maxInFlightBytes blksize
      _ ≤ max maxInFlightBytes blksize := le_max_left _ _

/-- What a client makes of the answer is what the session runs with. -/
structure Agreement (request : RawOptions) (accepted : ValidatedOptions) (fileSize : Nat) (session : TransferSession)
    (packets : List Bytes) : Prop where
  effective : (clientReads packets >>= clientOptions) = .ok session.opts
  seconds : session.timeout = (session.opts.timeout.map (· * 1000)).getD defaultTimeout
  echoed : ∀ answer, clientReads packets = .ok answer → answer.names ⊆ request.names
  halfSpace : session.opts.windowsize < 32768
  budget : session.opts.blksize * session.opts.windowsize ≤ max (1024 * 1024) session.opts.blksize
  /-- The size announced for an upload is the one its progress is measured against. -/
  upload : session.direction = .write → session.totalBytes = session.opts.tsize
  /-- A download that asks for the size is told the size of the file; a size that it names itself is
  echoed, and is the file's only where it happens to be right. -/
  download : session.direction = .read → session.totalBytes = some fileSize ∧
    (session.opts.tsize = session.totalBytes ↔ accepted.tsize = some 0 ∨ accepted.tsize = some fileSize) ∧
      (accepted.tsize ≠ some 0 → session.opts.tsize = accepted.tsize)

theorem new_accepted {init : TransferInit} (ok : validateOptions init.rawOptions {} = .ok opts) (now : Nat) :
    (TransferSession.new init now).opts = opts ∧
      (TransferSession.new init now).timeout = (opts.timeout.map (· * 1000)).getD defaultTimeout := by
  unfold TransferSession.new
  rw [ok]
  obtain ⟨-, -, timeout, -⟩ := opts
  cases timeout with
  | none | some seconds => exact ⟨rfl, rfl⟩

theorem clientReads_answer {packets : List Bytes}
    (bare : (validatedToRaw opts).isEmpty → clientReads packets = .ok {})
    (echo : ¬ (validatedToRaw opts).isEmpty → packets = [encodeOack (validatedToRaw opts)]) :
    clientReads packets = .ok (validatedToRaw opts) := by
  by_cases empty : (validatedToRaw opts).isEmpty = true
  · rw [bare empty, isEmpty_eq_true empty]
  · rw [echo empty, clientReads_oack]

/-- The options of a read, with the size of the file where it was asked for. -/
def ValidatedOptions.measured (opts : ValidatedOptions) (fileSize : Nat) : ValidatedOptions :=
  { opts with tsize := if opts.tsize = some 0 then some fileSize else opts.tsize }

theorem initForRead_opens (session : TransferSession) (fileSize : Nat) :
    (session.initForRead fileSize).1.opts = session.opts.measured fileSize ∧
      (session.initForRead fileSize).1.timeout = session.timeout ∧
      (session.initForRead fileSize).1.direction = session.direction ∧
      (session.initForRead fileSize).1.fileSize = fileSize ∧
      clientReads (session.initForRead fileSize).2 = .ok (validatedToRaw (session.opts.measured fileSize)) := by
  unfold TransferSession.initForRead ValidatedOptions.measured
  dsimp only
  generalize (if session.opts.tsize = some 0 then some fileSize else session.opts.tsize) = size
  split
  · next empty => exact ⟨rfl, rfl, rfl, rfl, clientReads_answer (fun _ => rfl) fun echo => absurd empty echo⟩
  · next echo => exact ⟨rfl, rfl, rfl, rfl, clientReads_answer (fun empty => absurd empty echo) fun _ => rfl⟩

theorem initForWrite_opens (session : TransferSession) :
    session.initForWrite.1.opts = session.opts ∧ session.initForWrite.1.timeout = session.timeout ∧
      session.initForWrite.1.direction = session.direction ∧
      session.initForWrite.1.tsizeAtStart = session.opts.tsize ∧
      clientReads session.initForWrite.2 = .ok (validatedToRaw session.opts) := by
  unfold TransferSession.initForWrite
  dsimp only
  split
  · next empty =>
    refine ⟨rfl, rfl, rfl, rfl, clientReads_answer (fun _ => ?_) fun echo => absurd empty echo⟩
    rfl
  · next echo => exact ⟨rfl, rfl, rfl, rfl, clientReads_answer (fun empty => absurd empty echo) fun _ => rfl⟩

theorem InRange_measured (range : opts.InRange) (fileSize : UInt64) : (opts.measured fileSize.toNat).InRange := by
  refine ⟨range.blksize, range.windowsize, range.timeout, fun size mem => ?_⟩
  unfold ValidatedOptions.measured at mem
  split at mem
  · cases mem
    exact Nat.le_of_lt_succ fileSize.toNat_lt
  · exact range.tsize size mem

theorem answer_names (validated : validateOptions raw {} = .ok opts) {effective : ValidatedOptions}
    (blksize : effective.blksize = opts.blksize) (windowsize : effective.windowsize = opts.windowsize)
    (timeout : effective.timeout = opts.timeout) (tsize : effective.tsize.isSome → opts.tsize.isSome) :
    (validatedToRaw effective).names ⊆ raw.names := by
  obtain ⟨first, second, third, fourth⟩ := validateOptions_echoes validated
  refine names_subset (fun shown => first ?_) (fun shown => second ?_) (fun shown => third (tsize ?_))
    fun shown => fourth ?_
  · rintro same
    simp [validatedToRaw, blksize, same] at shown
  · rwa [validatedToRaw, Option.isSome_map, timeout] at shown
  · rwa [validatedToRaw, Option.isSome_map] at shown
  · rintro same
    simp [validatedToRaw, windowsize, same] at shown

/-- Every accepted request opens with an agreement, also where its window had to be lowered. -/
theorem opened_agrees {init : TransferInit} {opts : ValidatedOptions}
    (accepted : validateOptions init.rawOptions {} = .ok opts) (now : Nat) (fileSize : UInt64) :
    Agreement init.rawOptions opts fileSize.toNat (opened init now fileSize).1 (opened init now fileSize).2 := by
  have range := validateOptions_inRange accepted
  have usable := validateOptions_usable accepted
  obtain ⟨same, seconds⟩ := new_accepted accepted now
  cases way : init.direction with
  | read =>
    obtain ⟨settled, timeout, direction, file, answer⟩ :=
      initForRead_opens (TransferSession.new init now) fileSize.toNat
    rw [same] at settled answer
    rw [new_direction, way] at direction
    have opening : opened init now fileSize = (TransferSession.new init now).initForRead fileSize.toNat := by
      rw [opened, way]
    rw [opening]
    refine ⟨?_, ?_, ?_, ?_, ?_, ?_, ?_⟩
    · rw [answer, ok_bind, settled, clientOptions_validatedToRaw (InRange_measured range fileSize)]
    · rw [timeout, seconds, settled]
      rfl
    · rintro options read
      rw [answer] at read
      cases read
      refine answer_names accepted rfl rfl rfl fun present => ?_
      unfold ValidatedOptions.measured at present
      split at present
      · next zero => rw [zero]; rfl
      · exact present
    · rw [settled]
      exact usable.halfSpace
    · rw [settled]
      exact maxWindow_budget range.windowsize
    · rw [direction]
      nofun
    · intro _
      have total : ((TransferSession.new init now).initForRead fileSize.toNat).1.totalBytes = some fileSize.toNat := by
        rw [TransferSession.totalBytes, direction, file]
      refine ⟨total, ?_, fun named => ?_⟩
      · rw [settled, total, ValidatedOptions.measured]
        dsimp only
        split_ifs with asked
        · exact iff_of_true rfl (.inl asked)
        · exact (or_iff_right asked).symm
      · rw [settled, ValidatedOptions.measured, if_neg named]
  | write =>
    obtain ⟨settled, timeout, direction, total, answer⟩ := initForWrite_opens (TransferSession.new init now)
    rw [same] at settled answer total
    rw [new_direction, way] at direction
    have opening : opened init now fileSize = (TransferSession.new init now).initForWrite := by
      rw [opened, way]
    rw [opening]
    refine ⟨?_, ?_, ?_, ?_, ?_, ?_, ?_⟩
    · rw [answer, ok_bind, settled, clientOptions_validatedToRaw range]
    · rw [timeout, seconds, settled]
    · rintro options read
      rw [answer] at read
      cases read
      exact answer_names accepted rfl rfl rfl id
    · rw [settled]
      exact usable.halfSpace
    · rw [settled]
      exact maxWindow_budget range.windowsize
    · intro _
      rw [TransferSession.totalBytes, direction, total, settled]
    · rw [direction]
      nofun

def wideRead : TransferInit where
  peer := { ip := ['c'], port := 2000 }
  direction := .read
  filename := ['f']
  absPath := ['f']
  rawOptions := { blksize := some "65464".toList, windowsize := some "65535".toList, tsize := some ['0'] }

theorem opened_agrees_wideRead :
    Agreement wideRead.rawOptions { blksize := 65464, windowsize := 16, tsize := some 0 } 7
      (opened wideRead 0 7).1 (opened wideRead 0 7).2 :=
  opened_agrees (by decide) 0 7

/-- A read that names a size of its own is told that size again, whatever the file's is. -/
theorem sized_read_echoed : ¬ ∀ (init : TransferInit) (opts read : ValidatedOptions) (fileSize : UInt64),
    validateOptions init.rawOptions {} = .ok opts → opts.tsize.isSome →
      (clientReads (opened init 0 fileSize).2 >>= clientOptions) = .ok read →
        read.tsize = (opened init 0 fileSize).1.totalBytes := by
  intro always
  let init : TransferInit := { wideRead with rawOptions := { tsize := some ['5'] } }
  have range : (ValidatedOptions.mk 512 1 none (some 5)).InRange := ⟨by decide, by decide, nofun, by simp [u64Max]⟩
  obtain ⟨-, -, -, -, answer⟩ := initForRead_opens (TransferSession.new init 0) 7
  have heard : (clientReads (opened init 0 7).2 >>= clientOptions) = .ok ⟨512, 1, none, some 5⟩ :=
    (congrArg (· >>= clientOptions) answer).trans (clientOptions_validatedToRaw range)
  have told := always init { tsize := some 5 } { tsize := some 5 } 7 (by decide) rfl heard
  exact absurd told (by decide)

end NexTerminal.Tftp
