import NexTerminal.Dhcp.LossyText
import NexTerminal.Library.Sequences
import NexTerminal.Tftp.Protocol

namespace NexTerminal.Tftp

open Library
open Dhcp (Text fromUtf8Lossy fromUtf8Lossy_encoded mem_utf8EncodeChar toNat_byte)

def TransferMode.asStr : TransferMode → String
  | .octet => "octet"

def writeOptionPairs (options : RawOptions) : Bytes :=
  options.pairs.flatMap fun pair => nulString pair.1 ++ nulString pair.2

def encodeRequest (opcode : Opcode) (filename mode : Text) (options : RawOptions) : Bytes :=
  u16Bytes opcode.toWire ++ nulString filename ++ nulString mode ++ writeOptionPairs options

def encodeRrq (filename mode : Text) (options : RawOptions) : Bytes := encodeRequest .rrq filename mode options

def encodeWrq (filename mode : Text) (options : RawOptions) : Bytes := encodeRequest .wrq filename mode options

theorem byteArray_toList_loop (bytes : ByteArray) (i : Nat) (done : Bytes) :
    ByteArray.toList.loop bytes i done = done.reverse ++ bytes.data.toList.drop i := by
  induction i, done using ByteArray.toList.loop.induct bytes with
  | case1 i done more ih =>
    have inside : i < bytes.data.toList.length := more
    have head : bytes.get! i = bytes.data.toList[i] := by
      simp [ByteArray.get!, more]
    rw [ByteArray.toList.loop, if_pos more, ih, List.drop_eq_getElem_cons inside, List.reverse_cons,
      List.append_assoc, head]
    rfl
  | case2 i done none =>
    have beyond : bytes.data.toList.length ≤ i := Nat.le_of_not_lt none
    rw [ByteArray.toList.loop, if_neg none, List.drop_eq_nil_of_le beyond, List.append_nil]

theorem utf8Bytes_eq (text : Text) : utf8Bytes text = text.flatMap String.utf8EncodeChar := by
  have whole : (String.ofList text).toUTF8 = (text.flatMap String.utf8EncodeChar).toByteArray :=
    String.toByteArray_ofList
  rw [utf8Bytes, ByteArray.toList, byteArray_toList_loop, whole, List.toList_data_toByteArray]
  rfl

theorem decodeField_utf8Bytes (text : Text) : decodeField (utf8Bytes text) = .ok text := by
  have array : (⟨(utf8Bytes text).toArray⟩ : ByteArray) = (String.ofList text).toByteArray := by
    apply ByteArray.ext
    apply Array.toList_inj.mp
    rw [String.toByteArray_ofList, List.utf8Encode, List.toList_data_toByteArray, utf8Bytes_eq]
  have valid := (String.ofList text).isValidUTF8
  have decoded : String.fromUTF8? (String.ofList text).toByteArray = some (String.ofList text) := by
    rw [String.fromUTF8?, dif_pos valid]
    rfl
  unfold decodeField
  rw [array, decoded]
  exact congrArg Except.ok (String.toList_ofList)

theorem notMem_utf8Bytes {text : Text} {n : Nat} (ascii : n < 128) (plain : Char.ofNat n ∉ text) :
    UInt8.ofNat n ∉ utf8Bytes text := by
  rw [utf8Bytes_eq, List.mem_flatMap]
  rintro ⟨c, mem, inside⟩
  have same : Char.ofNat n = c := by
    rw [← mem_utf8EncodeChar ascii inside, Char.ofNat_toNat]
  exact plain (same ▸ mem)

theorem zero_notMem_utf8Bytes {text : Text} (plain : '\x00' ∉ text) : (0 : UInt8) ∉ utf8Bytes text :=
  notMem_utf8Bytes (by decide) plain

theorem splitOn_nulStrings {tokens : List Text} (plain : ∀ token ∈ tokens, '\x00' ∉ token) :
    (tokens.flatMap nulString).splitOn 0 = tokens.map utf8Bytes ++ [[]] := by
  induction tokens with
  | nil => rfl
  | cons token rest ih =>
    have later := ih fun other mem => plain other (List.mem_cons_of_mem _ mem)
    rw [List.flatMap_cons, nulString, List.append_assoc,
      splitOn_append_of_notMem (zero_notMem_utf8Bytes (plain token List.mem_cons_self)), List.singleton_append,
      List.splitOn_cons_eq_if_modifyHead, if_pos (by decide), later, List.modifyHead_cons, List.append_nil]
    rfl

theorem mapM_decodeField (tokens : List Text) : (tokens.map utf8Bytes).mapM decodeField = .ok tokens := by
  induction tokens with
  | nil => rfl
  | cons token rest ih =>
    rw [List.map_cons, List.mapM_cons, decodeField_utf8Bytes, ok_bind, ih]
    rfl

theorem splitNulStrings_flatMap {tokens : List Text} (plain : ∀ token ∈ tokens, '\x00' ∉ token) :
    splitNulStrings (tokens.flatMap nulString) = .ok (dropLastIfEmpty tokens) := by
  have trailing : dropLastIfEmpty (tokens.map utf8Bytes ++ [[]]) = tokens.map utf8Bytes := by
    rw [dropLastIfEmpty, List.getLast?_concat, List.dropLast_concat]
    rfl
  rw [splitNulStrings, splitOn_nulStrings plain, trailing, mapM_decodeField]
  rfl

/-- The last of some strings, if there is one, is not empty. -/
def EndsFilled (tokens : List Text) : Prop := ∀ token ∈ tokens.getLast?, token ≠ []

theorem dropLastIfEmpty_filled {tokens : List Text} (filled : EndsFilled tokens) : dropLastIfEmpty tokens = tokens := by
  unfold dropLastIfEmpty
  rw [if_neg]
  cases last : tokens.getLast? with
  | none => simp
  | some token => simpa using filled token last

namespace RawOptions

/-- The keys and values of the options as they stand between NULs. -/
def tokens (options : RawOptions) : List Text := options.pairs.flatMap fun pair => [pair.1, pair.2]

def Plain (options : RawOptions) : Prop := ∀ pair ∈ options.pairs, '\x00' ∉ pair.2

def LastFilled (options : RawOptions) : Prop := ∀ pair ∈ options.pairs.getLast?, pair.2 ≠ []

instance (options : RawOptions) : Decidable options.Plain :=
  inferInstanceAs (Decidable (∀ pair ∈ options.pairs, '\x00' ∉ pair.2))

instance (options : RawOptions) : Decidable options.LastFilled :=
  inferInstanceAs (Decidable (∀ pair ∈ options.pairs.getLast?, pair.2 ≠ []))

variable (options : RawOptions) (value : Text)

theorem set_blksize : options.set "blksize".toList value = { options with blksize := some value } := by
  simp [RawOptions.set]

theorem set_timeout : options.set "timeout".toList value = { options with timeout := some value } := by
  simp [RawOptions.set]

theorem set_tsize : options.set "tsize".toList value = { options with tsize := some value } := by
  simp [RawOptions.set]

theorem set_windowsize : options.set "windowsize".toList value = { options with windowsize := some value } := by
  simp [RawOptions.set]

theorem writeOptionPairs_eq : writeOptionPairs options = options.tokens.flatMap nulString := by
  simp [writeOptionPairs, tokens, List.flatMap_assoc]

theorem collectOptions_tokens : collectOptions options.tokens = .ok options := by
  have even : ¬ options.tokens.length % 2 ≠ 0 := by
    have twice : options.tokens.length = 2 * options.pairs.length := by
      simp [tokens, Nat.mul_comm]
    omega
  have collected : collectPairs {} options.tokens = options := by
    obtain ⟨blksize, timeout, tsize, windowsize⟩ := options
    rcases blksize with _ | - <;> rcases timeout with _ | - <;> rcases tsize with _ | - <;>
      rcases windowsize with _ | - <;>
      simp only [tokens, pairs, List.filterMap_cons, List.filterMap_nil, Option.map_none, Option.map_some,
        List.flatMap_cons, List.flatMap_nil, List.cons_append, List.nil_append, collectPairs, set_blksize,
        set_timeout, set_tsize, set_windowsize]
  rw [collectOptions, if_neg even, collected]

variable {options}

theorem keys_plain : ∀ pair ∈ options.pairs, '\x00' ∉ pair.1 := by
  intro pair mem
  obtain ⟨entry, known, given⟩ := List.mem_filterMap.mp mem
  obtain ⟨-, _, rfl⟩ := Option.map_eq_some_iff.mp given
  simp only [List.mem_cons, List.not_mem_nil, or_false] at known
  rcases known with rfl | rfl | rfl | rfl
  · exact (by decide : '\x00' ∉ "blksize".toList)
  · exact (by decide : '\x00' ∉ "timeout".toList)
  · exact (by decide : '\x00' ∉ "tsize".toList)
  · exact (by decide : '\x00' ∉ "windowsize".toList)

theorem Plain.tokens (plain : options.Plain) : ∀ token ∈ options.tokens, '\x00' ∉ token := by
  intro token mem
  obtain ⟨pair, inside, this⟩ := List.mem_flatMap.mp mem
  simp only [List.mem_cons, List.not_mem_nil, or_false] at this
  rcases this with rfl | rfl
  · exact keys_plain pair inside
  · exact plain pair inside

theorem LastFilled.endsFilled (filled : options.LastFilled) {pre : List Text} (first : EndsFilled pre) :
    EndsFilled (pre ++ options.tokens) := by
  intro token last
  unfold RawOptions.tokens at last
  cases shape : options.pairs.getLast? with
  | none =>
    rw [List.getLast?_eq_none_iff.mp shape, List.flatMap_nil, List.append_nil] at last
    exact first token last
  | some pair =>
    obtain ⟨earlier, whole⟩ := List.getLast?_eq_some_iff.mp shape
    have ending : pre ++ options.pairs.flatMap (fun pair => [pair.1, pair.2]) =
        (pre ++ (earlier.flatMap fun pair => [pair.1, pair.2]) ++ [pair.1]) ++ [pair.2] := by
      rw [whole, List.flatMap_append]
      simp
    rw [ending, List.getLast?_concat] at last
    cases last
    exact filled pair shape

end RawOptions

inductive Sendable
  | rrq (request : Request)
  | wrq (request : Request)
  | oack (options : RawOptions)
  | data (block : UInt16) (data : Bytes)
  | ack (block : UInt16)
  | error (code : ErrorCode) (message : Option String)

namespace Sendable

def encode : Sendable → Bytes
  | .rrq request => encodeRrq request.filename request.mode.asStr.toList request.options
  | .wrq request => encodeWrq request.filename request.mode.asStr.toList request.options
  | .oack options => encodeOack options
  | .data block bytes => encodeData block bytes
  | .ack block => encodeAck block
  | .error code message => encodeError code message

def value : Sendable → Packet
  | .rrq request => .rrq request
  | .wrq request => .wrq request
  | .oack options => .oack options
  | .data block bytes => .data block bytes
  | .ack block => .ack block
  | .error code message => .error code.toWire (message.getD code.defaultMessage).toList

def Plain : Sendable → Prop
  | .rrq request => request.filename ≠ [] ∧ '\x00' ∉ request.filename ∧ request.options.Plain
  | .wrq request => request.filename ≠ [] ∧ '\x00' ∉ request.filename ∧ request.options.Plain
  | .oack options => options.Plain
  | .error _ message => ∀ text ∈ message, '\x00' ∉ text.toList
  | .data _ _ => True
  | .ack _ => True

/-- File names within the limit, and a value for the last option. -/
def Bounded : Sendable → Prop
  | .rrq request => (utf8Bytes request.filename).length ≤ maxFilenameBytes ∧ request.options.LastFilled
  | .wrq request => (utf8Bytes request.filename).length ≤ maxFilenameBytes ∧ request.options.LastFilled
  | .oack options => options.LastFilled
  | .error _ _ => True
  | .data _ _ => True
  | .ack _ => True

end Sendable

/-- Parsing, with the decoding that replaces what is not text. -/
def parse (buf : Bytes) : Except ProtocolError (Option Packet) := parsePacket (fromUtf8Lossy none) buf

theorem encodeRequest_payload (opcode : Opcode) (filename mode : Text) (options : RawOptions) :
    encodeRequest opcode filename mode options =
      u16Bytes opcode.toWire ++ (filename :: mode :: options.tokens).flatMap nulString := by
  simp [encodeRequest, RawOptions.writeOptionPairs_eq]

theorem encodeOack_payload (options : RawOptions) :
    encodeOack options = u16Bytes Opcode.oack.toWire ++ options.tokens.flatMap nulString := by
  rw [← RawOptions.writeOptionPairs_eq]
  rfl

theorem octet_plain : '\x00' ∉ TransferMode.octet.asStr.toList := by decide

variable {options : RawOptions} {filename : Text}

theorem splitNulStrings_request (plain : '\x00' ∉ filename) (optionsPlain : options.Plain) :
    splitNulStrings ((filename :: TransferMode.octet.asStr.toList :: options.tokens).flatMap nulString) =
      .ok (dropLastIfEmpty (filename :: TransferMode.octet.asStr.toList :: options.tokens)) := by
  refine splitNulStrings_flatMap fun token member => ?_
  rcases List.mem_cons.mp member with rfl | member
  · exact plain
  rcases List.mem_cons.mp member with rfl | member
  · exact octet_plain
  · exact optionsPlain.tokens token member

theorem splitNulStrings_filled (plain : '\x00' ∉ filename) (optionsPlain : options.Plain)
    (filled : options.LastFilled) :
    splitNulStrings ((filename :: TransferMode.octet.asStr.toList :: options.tokens).flatMap nulString) =
      .ok (filename :: TransferMode.octet.asStr.toList :: options.tokens) := by
  have whole : EndsFilled ([filename, TransferMode.octet.asStr.toList] ++ options.tokens) :=
    filled.endsFilled fun token last => by
      have same : TransferMode.octet.asStr.toList = token := Option.some.inj last
      rw [← same]
      decide
  have split := splitNulStrings_request plain optionsPlain
  rwa [dropLastIfEmpty_filled (by exact whole)] at split

theorem parseRequest_encoded (named : filename ≠ []) (plain : '\x00' ∉ filename) (optionsPlain : options.Plain)
    (short : (utf8Bytes filename).length ≤ maxFilenameBytes) (filled : options.LastFilled) (label : String) :
    parseRequest ((filename :: TransferMode.octet.asStr.toList :: options.tokens).flatMap nulString) label =
      .ok { filename := filename, mode := .octet, options := options } := by
  have octet : String.ofList (TransferMode.octet.asStr.toList.map Char.toLower) = "octet" := by decide
  have name : filename.isEmpty = false := by simp [named]
  rw [parseRequest, splitNulStrings_filled plain optionsPlain filled, ok_bind]
  dsimp only
  rw [name, if_neg (by decide), if_neg (Nat.not_lt.mpr short), octet, if_pos rfl, RawOptions.collectOptions_tokens]
  rfl

theorem parseRequest_long (plain : '\x00' ∉ filename) (optionsPlain : options.Plain)
    (long : maxFilenameBytes < (utf8Bytes filename).length) (filled : options.LastFilled) (label : String) :
    parseRequest ((filename :: TransferMode.octet.asStr.toList :: options.tokens).flatMap nulString) label =
      .error s!"Filename exceeds {maxFilenameBytes} bytes" := by
  have name : filename.isEmpty = false := by
    cases filename with
    | nil => exact absurd long (by rw [utf8Bytes_eq]; decide)
    | cons c rest => rfl
  rw [parseRequest, splitNulStrings_filled plain optionsPlain filled, ok_bind]
  dsimp only
  rw [name, if_neg (by decide), if_pos long]

theorem parse_payload (opcode : Opcode) (payload : Bytes) :
    parse (u16Bytes opcode.toWire ++ payload) =
      match opcode with
      | .rrq => do return some (.rrq (← parseRequest payload "RRQ"))
      | .wrq => do return some (.wrq (← parseRequest payload "WRQ"))
      | .data => do
        let (block, rest) ← splitBlockNumber payload "DATA"
        return some (.data block rest)
      | .ack => do
        let (block, _) ← splitBlockNumber payload "ACK"
        return some (.ack block)
      | .error => do
        let (code, rest) ← splitBlockNumber payload "ERROR"
        return some (.error code (fromUtf8Lossy none (rest.takeWhile (· ≠ 0))))
      | .oack => do return some (.oack (← collectOptions (← splitNulStrings payload))) := by
  cases opcode <;> rfl

theorem splitBlockNumber_encoded (number : UInt16) (rest : Bytes) (label : String) :
    splitBlockNumber (u16Bytes number ++ rest) label = .ok (number, rest) := by
  have bound := number.toNat_lt
  have whole : u16FromBytes (.ofNat (number.toNat / 256)) (.ofNat (number.toNat % 256)) = number := by
    apply UInt16.toNat_inj.mp
    unfold u16FromBytes
    rw [UInt16.toNat_ofNat', UInt8.toNat_ofNat', UInt8.toNat_ofNat']
    omega
  exact congrArg (fun block => Except.ok (block, rest)) whole

theorem takeWhile_nulString {text : Text} (plain : '\x00' ∉ text) :
    (nulString text).takeWhile (· ≠ 0) = utf8Bytes text := by
  rw [nulString, List.takeWhile_append_of_pos]
  · simp
  · intro byte mem
    have nonzero : byte ≠ 0 := fun zero => zero_notMem_utf8Bytes plain (zero ▸ mem)
    simp [nonzero]

theorem defaultMessage_plain (code : ErrorCode) : '\x00' ∉ code.defaultMessage.toList := by
  cases code <;>
    rw [ErrorCode.defaultMessage, String.toList_ofList] <;> decide

/-- A packet whose strings fit reads back as it was sent. -/
theorem parse_encode {packet : Sendable} (plain : packet.Plain) (bounded : packet.Bounded) :
    parse packet.encode = .ok (some packet.value) := by
  cases packet with
  | rrq request =>
    obtain ⟨named, filename, options⟩ := plain
    rw [Sendable.encode, encodeRrq, encodeRequest_payload, parse_payload]
    rw [parseRequest_encoded named filename options bounded.1 bounded.2]
    rfl
  | wrq request =>
    obtain ⟨named, filename, options⟩ := plain
    rw [Sendable.encode, encodeWrq, encodeRequest_payload, parse_payload]
    dsimp only
    rw [parseRequest_encoded named filename options bounded.1 bounded.2]
    rfl
  | oack options =>
    have filled : EndsFilled ([] ++ options.tokens) := RawOptions.LastFilled.endsFilled bounded nofun
    have split := splitNulStrings_flatMap (RawOptions.Plain.tokens plain)
    rw [dropLastIfEmpty_filled (by exact filled)] at split
    rw [Sendable.encode, encodeOack_payload, parse_payload]
    rw [split, ok_bind, RawOptions.collectOptions_tokens]
    rfl
  | data block bytes =>
    rw [Sendable.encode, encodeData, List.append_assoc, parse_payload]
    rw [splitBlockNumber_encoded]
    rfl
  | ack block =>
    rw [Sendable.encode, encodeAck, ← List.append_nil (u16Bytes block), parse_payload]
    dsimp only
    rw [splitBlockNumber_encoded]
    rfl
  | error code message =>
    have text : '\x00' ∉ (message.getD code.defaultMessage).toList := by
      cases message with
      | none => exact defaultMessage_plain code
      | some text => exact plain text rfl
    rw [Sendable.encode, encodeError, List.append_assoc, parse_payload]
    dsimp only
    rw [splitBlockNumber_encoded, ok_bind]
    rw [takeWhile_nulString text, utf8Bytes_eq, fromUtf8Lossy_encoded]
    rfl

def emptyFirst : Sendable :=
  .rrq { filename := ['a'], mode := .octet, options := { blksize := some [], windowsize := some ['4'] } }

theorem parse_encode_emptyFirst : parse emptyFirst.encode = .ok (some emptyFirst.value) := by
  refine parse_encode ⟨by decide, by decide, by decide⟩ ⟨?_, by decide⟩
  rw [utf8Bytes_eq]
  decide

def longName : Sendable := .rrq { filename := List.replicate 1025 'a', mode := .octet, options := {} }

def emptyLast : Sendable := .rrq { filename := ['a'], mode := .octet, options := { blksize := some [] } }

/-- Neither reads back. -/
theorem parse_encode_fails :
    (longName.Plain ∧ parse longName.encode ≠ .ok (some longName.value)) ∧
      emptyLast.Plain ∧ parse emptyLast.encode ≠ .ok (some emptyLast.value) := by
  refine ⟨⟨?_, ?_⟩, ?_, ?_⟩
  · refine ⟨List.cons_ne_nil _ _, fun member => ?_, by decide⟩
    exact absurd (List.eq_of_mem_replicate member) (by decide)
  · have plain : '\x00' ∉ List.replicate 1025 'a' := fun member =>
      absurd (List.eq_of_mem_replicate member) (by decide)
    have long : maxFilenameBytes < (utf8Bytes (List.replicate 1025 'a')).length := by
      have one : (String.utf8EncodeChar 'a').length = 1 := by decide
      rw [utf8Bytes_eq, List.length_flatMap, List.map_replicate, one, List.sum_replicate_nat]
      decide
    rw [longName, Sendable.encode, encodeRrq, encodeRequest_payload, parse_payload]
    rw [parseRequest_long plain (by decide) long (by decide)]
    nofun
  · exact ⟨by decide, by decide, by decide⟩
  · have ends : dropLastIfEmpty (['a'] :: TransferMode.octet.asStr.toList ::
        ({ blksize := some [] } : RawOptions).tokens) = [['a'], "octet".toList, "blksize".toList] := by decide
    rw [emptyLast, Sendable.encode, encodeRrq, encodeRequest_payload, parse_payload]
    have short : ¬ (utf8Bytes ['a']).length > maxFilenameBytes := by
      rw [utf8Bytes_eq]
      decide
    rw [parseRequest, splitNulStrings_request (by decide) (by decide), ends, ok_bind]
    dsimp only
    rw [if_neg (by decide), if_neg short, if_pos (by decide)]
    nofun

end NexTerminal.Tftp
