import NexTerminal.Telnet.Wire

namespace NexTerminal.Telnet

/-- The carriage-return conversions on a whole stream: the `NUL` after a `CR` goes. -/
def nvt : List UInt8 → List UInt8
  | [] => []
  | [byte] => [byte]
  | first :: second :: rest => if first = CR ∧ second = NUL then CR :: nvt rest else first :: nvt (second :: rest)

theorem nvt_cons {byte : UInt8} (plain : byte ≠ CR) (rest : List UInt8) : nvt (byte :: rest) = byte :: nvt rest := by
  cases rest with
  | nil => rfl
  | cons second rest => rw [nvt, if_neg fun both => plain both.1]

theorem nvt_cr_cons {byte : UInt8} (plain : byte ≠ NUL) (rest : List UInt8) :
    nvt (CR :: byte :: rest) = CR :: nvt (byte :: rest) := by
  rw [nvt, if_neg fun both => plain both.2]

/-- What a server puts on the wire: application bytes, escaped, and between them
negotiations and subnegotiations. -/
inductive Piece
  | byte (value : UInt8)
  | negotiation (command : Command)
  | subnegotiation (option : UInt8) (payload : List UInt8)

namespace Piece

def wire : Piece → List UInt8
  | .byte value => pushEscaped value
  | .negotiation command => command.bytes
  | .subnegotiation option payload => [IAC, SB, option] ++ escapeIac payload ++ [IAC, SE]

def application : Piece → List UInt8
  | .byte value => [value]
  | _ => []

def Complete : Piece → Prop
  | .negotiation command => command.Negotiates
  | _ => True

/-- A subnegotiation that the parser has room for. -/
def Fits : Piece → Prop
  | .subnegotiation _ payload => payload.length ≤ MAX_SUBNEGOTIATION_BYTES
  | _ => True

end Piece

namespace TelnetNegotiator

variable {stance : Stance} {self : TelnetNegotiator}

def receiveChunks (stance : Stance) (self : TelnetNegotiator) : List (List UInt8) → TelnetNegotiator × Output
  | [] => (self, {})
  | chunk :: rest =>
    let (self, first) := self.receive stance chunk
    let (self, later) := self.receiveChunks stance rest
    (self, { data := first.data ++ later.data, response := first.response ++ later.response })

theorem receive_append (stance : Stance) (self : TelnetNegotiator) (bytes more : List UInt8) :
    self.receive stance (bytes ++ more) =
      let first := self.receive stance bytes
      let later := first.1.receive stance more
      (later.1, { data := first.2.data ++ later.2.data, response := first.2.response ++ later.2.response }) := by
  induction bytes generalizing self with
  | nil => rfl
  | cons byte rest ih =>
    rw [List.cons_append, receive, receive]
    dsimp only
    rw [ih]
    simp

theorem receiveChunks_flatten (stance : Stance) (self : TelnetNegotiator) (chunks : List (List UInt8)) :
    self.receiveChunks stance chunks = self.receive stance chunks.flatten := by
  induction chunks generalizing self with
  | nil => rfl
  | cons chunk rest ih =>
    rw [List.flatten_cons, receive_append, receiveChunks]
    dsimp only
    rw [ih]

def heldCr (self : TelnetNegotiator) : List UInt8 := if self.pendingCr then [CR] else []

theorem nvt_heldCr (self : TelnetNegotiator) : nvt self.heldCr = self.heldCr := by
  unfold heldCr
  split
  · rfl
  · rfl

theorem nvt_consumeDataByte (self : TelnetNegotiator) (byte : UInt8) (rest : List UInt8) :
    nvt (self.heldCr ++ byte :: rest) =
      (self.consumeDataByte byte).2 ++ nvt ((self.consumeDataByte byte).1.heldCr ++ rest) := by
  unfold consumeDataByte heldCr
  cases held : self.pendingCr with
  | true =>
    rw [if_pos rfl, if_pos rfl, List.singleton_append]
    by_cases null : byte = NUL
    · subst null
      rfl
    rw [if_neg null, nvt_cr_cons null]
    by_cases feed : byte = LF
    · subst feed
      rw [if_pos rfl, nvt_cons (by decide)]
      rfl
    rw [if_neg feed]
    by_cases bare : byte = CR
    · subst bare
      rfl
    · rw [if_neg bare, nvt_cons bare]
      rfl
  | false =>
    rw [if_neg Bool.false_ne_true, if_neg Bool.false_ne_true, List.nil_append]
    by_cases bare : byte = CR
    · subst bare
      rfl
    · rw [if_neg bare, nvt_cons bare]
      simp [held]

theorem receive_data (stance : Stance) (idle : self.state = .data) (byte : UInt8) :
    (self.receive stance (pushEscaped byte)).1 = (self.consumeDataByte byte).1 ∧
      (self.receive stance (pushEscaped byte)).2.data = (self.consumeDataByte byte).2 := by
  have same : { self with state := .data } = self := by rw [← idle]
  unfold pushEscaped
  split_ifs with escaped
  · subst escaped
    simp [receive, receiveByte, idle, same]
  · simp [receive, receiveByte, idle, escaped]

theorem answerNegotiation_frame (stance : Stance) (self : TelnetNegotiator) (verb opt : UInt8) :
    (self.answerNegotiation stance verb opt).1.state = self.state ∧
      (self.answerNegotiation stance verb opt).1.pendingCr = self.pendingCr ∧
      (self.answerNegotiation stance verb opt).1.sbPayload = self.sbPayload := by
  unfold answerNegotiation
  dsimp only
  split_ifs <;> exact ⟨rfl, rfl, rfl⟩

theorem receive_command (stance : Stance) (idle : self.state = .data) {verb opt : UInt8}
    (known : Command.Negotiates ⟨verb, opt⟩) :
    self.receive stance [IAC, verb, opt] =
      let (next, response) :=
        { self with pendingVerb := verb, state := .negotiate }.answerNegotiation stance verb opt
      ({ next with state := .data }, { response }) := by
  have ne : verb ≠ IAC ∧ verb ≠ SB := by rcases known with rfl | rfl | rfl | rfl <;> decide
  have named : verb = WILL ∨ verb = WONT ∨ verb = DO ∨ verb = DONT := known
  simp [receive, receiveByte, idle, ne, named]

theorem receive_payload (stance : Stance) (inside : self.state = .sbPayload) (payload : List UInt8)
    (room : self.sbPayload.length + payload.length ≤ MAX_SUBNEGOTIATION_BYTES) :
    self.receive stance (escapeIac payload) = ({ self with sbPayload := self.sbPayload ++ payload }, {}) := by
  induction payload generalizing self with
  | nil =>
    rw [List.append_nil]
    rfl
  | cons byte rest ih =>
    rw [List.length_cons] at room
    have short : ¬ MAX_SUBNEGOTIATION_BYTES ≤ self.sbPayload.length := by omega
    have stored : self.receive stance (pushEscaped byte) =
      ({ self with sbPayload := self.sbPayload ++ [byte] }, {}) := by
      have open_ended : ¬ IAC = SE := by decide
      unfold pushEscaped
      split_ifs with escaped
      · subst escaped
        simp [receive, receiveByte, inside, open_ended, appendSubnegotiationByte, short]
      · simp [receive, receiveByte, inside, escaped, appendSubnegotiationByte, short]
    have left : (self.sbPayload ++ [byte]).length + rest.length ≤ MAX_SUBNEGOTIATION_BYTES := by
      rw [List.length_append, List.length_singleton]
      omega
    rw [escapeIac, List.flatMap_cons, receive_append, stored]
    dsimp only
    have later := ih (show { self with sbPayload := self.sbPayload ++ [byte] }.state = .sbPayload from inside) left
    rw [← escapeIac, later, List.append_assoc]
    rfl

theorem receive_opening (stance : Stance) (idle : self.state = .data) (opt : UInt8) :
    self.receive stance [IAC, SB, opt] =
      ({ self with sbOption := opt, sbPayload := [], state := .sbPayload }, {}) := by
  have same : self = { self with state := .data } := by rw [← idle]
  rw [same]
  rfl

theorem receive_overlong (stance : Stance) (idle : self.state = .data) (plain : self.pendingCr = false)
    {payload : List UInt8} (full : payload.length = MAX_SUBNEGOTIATION_BYTES) :
    (self.receive stance ([IAC, SB, 0] ++ (escapeIac payload ++ ([0] ++ [IAC, SE])))).2.data = [0] := by
  have room : ([] : List UInt8).length + payload.length ≤ MAX_SUBNEGOTIATION_BYTES := by
    rw [List.length_nil, Nat.zero_add, full]
  have spilled : { self with sbOption := 0, sbPayload := payload, state := .sbPayload }.receiveByte stance 0 =
      ({ self with sbOption := 0, sbPayload := [], state := .data }, { data := [0] }) := by
    have ne : ¬ (0 : UInt8) = IAC ∧ ¬ (0 : UInt8) = CR := by decide
    simp [receiveByte, appendSubnegotiationByte, full, consumeDataByte, plain, ne]
  rw [receive_append, receive_opening stance idle]
  dsimp only
  rw [receive_append, receive_payload stance rfl payload room]
  simp only [List.nil_append, List.singleton_append]
  rw [receive, spilled]
  rfl

/-- A whole piece leaves the parser between two sequences, and takes the conversions on. -/
theorem receive_piece (stance : Stance) (idle : self.state = .data) {piece : Piece} (complete : piece.Complete)
    (fits : piece.Fits) (rest : List UInt8) :
    (self.receive stance piece.wire).1.state = .data ∧
      nvt (self.heldCr ++ piece.application ++ rest) =
        (self.receive stance piece.wire).2.data ++ nvt ((self.receive stance piece.wire).1.heldCr ++ rest) := by
  cases piece with
  | byte value =>
    obtain ⟨next, data⟩ := receive_data stance idle value
    rw [Piece.wire, next, data, Piece.application, List.append_assoc, List.singleton_append]
    exact ⟨(self.consumeDataByte_frame value).2.trans idle, self.nvt_consumeDataByte value rest⟩
  | negotiation cmd =>
    obtain ⟨verb, opt⟩ := cmd
    obtain ⟨-, held, -⟩ := answerNegotiation_frame stance
      { self with pendingVerb := verb, state := .negotiate } verb opt
    have taken := receive_command stance idle complete
    rw [Piece.wire, Command.bytes, taken]
    simp [Piece.application, heldCr, held]
  | subnegotiation opt payload =>
    have room : ([] : List UInt8).length + payload.length ≤ MAX_SUBNEGOTIATION_BYTES := by
      rw [List.length_nil, Nat.zero_add]
      exact fits
    rw [Piece.wire, receive_append, receive_append, receive_opening stance idle]
    dsimp only
    rw [receive_payload stance rfl payload room]
    simp [receive, receiveByte, Piece.application, heldCr]

theorem receive_pieces (stance : Stance) (idle : self.state = .data) (pieces : List Piece)
    (complete : ∀ piece ∈ pieces, piece.Complete) (fits : ∀ piece ∈ pieces, piece.Fits) :
    (self.receive stance (pieces.flatMap Piece.wire)).2.data ++
        (self.receive stance (pieces.flatMap Piece.wire)).1.heldCr =
      nvt (self.heldCr ++ pieces.flatMap Piece.application) := by
  induction pieces generalizing self with
  | nil =>
    rw [List.flatMap_nil, List.flatMap_nil, List.append_nil, nvt_heldCr]
    rfl
  | cons piece rest ih =>
    rw [List.forall_mem_cons] at complete fits
    obtain ⟨next, converted⟩ := receive_piece stance idle complete.1 fits.1 (rest.flatMap Piece.application)
    rw [List.flatMap_cons, List.flatMap_cons, receive_append, ← List.append_assoc, converted,
      ← ih next complete.2 fits.2]
    simp

theorem consumeDataByte_sbPayload (self : TelnetNegotiator) (byte : UInt8) :
    (self.consumeDataByte byte).1.sbPayload = self.sbPayload := by
  unfold consumeDataByte
  split_ifs <;> rfl

theorem appendSubnegotiationByte_bounded (self : TelnetNegotiator) (byte : UInt8) :
    (self.appendSubnegotiationByte byte).1.sbPayload.length ≤ MAX_SUBNEGOTIATION_BYTES := by
  unfold appendSubnegotiationByte
  split_ifs with full
  · rw [consumeDataByte_sbPayload]
    exact Nat.zero_le _
  · rw [List.length_append, List.length_singleton]
    omega

theorem receiveByte_bounded (stance : Stance) (bounded : self.sbPayload.length ≤ MAX_SUBNEGOTIATION_BYTES)
    (byte : UInt8) : (self.receiveByte stance byte).1.sbPayload.length ≤ MAX_SUBNEGOTIATION_BYTES := by
  unfold receiveByte
  split
  · split_ifs
    · exact bounded
    · exact (self.consumeDataByte_sbPayload byte).symm ▸ bounded
  · split_ifs
    · exact (consumeDataByte_sbPayload { self with state := .data } byte).symm ▸ bounded
    all_goals exact bounded
  · exact (answerNegotiation_frame stance self self.pendingVerb byte).2.2.symm ▸ bounded
  · exact Nat.zero_le _
  · split_ifs
    · exact bounded
    · exact appendSubnegotiationByte_bounded self byte
  · split_ifs
    · exact Nat.zero_le _
    · exact appendSubnegotiationByte_bounded { self with state := .sbPayload } IAC
    · exact Nat.zero_le _

theorem receive_bounded (stance : Stance) (bounded : self.sbPayload.length ≤ MAX_SUBNEGOTIATION_BYTES)
    (bytes : List UInt8) : (self.receive stance bytes).1.sbPayload.length ≤ MAX_SUBNEGOTIATION_BYTES := by
  induction bytes generalizing self with
  | nil => exact bounded
  | cons byte rest ih => exact ih (receiveByte_bounded stance bounded byte)

/-- Cuts do not matter, pieces that fit leave the application bytes converted, and the buffer keeps its limit. -/
theorem received_faithfully (options : TelnetNegotiatorOptions) :
    (∀ (self : TelnetNegotiator) chunks,
      self.receiveChunks .negotiator chunks = self.receive .negotiator chunks.flatten) ∧
    (∀ pieces : List Piece, (∀ piece ∈ pieces, piece.Complete) → (∀ piece ∈ pieces, piece.Fits) →
      ∀ chunks, chunks.flatten = pieces.flatMap Piece.wire →
        let (after, output) := (create options).receiveChunks .negotiator chunks
        output.data ++ after.heldCr = nvt (pieces.flatMap Piece.application)) ∧
    ∀ chunks, ((create options).receiveChunks .negotiator chunks).1.sbPayload.length ≤
      MAX_SUBNEGOTIATION_BYTES := by
  refine ⟨receiveChunks_flatten .negotiator, ?_, ?_⟩
  · intro pieces complete fits chunks stream
    rw [receiveChunks_flatten, stream]
    exact receive_pieces .negotiator rfl pieces complete fits
  · intro chunks
    rw [receiveChunks_flatten]
    exact receive_bounded .negotiator (Nat.zero_le _) chunks.flatten

theorem received_faithfully_pieces :
    let chunks := [[0x68, IAC], [DO, OPT_SGA, CR, IAC, SB, OPT_TERMINAL_TYPE], [TTYPE_SEND, IAC, SE, NUL]]
    let (after, output) := (create {}).receiveChunks .negotiator chunks
    output.data ++ after.heldCr = nvt [0x68, CR, NUL] := by
  intro chunks
  let pieces : List Piece :=
    [.byte 0x68, .negotiation ⟨DO, OPT_SGA⟩, .byte CR, .subnegotiation OPT_TERMINAL_TYPE [TTYPE_SEND], .byte NUL]
  have complete : ∀ piece ∈ pieces, piece.Complete := by simp [pieces, Piece.Complete, Command.Negotiates]
  have fits : ∀ piece ∈ pieces, piece.Fits := by simp [pieces, Piece.Fits, MAX_SUBNEGOTIATION_BYTES]
  exact (received_faithfully {}).2.1 pieces complete fits chunks (by decide)

theorem overlong_subnegotiation_delivered : ¬ ∀ pieces : List Piece, (∀ piece ∈ pieces, piece.Complete) →
    let (after, output) := (create {}).receive .negotiator (pieces.flatMap Piece.wire)
    output.data ++ after.heldCr = nvt (pieces.flatMap Piece.application) := by
  intro faithful
  have full : (List.replicate MAX_SUBNEGOTIATION_BYTES (0 : UInt8)).length = MAX_SUBNEGOTIATION_BYTES :=
    List.length_replicate
  generalize List.replicate MAX_SUBNEGOTIATION_BYTES (0 : UInt8) = payload at full
  have kept := faithful [.subnegotiation 0 (payload ++ [0])] fun piece member =>
    List.mem_singleton.mp member ▸ trivial
  have wire : [Piece.subnegotiation 0 (payload ++ [0])].flatMap Piece.wire =
      [IAC, SB, 0] ++ (escapeIac payload ++ ([0] ++ [IAC, SE])) := by
    rw [List.flatMap_singleton, Piece.wire, escapeIac, List.flatMap_append, List.append_assoc, List.append_assoc]
    rfl
  have fresh : (create {}).state = .data ∧ (create {}).pendingCr = false := ⟨rfl, rfl⟩
  have delivered := receive_overlong .negotiator fresh.1 fresh.2 full
  rw [wire] at kept
  dsimp only at kept
  rw [delivered] at kept
  exact absurd kept (List.cons_ne_nil _ _)

/-- A command inside a payload is taken as it would have been between two sequences. -/
def Recovers (self : TelnetNegotiator) (command : Command) : Prop :=
  let (after, output) := self.receive .negotiator command.bytes
  let (expected, wanted) := { self with sbPayload := [], state := .data }.receive .negotiator command.bytes
  output.data = wanted.data ∧ output.response = wanted.response ∧ after.remoteState = expected.remoteState ∧
    after.localState = expected.localState ∧ after.nawsEnabled = expected.nawsEnabled ∧
    after.pendingCr = expected.pendingCr ∧ after.state = expected.state

theorem receive_truncated (stance : Stance) (inside : self.state = .sbPayload) {verb opt : UInt8}
    (known : Command.Negotiates ⟨verb, opt⟩) :
    self.receive stance [IAC, verb, opt] =
      { self with sbPayload := [], state := .data }.receive stance [opt] := by
  have ne : verb ≠ SE ∧ verb ≠ IAC := by rcases known with rfl | rfl | rfl | rfl <;> decide
  simp [receive, receiveByte, inside, ne]

theorem receive_option (stance : Stance) (self : TelnetNegotiator) (idle : self.state = .data) (opt : UInt8) :
    let (after, output) := self.receive stance [opt]
    after.state = .iac ∨ output.data ≠ [] ∨ self.pendingCr = false ∧ after.pendingCr = true := by
  by_cases escape : opt = IAC
  · simp [receive, receiveByte, idle, escape]
  by_cases bare : opt = CR
  · have ne : ¬ CR = NUL ∧ ¬ CR = LF ∧ ¬ CR = IAC := by decide
    cases pending : self.pendingCr <;> simp [receive, receiveByte, idle, consumeDataByte, bare, pending, ne]
  · refine .inr (.inl ?_)
    simp only [idle, consumeDataByte]
    split_ifs <;> simp

theorem not_recovers (inside : self.state = .sbPayload) {command : Command} (known : command.Negotiates) :
    ¬ self.Recovers command := by
  obtain ⟨verb, opt⟩ := command
  have asData := receive_option .negotiator { self with sbPayload := [], state := .data } rfl opt
  obtain ⟨-, kept, -⟩ := answerNegotiation_frame .negotiator
    { self with sbPayload := [], pendingVerb := verb, state := .negotiate } verb opt
  unfold Recovers
  rw [Command.bytes, receive_truncated .negotiator inside known, receive_command .negotiator rfl known]
  rintro ⟨data, -, -, -, -, held, state⟩
  rcases asData with begun | delivered | ⟨fresh, armed⟩
  · exact absurd (state.symm.trans begun) (by simp)
  · exact delivered data
  · exact absurd (armed.symm.trans (held.trans (kept.trans fresh))) (by simp)

/-- The option byte of a command inside a payload is data, whatever the prefix, the option and the chunks. -/
theorem truncated_subnegotiation_unrecovered (options : TelnetNegotiatorOptions) (chunks : List (List UInt8))
    (inside : ((create options).receiveChunks .negotiator chunks).1.state = .sbPayload) {command : Command}
    (known : command.Negotiates) : ¬ ((create options).receiveChunks .negotiator chunks).1.Recovers command :=
  not_recovers inside known

theorem truncated_subnegotiation_unrecovered_echo :
    ¬ ((create {}).receiveChunks .negotiator [[IAC, SB, OPT_TERMINAL_TYPE], [TTYPE_SEND]]).1.Recovers
      ⟨WILL, OPT_ECHO⟩ :=
  truncated_subnegotiation_unrecovered {} [[IAC, SB, OPT_TERMINAL_TYPE], [TTYPE_SEND]] rfl (.inl rfl)

theorem truncated_subnegotiation_lost : ¬ ∀ (chunks : List (List UInt8)) (command : Command),
    ((create {}).receiveChunks .negotiator chunks).1.state = .sbPayload → command.Negotiates →
      ((create {}).receiveChunks .negotiator chunks).1.Recovers command := by
  intro recovers
  have answered := (recovers [[IAC, SB, OPT_TERMINAL_TYPE, TTYPE_SEND]] ⟨WILL, OPT_ECHO⟩ rfl (.inl rfl)).1
  exact absurd answered (by decide)

end TelnetNegotiator

end NexTerminal.Telnet
