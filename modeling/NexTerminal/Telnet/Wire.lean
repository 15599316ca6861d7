import Mathlib.Data.Rat.Floor
import NexTerminal.Library.Announce
import NexTerminal.Library.Utf16

/-! The telnet IAC state machine (`telnetProtocol.ts`), byte by byte. -/

namespace NexTerminal.Telnet

open Library
open Library.Announce

abbrev IAC : UInt8 := 255
abbrev SE : UInt8 := 240
abbrev SB : UInt8 := 250
abbrev WILL : UInt8 := 251
abbrev WONT : UInt8 := 252
abbrev DO : UInt8 := 253
abbrev DONT : UInt8 := 254

abbrev OPT_ECHO : UInt8 := 1
abbrev OPT_SGA : UInt8 := 3
abbrev OPT_TERMINAL_TYPE : UInt8 := 24
abbrev OPT_NAWS : UInt8 := 31

abbrev TTYPE_IS : UInt8 := 0
abbrev TTYPE_SEND : UInt8 := 1

abbrev CR : UInt8 := 0x0d
abbrev LF : UInt8 := 0x0a
abbrev NUL : UInt8 := 0x00

def MAX_SUBNEGOTIATION_BYTES : Nat := 128

def REMOTE_ACCEPTED : List UInt8 := [OPT_ECHO, OPT_SGA]

def LOCAL_ACCEPTED : List UInt8 := [OPT_SGA, OPT_TERMINAL_TYPE, OPT_NAWS]

/-- What an end makes of a command about an option, its peer's or its own. -/
structure Stance where
  remote : UInt8 → Verdict
  own : UInt8 → Verdict

def Stance.negotiator : Stance where
  remote option _ asked := asked && REMOTE_ACCEPTED.contains option
  own option _ asked := asked && LOCAL_ACCEPTED.contains option

inductive ParserState
  | data
  | iac
  | negotiate
  | sbOption
  | sbPayload
  | sbIac
deriving DecidableEq

/-- A JavaScript number as a size: the number itself, or none where it is not finite. -/
def clampDimension : Option ℚ → Nat
  | none => 0
  | some value => min 0xffff (if value < 0 then 0 else ⌊value⌋.toNat)

structure TelnetNegotiatorOptions where
  terminalType : Option String := none
  initialColumns : Option (Option ℚ) := none
  initialRows : Option (Option ℚ) := none

structure TelnetNegotiator where
  terminalType : String
  state : ParserState := .data
  pendingVerb : UInt8 := 0
  sbOption : UInt8 := 0
  sbPayload : List UInt8 := []
  /-- A `CR` whose successor has not arrived yet. -/
  pendingCr : Bool := false
  /-- What we last told the peer about each option, per direction. -/
  remoteState : UInt8 → Option Bool := fun _ => none
  localState : UInt8 → Option Bool := fun _ => none
  columns : Nat
  rows : Nat
  nawsEnabled : Bool := false

/-- One byte, and a second `IAC` after an `IAC`. -/
def pushEscaped (byte : UInt8) : List UInt8 := if byte = IAC then [byte, IAC] else [byte]

def escapeIac (raw : List UInt8) : List UInt8 := raw.flatMap pushEscaped

namespace TelnetNegotiator

def create (options : TelnetNegotiatorOptions) : TelnetNegotiator where
  terminalType := options.terminalType.getD "xterm-256color"
  columns := clampDimension (options.initialColumns.getD (some 80))
  rows := clampDimension (options.initialRows.getD (some 24))

/-- The carriage-return rules: `CR NUL` is a bare carriage return, `CR LF` a newline,
and before anything else the `CR` stands. -/
def consumeDataByte (self : TelnetNegotiator) (byte : UInt8) : TelnetNegotiator × List UInt8 :=
  if self.pendingCr then
    if byte = NUL then ({ self with pendingCr := false }, [CR])
    else if byte = LF then ({ self with pendingCr := false }, [CR, LF])
    else if byte = CR then ({ self with pendingCr := true }, [CR])
    else ({ self with pendingCr := false }, [CR, byte])
  else if byte = CR then ({ self with pendingCr := true }, [])
  else (self, [byte])

/-- One more payload byte, or at the cap the subnegotiation is abandoned and the byte is data. -/
def appendSubnegotiationByte (self : TelnetNegotiator) (byte : UInt8) : TelnetNegotiator × List UInt8 :=
  if MAX_SUBNEGOTIATION_BYTES ≤ self.sbPayload.length then
    { self with sbPayload := [], state := .data }.consumeDataByte byte
  else ({ self with sbPayload := self.sbPayload ++ [byte] }, [])

/-- `IAC SB NAWS <width16> <height16> IAC SE`. -/
def nawsSubnegotiation (self : TelnetNegotiator) : List UInt8 :=
  [IAC, SB, OPT_NAWS] ++ escapeIac
    [(self.columns / 256).toUInt8, self.columns.toUInt8, (self.rows / 256).toUInt8, self.rows.toUInt8] ++ [IAC, SE]

/-- An answer is sent only when it changes what we last told the peer about that option. -/
def answerNegotiation (stance : Stance) (self : TelnetNegotiator) (verb option : UInt8) :
    TelnetNegotiator × List UInt8 :=
  if verb = WILL ∨ verb = WONT then
    let accept := stance.remote option (self.remoteState option) (verb == WILL)
    if self.remoteState option = some accept then (self, [])
    else
      ({ self with remoteState := Function.update self.remoteState option (some accept) },
        [IAC, if accept then DO else DONT, option])
  else
    let accept := stance.own option (self.localState option) (verb == DO)
    if self.localState option = some accept then (self, [])
    else
      let self := { self with localState := Function.update self.localState option (some accept) }
      let answer := [IAC, if accept then WILL else WONT, option]
      if option = OPT_NAWS then
        ({ self with nawsEnabled := accept }, answer ++ if accept then self.nawsSubnegotiation else [])
      else (self, answer)

/-- The bytes of a terminal type: the low byte of each UTF-16 unit. -/
def asciiBytes (text : String) : List UInt8 := (encodeUtf16 text.toList).map (·.toUInt8)

def answerSubnegotiation (self : TelnetNegotiator) (option : UInt8) (payload : List UInt8) : List UInt8 :=
  if option ≠ OPT_TERMINAL_TYPE ∨ payload.head? ≠ some TTYPE_SEND then []
  else [IAC, SB, OPT_TERMINAL_TYPE, TTYPE_IS] ++ escapeIac (asciiBytes self.terminalType) ++ [IAC, SE]

/-- What a step adds to the application data and to the answer owed to the peer. -/
structure Output where
  data : List UInt8 := []
  response : List UInt8 := []

def receiveByte (stance : Stance) (self : TelnetNegotiator) (byte : UInt8) : TelnetNegotiator × Output :=
  match self.state with
  | .data =>
    if byte = IAC then ({ self with state := .iac }, {})
    else
      let (self, data) := self.consumeDataByte byte
      (self, { data })
  | .iac =>
    if byte = IAC then
      let (self, data) := { self with state := .data }.consumeDataByte byte
      (self, { data })
    else if byte = SB then ({ self with state := .sbOption }, {})
    else if byte = WILL ∨ byte = WONT ∨ byte = DO ∨ byte = DONT then
      ({ self with pendingVerb := byte, state := .negotiate }, {})
    -- a two-byte command without an option: nothing here acts on one
    else ({ self with state := .data }, {})
  | .negotiate =>
    let (self, response) := self.answerNegotiation stance self.pendingVerb byte
    ({ self with state := .data }, { response })
  | .sbOption => ({ self with sbOption := byte, sbPayload := [], state := .sbPayload }, {})
  | .sbPayload =>
    if byte = IAC then ({ self with state := .sbIac }, {})
    else
      let (self, data) := self.appendSubnegotiationByte byte
      (self, { data })
  | .sbIac =>
    if byte = SE then
      let response := self.answerSubnegotiation self.sbOption self.sbPayload
      ({ self with sbPayload := [], state := .data }, { response })
    else if byte = IAC then
      let (self, data) := { self with state := .sbPayload }.appendSubnegotiationByte IAC
      (self, { data })
    -- malformed: the subnegotiation is abandoned rather than the stream swallowed
    else ({ self with sbPayload := [], state := .data }, {})

/-- Consumes one inbound chunk. A chunk may end mid-sequence. -/
def receive (stance : Stance) (self : TelnetNegotiator) : List UInt8 → TelnetNegotiator × Output
  | [] => (self, {})
  | byte :: rest =>
    let (self, first) := self.receiveByte stance byte
    let (self, later) := self.receive stance rest
    (self, { data := first.data ++ later.data, response := first.response ++ later.response })

/-- Records a window size, and reports it where the peer has asked for reports. -/
def setWindowSize (self : TelnetNegotiator) (columns rows : Option ℚ) : TelnetNegotiator × List UInt8 :=
  let self := { self with columns := clampDimension columns, rows := clampDimension rows }
  (self, if self.nawsEnabled then self.nawsSubnegotiation else [])

end TelnetNegotiator

structure Command where
  verb : UInt8
  option : UInt8
deriving DecidableEq

namespace Command

/-- The command is about an option of its sender: `WILL` or `WONT`. -/
def offers (command : Command) : Bool := command.verb == WILL || command.verb == WONT

def asked (command : Command) : Bool :=
  if command.offers then command.verb == WILL else command.verb == DO

def bytes (command : Command) : List UInt8 := [IAC, command.verb, command.option]

def Negotiates (command : Command) : Prop :=
  command.verb = WILL ∨ command.verb = WONT ∨ command.verb = DO ∨ command.verb = DONT

instance (command : Command) : Decidable command.Negotiates := inferInstanceAs (Decidable (_ ∨ _))

end Command

/-- Where in a sequence the parser is, with the payload it has counted. -/
inductive Scanner
  | data
  | iac
  | negotiate (verb : UInt8)
  | sbOption
  | sbPayload (held : Nat)
  | sbIac (held : Nat)
deriving DecidableEq

namespace Scanner

def append (held : Nat) : Scanner :=
  if MAX_SUBNEGOTIATION_BYTES ≤ held then .data else .sbPayload (held + 1)

def next : Scanner → UInt8 → Scanner
  | .data, byte => if byte = IAC then .iac else .data
  | .iac, byte =>
    if byte = IAC then .data
    else if byte = SB then .sbOption
    else if byte = WILL ∨ byte = WONT ∨ byte = DO ∨ byte = DONT then .negotiate byte
    else .data
  | .negotiate _, _ => .data
  | .sbOption, _ => .sbPayload 0
  | .sbPayload held, byte => if byte = IAC then .sbIac held else append held
  | .sbIac held, byte => if byte = SE then .data else if byte = IAC then append held else .data

def found : Scanner → UInt8 → Option Command
  | .negotiate verb, byte => some { verb, option := byte }
  | _, _ => none

def after (scanner : Scanner) (bytes : List UInt8) : Scanner := bytes.foldl next scanner

def commands : Scanner → List UInt8 → List Command
  | _, [] => []
  | scanner, byte :: rest => (scanner.found byte).toList ++ commands (scanner.next byte) rest

theorem after_append (scanner : Scanner) (bytes more : List UInt8) :
    scanner.after (bytes ++ more) = (scanner.after bytes).after more := List.foldl_append

theorem commands_append (scanner : Scanner) (bytes more : List UInt8) :
    scanner.commands (bytes ++ more) = scanner.commands bytes ++ (scanner.after bytes).commands more := by
  induction bytes generalizing scanner with
  | nil => rfl
  | cons byte rest ih =>
    rw [List.cons_append, commands, commands, ih, List.append_assoc]
    rfl

end Scanner

/-- Bytes that begin and end between two sequences, as every party sends them. -/
def Whole (bytes : List UInt8) : Prop := Scanner.data.after bytes = .data

def commandsIn (bytes : List UInt8) : List Command := Scanner.data.commands bytes

theorem whole_nil : Whole [] := rfl

theorem Whole.append {bytes more : List UInt8} (first : Whole bytes) (second : Whole more) :
    Whole (bytes ++ more) := by
  rw [Whole, Scanner.after_append, first]
  exact second

theorem commandsIn_append {bytes more : List UInt8} (first : Whole bytes) :
    commandsIn (bytes ++ more) = commandsIn bytes ++ commandsIn more := by
  rw [commandsIn, Scanner.commands_append, first]
  rfl

def Scanner.InPayload (scanner : Scanner) : Prop := scanner = .data ∨ ∃ held, scanner = .sbPayload held

theorem Scanner.append_inPayload (held : Nat) : (Scanner.append held).InPayload := by
  unfold Scanner.append
  split_ifs
  · exact .inl rfl
  · exact .inr ⟨_, rfl⟩

theorem pushEscaped_inPayload {scanner : Scanner} (inside : scanner.InPayload) (byte : UInt8) :
    (scanner.after (pushEscaped byte)).InPayload ∧ scanner.commands (pushEscaped byte) = [] := by
  unfold pushEscaped
  rcases inside with rfl | ⟨held, rfl⟩
  · split_ifs with escaped
    · subst escaped
      exact ⟨.inl rfl, rfl⟩
    · exact ⟨.inl (if_neg escaped), rfl⟩
  · split_ifs with escaped
    · subst escaped
      exact ⟨Scanner.append_inPayload held, rfl⟩
    · refine ⟨?_, rfl⟩
      have stays : (Scanner.sbPayload held).after [byte] = .append held := if_neg escaped
      rw [stays]
      exact Scanner.append_inPayload held

theorem escapeIac_inPayload {scanner : Scanner} (inside : scanner.InPayload) (raw : List UInt8) :
    (scanner.after (escapeIac raw)).InPayload ∧ scanner.commands (escapeIac raw) = [] := by
  induction raw generalizing scanner with
  | nil => exact ⟨inside, rfl⟩
  | cons byte rest ih =>
    obtain ⟨one_inside, one_silent⟩ := pushEscaped_inPayload inside byte
    obtain ⟨rest_inside, rest_silent⟩ := ih one_inside
    rw [escapeIac, List.flatMap_cons, Scanner.after_append, Scanner.commands_append, one_silent]
    exact ⟨rest_inside, rest_silent⟩

def Silent (bytes : List UInt8) : Prop := Whole bytes ∧ commandsIn bytes = []

theorem silent_nil : Silent [] := ⟨rfl, rfl⟩

theorem subnegotiation_silent (opt : UInt8) (payload : List UInt8) :
    Silent ([IAC, SB, opt] ++ escapeIac payload ++ [IAC, SE]) := by
  have opened : Scanner.data.after [IAC, SB, opt] = .sbPayload 0 := rfl
  obtain ⟨inside, silent⟩ := escapeIac_inPayload (.inr ⟨0, rfl⟩ : (Scanner.sbPayload 0).InPayload) payload
  unfold Silent Whole commandsIn
  rw [Scanner.after_append, Scanner.commands_append, Scanner.after_append, Scanner.commands_append, opened, silent]
  rcases inside with closed | ⟨held, still⟩
  · rw [closed]
    exact ⟨rfl, rfl⟩
  · rw [still]
    exact ⟨rfl, rfl⟩

theorem command_bytes {command : Command} (verb : command.Negotiates) :
    Whole command.bytes ∧ commandsIn command.bytes = [command] := by
  obtain ⟨verb, opt⟩ := command
  rcases verb with rfl | rfl | rfl | rfl <;> exact ⟨rfl, rfl⟩

namespace TelnetNegotiator

open Scanner

def scanner (self : TelnetNegotiator) : Scanner :=
  match self.state with
  | .data => .data
  | .iac => .iac
  | .negotiate => .negotiate self.pendingVerb
  | .sbOption => .sbOption
  | .sbPayload => .sbPayload self.sbPayload.length
  | .sbIac => .sbIac self.sbPayload.length

/-- The same but for what it has received of the current sequence and of the data. -/
def SameTables (self other : TelnetNegotiator) : Prop :=
  self.remoteState = other.remoteState ∧ self.localState = other.localState

theorem consumeDataByte_frame (self : TelnetNegotiator) (byte : UInt8) :
    (self.consumeDataByte byte).1.SameTables self ∧ (self.consumeDataByte byte).1.state = self.state := by
  unfold consumeDataByte
  split_ifs <;> exact ⟨⟨rfl, rfl⟩, rfl⟩

theorem appendSubnegotiationByte_frame (self : TelnetNegotiator) (byte : UInt8) (inside : self.state = .sbPayload) :
    (self.appendSubnegotiationByte byte).1.SameTables self ∧
      (self.appendSubnegotiationByte byte).1.scanner = Scanner.append self.sbPayload.length := by
  unfold appendSubnegotiationByte Scanner.append
  split_ifs with full
  · obtain ⟨tables, state⟩ := consumeDataByte_frame { self with sbPayload := [], state := .data } byte
    refine ⟨tables, ?_⟩
    rw [scanner, state]
  · refine ⟨⟨rfl, rfl⟩, ?_⟩
    simp [scanner, inside]

theorem receiveByte_idle (stance : Stance) {self : TelnetNegotiator} {byte : UInt8}
    (idle : self.scanner.found byte = none) :
    (self.receiveByte stance byte).1.SameTables self ∧
      (self.receiveByte stance byte).1.scanner = self.scanner.next byte ∧
      Silent (self.receiveByte stance byte).2.response := by
  cases state : self.state with
  | data =>
    simp only [receiveByte, scanner, state, next]
    split_ifs with command
    · exact ⟨⟨rfl, rfl⟩, rfl, silent_nil⟩
    · obtain ⟨tables, kept⟩ := self.consumeDataByte_frame byte
      refine ⟨tables, ?_, silent_nil⟩
      rw [kept, state]
  | iac =>
    simp only [receiveByte, scanner, state, next]
    split_ifs with escaped opened verb
    · obtain ⟨tables, kept⟩ := consumeDataByte_frame { self with state := .data } byte
      refine ⟨tables, ?_, silent_nil⟩
      rw [kept]
    · exact ⟨⟨rfl, rfl⟩, rfl, silent_nil⟩
    · exact ⟨⟨rfl, rfl⟩, rfl, silent_nil⟩
    · exact ⟨⟨rfl, rfl⟩, rfl, silent_nil⟩
  | negotiate => simp [scanner, state, found] at idle
  | sbOption =>
    simp only [receiveByte, scanner, state]
    exact ⟨⟨rfl, rfl⟩, rfl, silent_nil⟩
  | sbPayload =>
    have place : self.scanner = .sbPayload self.sbPayload.length := by rw [scanner, state]
    simp only [receiveByte, state]
    rw [place, next]
    split_ifs with escape
    · exact ⟨⟨rfl, rfl⟩, rfl, silent_nil⟩
    · obtain ⟨tables, kept⟩ := self.appendSubnegotiationByte_frame byte state
      exact ⟨tables, kept, silent_nil⟩
  | sbIac =>
    have place : self.scanner = .sbIac self.sbPayload.length := by rw [scanner, state]
    simp only [receiveByte, state]
    rw [place, next]
    split_ifs with closed escaped
    · refine ⟨⟨rfl, rfl⟩, rfl, ?_⟩
      unfold answerSubnegotiation
      split_ifs
      · exact silent_nil
      · exact subnegotiation_silent OPT_TERMINAL_TYPE (TTYPE_IS :: asciiBytes self.terminalType)
    · obtain ⟨tables, kept⟩ := appendSubnegotiationByte_frame { self with state := .sbPayload } IAC rfl
      exact ⟨tables, kept, silent_nil⟩
    · exact ⟨⟨rfl, rfl⟩, rfl, silent_nil⟩

theorem nawsSubnegotiation_silent (self : TelnetNegotiator) : Silent self.nawsSubnegotiation :=
  subnegotiation_silent OPT_NAWS _

/-- What the table says about an option of the peer, or of our own. -/
def held (self : TelnetNegotiator) (offers : Bool) (option : UInt8) : Option Bool :=
  if offers then self.remoteState option else self.localState option

end TelnetNegotiator

/-- What the stance makes of a command about an option of the peer, or of our own. -/
def Stance.verdict (stance : Stance) (offers : Bool) (option : UInt8) : Verdict :=
  if offers then stance.remote option else stance.own option

def Command.answer (command : Command) (accept : Bool) : Command where
  verb := if command.offers then (if accept then DO else DONT) else if accept then WILL else WONT
  option := command.option

theorem Command.answer_offers (command : Command) (accept : Bool) :
    (command.answer accept).offers = !command.offers := by
  simp only [answer]
  cases command.offers <;> cases accept <;> rfl

theorem Command.answer_option (command : Command) (accept : Bool) :
    (command.answer accept).option = command.option := rfl

theorem Command.answer_asked (command : Command) (accept : Bool) : (command.answer accept).asked = accept := by
  simp only [answer]
  cases command.offers <;> cases accept <;> rfl

theorem Command.offers_iff (command : Command) :
    command.offers = true ↔ command.verb = WILL ∨ command.verb = WONT := by
  simp [offers]

namespace TelnetNegotiator

variable {stance : Stance} {self : TelnetNegotiator} {command : Command}

/-- What becomes of an option's state when a command about it arrives. -/
def settled (stance : Stance) (self : TelnetNegotiator) (command : Command) : Bool :=
  stance.verdict command.offers command.option (self.held command.offers command.option) command.asked

theorem answerNegotiation_same (command : Command)
    (same : self.held command.offers command.option = some (self.settled stance command)) :
    self.answerNegotiation stance command.verb command.option = (self, []) := by
  by_cases offers : command.offers = true
  · simp only [settled, held, Stance.verdict, Command.asked, if_pos offers] at same
    simp only [answerNegotiation, if_pos (command.offers_iff.mp offers)]
    exact if_pos same
  · simp only [settled, held, Stance.verdict, Command.asked, if_neg offers] at same
    simp only [answerNegotiation, if_neg fun verb => offers (command.offers_iff.mpr verb)]
    exact if_pos same

theorem answer_bytes (command : Command) (accept : Bool) {tail : List UInt8} (silent : Silent tail) :
    Whole ((command.answer accept).bytes ++ tail) ∧
      commandsIn ((command.answer accept).bytes ++ tail) = [command.answer accept] := by
  have verb : (command.answer accept).Negotiates := by
    unfold Command.Negotiates Command.answer
    split_ifs <;> simp
  obtain ⟨whole, hit⟩ := command_bytes verb
  exact ⟨whole.append silent.1, by rw [commandsIn_append whole, hit, silent.2, List.append_nil]⟩

theorem held_remote (self : TelnetNegotiator) {changed : TelnetNegotiator} {opt : UInt8} {accept : Bool}
    (remote : changed.remoteState = Function.update self.remoteState opt (some accept))
    (own : changed.localState = self.localState) (offers : Bool) (about : UInt8) :
    changed.held offers about =
      if offers = true ∧ about = opt then some accept else self.held offers about := by
  simp only [held, remote, own, Function.update_apply]
  cases offers <;> simp

theorem held_own (self : TelnetNegotiator) {changed : TelnetNegotiator} {opt : UInt8} {accept : Bool}
    (remote : changed.remoteState = self.remoteState)
    (own : changed.localState = Function.update self.localState opt (some accept)) (offers : Bool)
    (about : UInt8) :
    changed.held offers about =
      if offers = false ∧ about = opt then some accept else self.held offers about := by
  simp only [held, remote, own, Function.update_apply]
  cases offers <;> simp

theorem answerNegotiation_other (command : Command)
    (ne : self.held command.offers command.option ≠ some (self.settled stance command)) :
    ∃ changed tail, self.answerNegotiation stance command.verb command.option =
        (changed, (command.answer (self.settled stance command)).bytes ++ tail) ∧ Silent tail ∧
      ∀ offers option, changed.held offers option =
        if offers = command.offers ∧ option = command.option then some (self.settled stance command)
          else self.held offers option := by
  cases offers : command.offers with
  | true =>
    have settles : self.settled stance command =
        stance.remote command.option (self.remoteState command.option) (command.verb == WILL) := by
      simp [settled, held, Stance.verdict, Command.asked, offers]
    rw [settles, offers] at ne
    change self.remoteState command.option ≠ _ at ne
    simp only [answerNegotiation, if_pos (command.offers_iff.mp offers), settles]
    rw [if_neg ne]
    refine ⟨_, [], Prod.ext rfl ?_, silent_nil, held_remote self rfl rfl⟩
    simp [Command.bytes, Command.answer, offers]
  | false =>
    have differs : ¬ command.offers = true := by simp [offers]
    have settles : self.settled stance command =
        stance.own command.option (self.localState command.option) (command.verb == DO) := by
      simp [settled, held, Stance.verdict, Command.asked, if_neg differs]
    rw [settles, offers] at ne
    change self.localState command.option ≠ _ at ne
    simp only [answerNegotiation, if_neg fun verb => differs (command.offers_iff.mpr verb), settles]
    rw [if_neg ne]
    generalize stance.own command.option (self.localState command.option) (command.verb == DO) = accept
    have bytes : (command.answer accept).bytes = [IAC, if accept then WILL else WONT, command.option] := by
      simp [Command.bytes, Command.answer, offers]
    rw [bytes]
    by_cases naws : command.option = OPT_NAWS
    · rw [if_pos naws]
      refine ⟨_, _, rfl, ?_, held_own self rfl rfl⟩
      cases accept
      · exact silent_nil
      · exact nawsSubnegotiation_silent _
    · rw [if_neg naws]
      exact ⟨_, [], rfl, silent_nil, held_own self rfl rfl⟩

theorem receiveByte_command {verb : UInt8} (place : self.scanner = .negotiate verb) (byte : UInt8) :
    self.receiveByte stance byte =
      ({ (self.answerNegotiation stance verb byte).1 with state := .data },
        { response := (self.answerNegotiation stance verb byte).2 }) := by
  have state : self.state = .negotiate ∧ self.pendingVerb = verb := by
    unfold scanner at place
    cases state : self.state <;> simp_all
  simp [receiveByte, state.1, state.2]

theorem held_eq_of_sameTables {other : TelnetNegotiator} (tables : self.SameTables other) (offers : Bool)
    (option : UInt8) : self.held offers option = other.held offers option := by
  rw [held, tables.1, tables.2, held]

/-- The last byte of a command changes that command's option only, if any. -/
theorem receiveByte_found (stance : Stance) {byte : UInt8} (hit : self.scanner.found byte = some command) :
    (self.held command.offers command.option = some (self.settled stance command) ∧
      (self.receiveByte stance byte).2.response = [] ∧
      ∀ offers opt, (self.receiveByte stance byte).1.held offers opt = self.held offers opt) ∨
    (self.held command.offers command.option ≠ some (self.settled stance command) ∧
      (∃ tail, (self.receiveByte stance byte).2.response =
        (command.answer (self.settled stance command)).bytes ++ tail ∧ Silent tail) ∧
      ∀ offers opt, (self.receiveByte stance byte).1.held offers opt =
        if offers = command.offers ∧ opt = command.option then some (self.settled stance command)
          else self.held offers opt) := by
  cases place : self.scanner with
  | data | iac | sbOption | sbPayload | sbIac => simp [place, Scanner.found] at hit
  | negotiate verb =>
    rw [receiveByte_command place]
    rw [place] at hit
    obtain rfl : Command.mk verb byte = command := Option.some.inj hit
    rcases eq_or_ne (self.held (Command.mk verb byte).offers byte) (some (self.settled stance ⟨verb, byte⟩))
      with same | other
    · rw [answerNegotiation_same ⟨verb, byte⟩ same]
      exact .inl ⟨same, rfl, fun _ _ => rfl⟩
    · obtain ⟨changed, tail, answer, silent, held⟩ := answerNegotiation_other ⟨verb, byte⟩ other
      rw [answer]
      exact .inr ⟨other, ⟨tail, rfl, silent⟩, held⟩

end TelnetNegotiator

end NexTerminal.Telnet
