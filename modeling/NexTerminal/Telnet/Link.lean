import NexTerminal.Telnet.Wire

namespace NexTerminal.Telnet

open Library.Announce

inductive End
  | near
  | far
deriving DecidableEq

def End.other : End → End
  | .near => .far
  | .far => .near

@[simp] theorem End.other_other (side : End) : side.other.other = side := by cases side <;> rfl

theorem End.other_ne (side : End) : side.other ≠ side := by cases side <;> nofun

theorem End.eq_or (side one : End) : side = one ∨ side = one.other := by
  cases side <;> cases one <;> decide

/-- An option of one of the ends, which is what a command is about. -/
structure Exchange where
  host : End
  option : UInt8
deriving DecidableEq

/-- A negotiation command and who sent it, or is made out to have. -/
structure Sent where
  sender : End
  command : Command
deriving DecidableEq

def Sent.exchange (sent : Sent) : Exchange where
  host := if sent.command.offers then sent.sender else sent.sender.other
  option := sent.command.option

/-- What the commands ask for an option of their sender, or of their receiver. -/
def asks (offers : Bool) (option : UInt8) (commands : List Command) : List Bool :=
  commands.filterMap fun command =>
    if command.offers = offers ∧ command.option = option then some command.asked else none

structure Link where
  party : End → TelnetNegotiator
  inbound : End → List UInt8

namespace Link

def create (options : End → TelnetNegotiatorOptions) : Link where
  party side := .create (options side)
  inbound _ := []

def send (link : Link) (side : End) (bytes : List UInt8) : Link :=
  { link with inbound := Function.update link.inbound side (link.inbound side ++ bytes) }

/-- The first `count` bytes on their way to the end arrive as one chunk, and it answers. -/
def deliver (stances : End → Stance) (link : Link) (side : End) (count : Nat) : Link × List UInt8 :=
  let (party, output) := (link.party side).receive (stances side) ((link.inbound side).take count)
  (send
      { party := Function.update link.party side party
        inbound := Function.update link.inbound side ((link.inbound side).drop count) }
      side.other output.response,
    output.response)

def resize (link : Link) (side : End) (columns rows : Option ℚ) : Link :=
  let (party, report) := (link.party side).setWindowSize columns rows
  send { link with party := Function.update link.party side party } side.other report

end Link

inductive Act
  | deliver (side : End) (count : Nat)
  /-- An outsider adds a command to what is on its way to the end. -/
  | inject (side : End) (command : Command) (verb : command.Negotiates)
  | pass (side : End) (bytes : List UInt8) (silent : Silent bytes)
  | resize (side : End) (columns rows : Option ℚ)

/-- A link, with the negotiation commands injected and answered so far. -/
structure History where
  link : Link
  injected : List Sent := []
  answered : List Sent := []

namespace History

variable (stances : End → Stance)

def step (history : History) : Act → History
  | .deliver side count =>
    let (link, response) := history.link.deliver stances side count
    { history with link, answered := history.answered ++ (commandsIn response).map (⟨side, ·⟩) }
  | .inject side command _ =>
    { history with
      link := history.link.send side command.bytes
      injected := history.injected ++ [⟨side.other, command⟩] }
  | .pass side bytes _ => { history with link := history.link.send side bytes }
  | .resize side columns rows => { history with link := history.link.resize side columns rows }

def run (history : History) (acts : List Act) : History := acts.foldl (step stances) history

end History

namespace Link

/-- One end of an exchange: what it holds about the option, and the commands on their way
to it. -/
def side (link : Link) (at_end : End) (offers : Bool) (option : UInt8) : Party where
  held := (link.party at_end).held offers option
  inbox := asks offers option ((link.party at_end).scanner.commands (link.inbound at_end))

/-- An exchange as the end sees it that hears `offers` about it. -/
def view (link : Link) (at_end : End) (offers : Bool) (option : UInt8) : Dialogue where
  near := link.side at_end offers option
  far := link.side at_end.other (!offers) option

def dialogue (link : Link) (exchange : Exchange) : Dialogue := link.view exchange.host false exchange.option

/-- Both ends see one dialogue, each from its side. -/
theorem view_swap (link : Link) (at_end : End) (offers : Bool) (option : UInt8) :
    (link.view at_end offers option).swap = link.view at_end.other (!offers) option := by
  simp [view, Dialogue.swap]

end Link

/-- What the end whose option it is makes of the exchange's commands, and what its peer does. -/
def Exchange.hostVerdict (stances : End → Stance) (exchange : Exchange) : Verdict :=
  (stances exchange.host).verdict false exchange.option

def Exchange.peerVerdict (stances : End → Stance) (exchange : Exchange) : Verdict :=
  (stances exchange.host.other).verdict true exchange.option

def Exchange.Mutual (stances : End → Stance) (exchange : Exchange) : Prop :=
  Follows (exchange.hostVerdict stances) ∧ Follows (exchange.peerVerdict stances)

/-- Every injected command about an option that both ends accept leaves the exchange settling. -/
def Tame (stances : End → Stance) : History → List Act → Prop
  | _, [] => True
  | history, act :: rest =>
    (∀ side command verb, act = .inject side command verb →
      (Sent.mk side.other command).exchange.Mutual stances →
        ((history.step stances act).link.dialogue (Sent.mk side.other command).exchange).Settling) ∧
      Tame stances (history.step stances act) rest

end NexTerminal.Telnet
