import NexTerminal.AutoTrigger.MacroAutoTrigger
import Mathlib.Data.List.DropRight

/-! The buffers that keep a terminal's output as plain text: for scripts, which scan it for
patterns (`scriptOutputBuffer.ts`), and for capture (`terminalCaptureBuffer.ts`). -/

namespace NexTerminal.Terminal

open AutoTrigger (withoutAnsi)

structure RegExpMatch where
  index : Nat
  units : Text
  groups : List (Option Text)
  deriving DecidableEq

/-- `input.match(new RegExp(source, flags))` for flags that are neither global nor sticky. What
it finds is in the input. -/
structure RegExpEngine where
  exec : (source flags input : Text) → Option RegExpMatch
  found : ∀ {source flags input result}, exec source flags input = some result →
    result.index ≤ input.length ∧ result.units = (input.drop result.index).take result.units.length

inductive Pattern
  | literal (text : Text)
  | regex (source flags : Text)
  deriving DecidableEq

/-- `[.*+?^${}()|[\]\\]`. -/
def isRegExpSpecial (u : UInt16) : Bool :=
  [0x2e, 0x2a, 0x2b, 0x3f, 0x5e, 0x24, 0x7b, 0x7d, 0x28, 0x29, 0x7c, 0x5b, 0x5d, 0x5c].contains u

def escapeRegExp (text : Text) : Text := text.flatMap fun u => if isRegExpSpecial u then [backslash, u] else [u]

namespace Pattern

def globalFlag : UInt16 := 0x67

def stickyFlag : UInt16 := 0x79

def sticky : Pattern → Bool
  | .literal _ => false
  | .regex _ flags => flags.contains stickyFlag

def source : Pattern → Text
  | .literal text => escapeRegExp text
  | .regex source _ => source

def flags : Pattern → Text
  | .literal _ => []
  | .regex _ flags => if flags.contains globalFlag then flags.filter (· ≠ globalFlag) else flags

end Pattern

structure ScriptOutputBuffer.Match where
  text : Text
  groups : List Text
  before : Text
  endPosition : Nat
  deriving DecidableEq

def DEFAULT_CAPACITY : Nat := 65536
def DEFAULT_FIRST_LOOKBACK : Int := 1024

structure ScriptOutputBuffer where
  capacity : Nat := DEFAULT_CAPACITY
  text : Text := []
  writeHead : Nat := 0
  cursor : Nat := 0
  firstScan : Bool := true
  deriving DecidableEq

namespace ScriptOutputBuffer

def append (self : ScriptOutputBuffer) (raw : Text) : ScriptOutputBuffer :=
  let stripped := withoutAnsi raw
  if stripped.length = 0 then self
  else
    let text := self.text ++ stripped
    { self with
      text := if self.capacity < text.length then text.drop (text.length - self.capacity) else text
      writeHead := self.writeHead + stripped.length }

/-- The next scan no longer looks back, whatever this one finds. -/
def scan (engine : RegExpEngine) (self : ScriptOutputBuffer) (pattern : Pattern) (lookback : Option Int) :
    ScriptOutputBuffer × Option Match :=
  let defaultLookback := if self.firstScan then DEFAULT_FIRST_LOOKBACK else 0
  let lookback := lookback.getD defaultLookback
  let bufferStartPosition := self.writeHead - self.text.length
  let desiredStartPosition := max bufferStartPosition (max 0 (self.cursor - lookback)).toNat
  let offsetInText := desiredStartPosition - bufferStartPosition
  let window := self.text.drop offsetInText
  ({ self with firstScan := false },
    if window.length = 0 then none
    else (engine.exec pattern.source pattern.flags window).map fun m =>
      { text := m.units
        groups := m.groups.map fun g => g.getD []
        before := window.take m.index
        endPosition := desiredStartPosition + m.index + m.units.length })

def advanceCursor (self : ScriptOutputBuffer) (position : Int) : ScriptOutputBuffer :=
  if self.cursor < position then { self with cursor := position.toNat } else self

end ScriptOutputBuffer

/-- `[\x00-\x08\x0b\x0c\x0e-\x1f\x7f]`. -/
def isCaptureControl (u : UInt16) : Bool :=
  u ≤ 0x08 || u == 0x0b || u == 0x0c || (0x0e ≤ u && u ≤ 0x1f) || u == 0x7f

def newline : UInt16 := 0x0a

def MAX_PENDING_CHARS : Nat := 65536

def captureText (data : Text) : Text := (withoutAnsi data).filter fun u => !isCaptureControl u

structure TerminalCaptureBuffer where
  lines : List Text := []
  pending : Text := []
  maxLines : Nat
  deriving DecidableEq

namespace TerminalCaptureBuffer

/-- The tail of a line that is too long; it does not start with half a character. -/
def capPending (pending : Text) : Text :=
  if pending.length ≤ MAX_PENDING_CHARS then pending
  else
    let tail := pending.drop (pending.length - MAX_PENDING_CHARS)
    if tail.head?.any fun u => 0xdc00 ≤ u && u ≤ 0xdfff then tail.drop 1 else tail

def trim (self : TerminalCaptureBuffer) : TerminalCaptureBuffer :=
  if self.maxLines < self.lines.length then { self with lines := self.lines.drop (self.lines.length - self.maxLines) }
  else self

def append (self : TerminalCaptureBuffer) (data : Text) : TerminalCaptureBuffer :=
  let stripped := captureText data
  if stripped.length = 0 then self
  else
    let segments := (self.pending ++ stripped).splitOn newline
    trim { self with
      pending := capPending (segments.getLast?.getD [])
      lines := self.lines ++ segments.dropLast }

def getText (self : TerminalCaptureBuffer) : Text :=
  if self.pending.length = 0 then [newline].intercalate self.lines
  else if self.lines.length = 0 then self.pending
  else [newline].intercalate self.lines ++ newline :: self.pending

end TerminalCaptureBuffer

end NexTerminal.Terminal
