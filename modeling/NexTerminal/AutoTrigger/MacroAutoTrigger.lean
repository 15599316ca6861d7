import Mathlib.Algebra.Order.Floor.Ring
import Mathlib.Data.Rat.Floor
import NexTerminal.Terminal.TerminalHighlighter
import NexTerminal.Library.SeqMap

namespace NexTerminal.AutoTrigger

open Terminal

inductive StoredNumber
  | absent
  | finite (value : ℚ)
  | other
  deriving DecidableEq

def clamp (value low high : ℚ) : ℚ := min (max value low) high

def defaultTriggerCooldown : ℚ := 3

def compiledTriggerCooldownSeconds : StoredNumber → Option ℚ
  | .absent => none
  | .finite value => some (clamp value 0 300)
  | .other => some defaultTriggerCooldown

def compiledTriggerIntervalSeconds : StoredNumber → Option ℚ
  | .finite value => if 0 < value then some value else none
  | _ => none

def clampSeconds (value : StoredNumber) (fallback low high : ℚ) : ℚ :=
  match value with
  | .finite value => clamp value low high
  | _ => fallback

def normalizeBoundedNumber (value : StoredNumber) (fallback low high : Nat) : Nat :=
  match value with
  | .finite value => min (max ⌊value⌋.toNat low) high
  | _ => fallback

inductive MacroTriggerScope
  | allTerminals
  | activeSession
  | profile
  deriving DecidableEq

/-- What `reload` reads of a macro. -/
structure TriggerMacro where
  id : Option String
  name : String
  text : String
  triggerPattern : Option Text
  /-- `triggerCompileBlocker`: variables, a run target that is no session, `${profile.…}` tokens. -/
  hasMacroVariables : Bool := false
  runsInSession : Bool := true
  hasProfileTokens : Bool := false
  /-- `unescapeProfileTokens` of the text. -/
  unescapedText : String
  /-- Absent, or a value, which may be none of the scopes. -/
  triggerScope : Option (Option MacroTriggerScope) := none
  triggerProfileId : Option String := none
  triggerInitiallyDisabled : Bool := false
  triggerCooldown : StoredNumber := .absent
  triggerInterval : StoredNumber := .absent

def macroStateKey (entry : TriggerMacro) : String :=
  match entry.id with
  | none => "anon:" ++ entry.name ++ "\u0000" ++ entry.text
  | some id =>
    if id = "" then "anon:" ++ entry.name ++ "\u0000" ++ entry.text else "id:" ++ id

def findAmbiguousMacroStateKeys (macros : List TriggerMacro) : List String :=
  (macros.map macroStateKey).filter fun key => 1 < (macros.map macroStateKey).count key

def triggerCompileBlocker (entry : TriggerMacro) : Bool :=
  entry.hasMacroVariables || !entry.runsInSession || entry.hasProfileTokens

structure CompiledTriggerRule where
  regex : RegExp
  macroText : String
  cooldownMs : ℚ
  intervalMs : Option ℚ
  stateKey : String
  name : String
  triggerScope : Option MacroTriggerScope
  triggerProfileId : Option String

/-- The macros that reach the compilation: those a rule is tried for. -/
def isTriggerCandidate (ambiguousKeys : List String) (entry : TriggerMacro) : Bool :=
  entry.triggerPattern.any (!·.isEmpty) && !triggerCompileBlocker entry
    && entry.triggerScope ≠ some none && !ambiguousKeys.contains (macroStateKey entry)

/-- The regular expression of a pattern that is safe, compiles and does not match the empty string. -/
def compileTriggerPattern (env : Platform) (pattern : Text) : Option RegExp :=
  if !validateRegexSafety env pattern then none
  else (env.regExp pattern []).filter fun regex => (regex.exec [] 0).isNone

def compileTrigger (env : Platform) (defaultCooldownMs : ℚ) (ambiguousKeys : List String)
    (entry : TriggerMacro) : Option CompiledTriggerRule :=
  if !isTriggerCandidate ambiguousKeys entry then none
  else
    (entry.triggerPattern.bind (compileTriggerPattern env)).map fun regex =>
      { regex
        macroText := entry.unescapedText
        cooldownMs := ((compiledTriggerCooldownSeconds entry.triggerCooldown).map (· * 1000)).getD defaultCooldownMs
        intervalMs := (compiledTriggerIntervalSeconds entry.triggerInterval).map (· * 1000)
        stateKey := macroStateKey entry
        name := entry.name
        triggerScope := entry.triggerScope.join
        triggerProfileId := entry.triggerProfileId }

end NexTerminal.AutoTrigger

/-! `MacroAutoTrigger` and its observers (`macroAutoTrigger.ts`): output enters a buffer, the
rules are tried on it in order, and a match cuts the buffer. -/

namespace NexTerminal.AutoTrigger

open Terminal Library

def maxTriggerInputLength : Nat := 8192

/-- `[\x00-\x08\x0b-\x1f\x7f]`. -/
def isControlUnit (u : UInt16) : Bool := u ≤ 0x08 || (0x0b ≤ u && u ≤ 0x1f) || u == 0x7f

def withoutAnsi (text : Text) : Text :=
  (lex text).filterMap fun token => match token with | .char u => some u | .seq _ => none

def lastUnits (text : Text) (count : Nat) : Text := text.drop (text.length - count)

def strippedOutput (text : Text) : Text :=
  (withoutAnsi (lastUnits text maxTriggerInputLength)).filter fun u => !isControlUnit u

/-- A match, by its place in the stripped output, and whether its rule fires on it: at once,
or, with an interval, when that is over. -/
structure Found where
  stateKey : String
  start : Nat
  stop : Nat
  fires : Bool
  deriving DecidableEq

structure Observer where
  profileId : Option String
  buffer : Text := []
  lastFired : SeqMap String ℚ := .empty
  readyMatches : SeqSet String := .empty
  scheduledTimers : SeqSet String := .empty
  ownedIntervals : SeqSet String := .empty
  /-- The fired rules whose `setTimeout` is to come. -/
  firing : List CompiledTriggerRule := []
  written : List String := []
  disposed : Bool := false
  /-- The stripped output so far, and how much of it stands before the buffer. -/
  output : Text := []
  consumed : Nat := 0
  found : List Found := []

namespace Observer

def cut (self : Observer) (count : Nat) : Observer :=
  { self with buffer := self.buffer.drop count, consumed := self.consumed + count }

def clearScheduledTimer (self : Observer) (stateKey : String) : Observer :=
  { self with scheduledTimers := self.scheduledTimers.erase stateKey }

def clearReadyMatch (self : Observer) (stateKey : String) : Observer :=
  { self with readyMatches := self.readyMatches.erase stateKey }.clearScheduledTimer stateKey

def clearIntervalState (self : Observer) (stateKey : String) : Observer :=
  { self with
    ownedIntervals := self.ownedIntervals.erase stateKey
    lastFired := self.lastFired.erase stateKey }.clearReadyMatch stateKey

def getRemainingDelay (self : Observer) (rule : CompiledTriggerRule) (now : ℚ) : ℚ :=
  match self.lastFired.get? rule.stateKey with
  | none => 0
  | some lastTime => max 0 (lastTime + rule.intervalMs.getD rule.cooldownMs - now)

def scheduleEvaluation (self : Observer) (rule : CompiledTriggerRule) : Observer :=
  let cleared := self.clearScheduledTimer rule.stateKey
  { cleared with scheduledTimers := cleared.scheduledTimers.add rule.stateKey }

def fireRule (self : Observer) (rule : CompiledTriggerRule) (now : ℚ) : Observer :=
  let fired := { self with lastFired := self.lastFired.set rule.stateKey now }.clearReadyMatch rule.stateKey
  let emptied := if rule.intervalMs.isSome then fired.cut fired.buffer.length else fired
  { emptied with firing := emptied.firing ++ [rule] }

def take (self : Observer) (rule : CompiledTriggerRule) (start stop : Nat) (now : ℚ) : Observer :=
  let match' : Found :=
    { stateKey := rule.stateKey
      start := self.consumed + start
      stop := self.consumed + stop
      fires := rule.intervalMs.isSome || self.getRemainingDelay rule now ≤ 0 }
  { self.cut stop with found := self.found ++ [match'] }

/-- The part of `onOutput` before the evaluation. -/
def receive (self : Observer) (maxBufferLength : Nat) (text : Text) : Observer :=
  let longer :=
    { self with
      buffer := self.buffer ++ strippedOutput text
      output := self.output ++ strippedOutput text }
  longer.cut (longer.buffer.length - maxBufferLength)

def prune (self : Observer) (activeRules : List CompiledTriggerRule) : Observer :=
  let isInterval (key : String) : Bool := activeRules.any fun rule => rule.stateKey == key && rule.intervalMs.isSome
  let known :=
    { self with
      lastFired := (self.lastFired.keys.filter fun key => !activeRules.any (·.stateKey == key)).foldl
        SeqMap.erase self.lastFired }
  let ready := (known.readyMatches.items.filter fun key => !isInterval key).foldl clearIntervalState known
  let owned := (ready.ownedIntervals.items.filter fun key => !isInterval key).foldl clearIntervalState ready
  { owned with scheduledTimers := .empty }

def dispose (self : Observer) : Observer :=
  { self.cut self.buffer.length with
    disposed := true
    lastFired := .empty
    readyMatches := .empty
    ownedIntervals := .empty
    scheduledTimers := .empty }

end Observer

/-- What an evaluation asks outside: the clock, `isActive` of each observer and the script
filter of its session. -/
structure Moment where
  now : ℚ
  active : Nat → Bool
  allowed : Nat → String → Bool

/-- An observer in the middle of an evaluation, with the owners of the intervals. -/
structure Turn where
  observer : Observer
  intervalOwners : SeqMap String Nat
  stop : Bool := false

/-- The guards in front of a rule that leave everything as it is. -/
def passesOver (moment : Moment) (id : Nat) (rule : CompiledTriggerRule) (turn : Turn) : Bool :=
  (rule.triggerScope == some .activeSession && !moment.active id)
    || (rule.triggerScope == some .profile &&
      (!rule.triggerProfileId.any (· ≠ "") || rule.triggerProfileId ≠ turn.observer.profileId))
    || !moment.allowed id rule.stateKey

/-- The rule is an interval rule that runs on another observer. -/
def ownedElsewhere (id : Nat) (rule : CompiledTriggerRule) (turn : Turn) : Bool :=
  rule.intervalMs.isSome && (turn.intervalOwners.get? rule.stateKey).any (· ≠ id)

/-- A rule that can fire does so, or waits: an interval rule for its timer. -/
def fireOrWait (moment : Moment) (rule : CompiledTriggerRule) (turn : Turn) : Turn :=
  if 0 < turn.observer.getRemainingDelay rule moment.now then
    if rule.intervalMs.isSome then { turn with observer := turn.observer.scheduleEvaluation rule } else turn
  else { turn with observer := turn.observer.fireRule rule moment.now, stop := true }

/-- A match: an interval rule takes the interval, and the buffer is cut. -/
def takeMatch (moment : Moment) (id : Nat) (rule : CompiledTriggerRule) (turn : Turn) (start stop : Nat) : Turn :=
  let owner := turn.intervalOwners.get? rule.stateKey
  if rule.intervalMs.isSome && owner.isNone && !moment.active id then turn
  else
    let owned : Turn :=
      if rule.intervalMs.isSome && owner.isNone then
        { turn with
          intervalOwners := turn.intervalOwners.set rule.stateKey id
          observer := { turn.observer with ownedIntervals := turn.observer.ownedIntervals.add rule.stateKey } }
      else turn
    let taken := owned.observer.take rule start stop moment.now
    let ready : Observer :=
      if rule.intervalMs.isSome then { taken with readyMatches := taken.readyMatches.add rule.stateKey } else taken
    fireOrWait moment rule { owned with observer := ready }

/-- One turn of the loop of `evaluate`. -/
def tryRule (disabled : String → Bool) (moment : Moment) (id : Nat) (rule : CompiledTriggerRule) (turn : Turn) :
    Turn :=
  if passesOver moment id rule turn then turn
  else if disabled rule.stateKey then
    if rule.intervalMs.isSome then { turn with observer := turn.observer.clearIntervalState rule.stateKey } else turn
  else if ownedElsewhere id rule turn then turn
  else if rule.intervalMs.isSome && rule.stateKey ∈ turn.observer.readyMatches.items then fireOrWait moment rule turn
  else
    match rule.regex.exec turn.observer.buffer 0 with
    | none => turn
    | some (start, stop) => takeMatch moment id rule turn start stop

def tryRules (disabled : String → Bool) (moment : Moment) (id : Nat) : List CompiledTriggerRule → Turn → Turn
  | [], turn => turn
  | rule :: rest, turn =>
    let next := tryRule disabled moment id rule turn
    if next.stop then next else tryRules disabled moment id rest next

structure MacroAutoTrigger where
  rules : List CompiledTriggerRule := []
  enabled : Bool := true
  defaultCooldownMs : ℚ := defaultTriggerCooldown * 1000
  maxBufferLength : Nat := 2048
  defaultDisabledKeys : SeqSet String := .empty
  ambiguousKeys : List String := []
  disabledKeys : SeqSet String := .empty
  enabledKeys : SeqSet String := .empty
  /-- In the order of creation; a disposed one is in no set of observers. -/
  observers : List Observer := []
  intervalOwners : SeqMap String Nat := .empty
  disposed : Bool := false

namespace MacroAutoTrigger

def isDisabledByKey (self : MacroAutoTrigger) (stateKey : String) : Bool :=
  if stateKey ∈ self.defaultDisabledKeys.items then stateKey ∉ self.enabledKeys.items
  else stateKey ∈ self.disabledKeys.items

/-- `evaluate` of one observer. -/
def evaluate (moment : Moment) (self : MacroAutoTrigger) (id : Nat) : MacroAutoTrigger :=
  match self.observers[id]? with
  | none => self
  | some observer =>
    if observer.disposed || !self.enabled || self.rules.isEmpty then self
    else
      let turn := tryRules self.isDisabledByKey moment id self.rules { observer, intervalOwners := self.intervalOwners }
      { self with observers := self.observers.set id turn.observer, intervalOwners := turn.intervalOwners }

def reevaluateObservers (self : MacroAutoTrigger) (moment : Moment) : MacroAutoTrigger :=
  if !self.enabled || self.rules.isEmpty then self
  else (List.range self.observers.length).foldl (evaluate moment) self

def updateDisabledState (self : MacroAutoTrigger) (stateKey : String) (disabled : Bool) : MacroAutoTrigger :=
  if stateKey ∈ self.defaultDisabledKeys.items then
    { self with enabledKeys := if disabled then self.enabledKeys.erase stateKey else self.enabledKeys.add stateKey }
  else
    { self with disabledKeys := if disabled then self.disabledKeys.add stateKey else self.disabledKeys.erase stateKey }

def mapObservers (self : MacroAutoTrigger) (f : Observer → Observer) : MacroAutoTrigger :=
  { self with observers := self.observers.map fun observer => if observer.disposed then observer else f observer }

def clearIntervalState (self : MacroAutoTrigger) (stateKey : String) : MacroAutoTrigger :=
  { self with intervalOwners := self.intervalOwners.erase stateKey }.mapObservers (·.clearIntervalState stateKey)

def pauseOwnedIntervals (self : MacroAutoTrigger) (owner : Nat) : MacroAutoTrigger :=
  (self.intervalOwners.entries.filter (·.2 == owner)).foldl
    (fun trigger entry => (trigger.updateDisabledState entry.1 true).clearIntervalState entry.1) self

/-- The settings under `nexus.terminal.macros`. -/
structure Settings where
  autoTrigger : Bool := true
  defaultCooldown : StoredNumber := .absent
  bufferLength : StoredNumber := .absent

def pruneState (self : MacroAutoTrigger) (macros : List TriggerMacro) : MacroAutoTrigger :=
  let currentKeys := (macros.map macroStateKey).filter fun key => !self.ambiguousKeys.contains key
  { self with
    disabledKeys := self.disabledKeys.filter fun key =>
      currentKeys.contains key && key ∉ self.defaultDisabledKeys.items
    enabledKeys := self.enabledKeys.filter fun key =>
      currentKeys.contains key && key ∈ self.defaultDisabledKeys.items }

/-- `reload` up to the rules. -/
def compile (env : Platform) (self : MacroAutoTrigger) (settings : Settings) (macros : List TriggerMacro) :
    MacroAutoTrigger :=
  let ambiguousKeys := findAmbiguousMacroStateKeys macros
  let defaultCooldownMs := clampSeconds settings.defaultCooldown defaultTriggerCooldown 0 300 * 1000
  { self with
    enabled := settings.autoTrigger
    defaultCooldownMs
    maxBufferLength := normalizeBoundedNumber settings.bufferLength 2048 256 16384
    ambiguousKeys
    defaultDisabledKeys := .ofList
      ((macros.filter fun entry => isTriggerCandidate ambiguousKeys entry && entry.triggerInitiallyDisabled).map
        macroStateKey)
    rules := macros.filterMap (compileTrigger env defaultCooldownMs ambiguousKeys) }

/-- `reload` up to the evaluation. -/
def recompile (env : Platform) (self : MacroAutoTrigger) (settings : Settings) (macros : List TriggerMacro) :
    MacroAutoTrigger :=
  let previousIntervalKeys := (self.rules.filter (·.intervalMs.isSome)).map (·.stateKey)
  let compiled := self.compile env settings macros
  let pruned := (compiled.pruneState macros).mapObservers (·.prune compiled.rules)
  let goes (key : String) : Bool :=
    !compiled.rules.any (fun rule => rule.stateKey == key && rule.intervalMs.isSome) || pruned.isDisabledByKey key
  let cleared := (previousIntervalKeys.filter goes).foldl clearIntervalState pruned
  let paused := (compiled.rules.filter fun rule =>
    rule.intervalMs.isSome && pruned.isDisabledByKey rule.stateKey).map (·.stateKey)
  paused.foldl clearIntervalState cleared

def reload (env : Platform) (self : MacroAutoTrigger) (settings : Settings) (macros : List TriggerMacro)
    (moment : Moment) : MacroAutoTrigger :=
  (self.recompile env settings macros).reevaluateObservers moment

def setDisabled (self : MacroAutoTrigger) (stateKey : String) (disabled : Bool) (moment : Moment) : MacroAutoTrigger :=
  if self.ambiguousKeys.contains stateKey then self
  else
    let updated := self.updateDisabledState stateKey disabled
    if !disabled then updated.reevaluateObservers moment
    else if self.rules.any fun rule => rule.stateKey == stateKey && rule.intervalMs.isSome then
      updated.clearIntervalState stateKey
    else updated

def createObserver (self : MacroAutoTrigger) (profileId : Option String) : MacroAutoTrigger :=
  { self with observers := self.observers ++ [{ profileId }] }

def onOutput (self : MacroAutoTrigger) (id : Nat) (text : Text) (moment : Moment) : MacroAutoTrigger :=
  match self.observers[id]? with
  | none => self
  | some observer =>
    if observer.disposed || !self.enabled || self.rules.isEmpty then self
    else
      evaluate moment { self with observers := self.observers.set id (observer.receive self.maxBufferLength text) } id

def timerFires (self : MacroAutoTrigger) (id : Nat) (stateKey : String) (moment : Moment) : MacroAutoTrigger :=
  match self.observers[id]? with
  | none => self
  | some observer =>
    if stateKey ∈ observer.scheduledTimers.items then
      evaluate moment { self with observers := self.observers.set id (observer.clearScheduledTimer stateKey) } id
    else self

/-- The `setTimeout` of a fired rule comes due: the text is written. -/
def writeBack (self : MacroAutoTrigger) (id : Nat) : MacroAutoTrigger :=
  match self.observers[id]? with
  | none => self
  | some observer =>
    match observer.firing with
    | [] => self
    | rule :: rest =>
      let withheld := observer.disposed || (rule.intervalMs.isSome &&
        (self.isDisabledByKey rule.stateKey || self.intervalOwners.get? rule.stateKey ≠ some id))
      let written := if withheld then observer.written else observer.written ++ [rule.macroText]
      { self with observers := self.observers.set id { observer with firing := rest, written } }

def pauseIntervalMacros (self : MacroAutoTrigger) (id : Nat) : MacroAutoTrigger :=
  match self.observers[id]? with
  | none => self
  | some observer => if observer.disposed then self else self.pauseOwnedIntervals id

def disposeObserver (self : MacroAutoTrigger) (id : Nat) : MacroAutoTrigger :=
  let paused := self.pauseOwnedIntervals id
  match paused.observers[id]? with
  | none => paused
  | some observer => { paused with observers := paused.observers.set id observer.dispose }

def dispose (self : MacroAutoTrigger) : MacroAutoTrigger :=
  if self.disposed then self
  else
    let gone := ((List.range self.observers.length).filter fun id => (self.observers[id]?).any (!·.disposed)).foldl
      disposeObserver { self with disposed := true }
    { gone with intervalOwners := .empty }

end MacroAutoTrigger

/-- What happens to the triggers, each with the moment at which it does. -/
inductive TriggerAct
  | reload (settings : MacroAutoTrigger.Settings) (macros : List TriggerMacro) (moment : Moment)
  | setDisabled (stateKey : String) (disabled : Bool) (moment : Moment)
  | createObserver (profileId : Option String)
  | output (id : Nat) (text : Text) (moment : Moment)
  | timerFires (id : Nat) (stateKey : String) (moment : Moment)
  | writeBack (id : Nat)
  | reevaluate (moment : Moment)
  | pauseIntervalMacros (id : Nat)
  | disposeObserver (id : Nat)
  | dispose

namespace MacroAutoTrigger

def step (env : Platform) (self : MacroAutoTrigger) : TriggerAct → MacroAutoTrigger
  | .reload settings macros moment => self.reload env settings macros moment
  | .setDisabled stateKey disabled moment => self.setDisabled stateKey disabled moment
  | .createObserver profileId => self.createObserver profileId
  | .output id text moment => self.onOutput id text moment
  | .timerFires id stateKey moment => self.timerFires id stateKey moment
  | .writeBack id => self.writeBack id
  | .reevaluate moment => self.reevaluateObservers moment
  | .pauseIntervalMacros id => self.pauseIntervalMacros id
  | .disposeObserver id => self.disposeObserver id
  | .dispose => self.dispose

def run (env : Platform) (self : MacroAutoTrigger) (acts : List TriggerAct) : MacroAutoTrigger :=
  acts.foldl (step env) self

end MacroAutoTrigger

end NexTerminal.AutoTrigger
