import NexTerminal.Library.Text
import NexTerminal.Library.Utf16

/-! The serial ports that Smart Follow chooses among (`smartSerialPty.ts`). -/

namespace NexTerminal.Serial

open Library

structure SerialDeviceHint where
  manufacturer : Option String := none
  serialNumber : Option String := none
  vendorId : Option String := none
  productId : Option String := none
deriving DecidableEq

structure SerialPortInfo where
  path : String
  manufacturer : Option String := none
  serialNumber : Option String := none
  vendorId : Option String := none
  productId : Option String := none
deriving DecidableEq

inductive SerialParity
  | none | even | odd | mark | space
deriving DecidableEq

def toParityCode : SerialParity → String
  | .even => "E"
  | .odd => "O"
  | .mark => "M"
  | .space => "S"
  | .none => "N"

structure SerialProfile where
  name : String
  path : String
  baudRate : Nat
  dataBits : Nat
  stopBits : Nat
  parity : SerialParity
  deviceHint : Option SerialDeviceHint := none

/-- What the platform decides: whether paths differ by case, and the lower case of a text. -/
structure Platform where
  win32 : Bool
  toLowerCase : String → String

def Platform.normalizePortPath (env : Platform) (path : String) : String :=
  if env.win32 then env.toLowerCase path else path

def Platform.isSerialRuntimeMissingError (env : Platform) (message : String) : Bool :=
  includes (env.toLowerCase message) "serialport module not installed" ||
    includes (env.toLowerCase message) "cannot find module 'serialport'"

def given (field : Option String) : Bool := field.any (· ≠ "")

def SerialDeviceHint.identifies (hint : SerialDeviceHint) : Bool :=
  given hint.manufacturer || given hint.serialNumber || given hint.vendorId || given hint.productId

def mergeDeviceHint (existing : Option SerialDeviceHint) (port : Option SerialPortInfo) : Option SerialDeviceHint :=
  let next : SerialDeviceHint :=
    { manufacturer := port.bind (·.manufacturer) <|> existing.bind (·.manufacturer)
      serialNumber := port.bind (·.serialNumber) <|> existing.bind (·.serialNumber)
      vendorId := port.bind (·.vendorId) <|> existing.bind (·.vendorId)
      productId := port.bind (·.productId) <|> existing.bind (·.productId) }
  if next.identifies then some next else none

def matchesDeviceHint (port : SerialPortInfo) : Option SerialDeviceHint → Bool
  | none => false
  | some hint =>
    hint.identifies &&
      (hint.manufacturer.isNone || port.manufacturer == hint.manufacturer) &&
      (hint.serialNumber.isNone || port.serialNumber == hint.serialNumber) &&
      (hint.vendorId.isNone || port.vendorId == hint.vendorId) &&
      (hint.productId.isNone || port.productId == hint.productId)

inductive PreferredStatus
  | missing | busy
deriving DecidableEq

def PreferredStatus.text : PreferredStatus → String
  | .missing => "missing"
  | .busy => "busy"

def sortedPaths (ports : List SerialPortInfo) : List String :=
  (ports.map (·.path)).mergeSort fun first second =>
    encodeUtf16 first.toList ≤ encodeUtf16 second.toList

def buildCandidateKey (status : PreferredStatus) (hintMatches others : List SerialPortInfo) : String :=
  status.text ++ "|h:" ++ ",".intercalate (sortedPaths hintMatches) ++ "|o:" ++ ",".intercalate (sortedPaths others)

/-- The ports other than the preferred one that nobody holds: those that match the saved
device, and the others. -/
def candidates (env : Platform) (preferredPath : String) (deviceHint : Option SerialDeviceHint)
    (busy : List String) (ports : List SerialPortInfo) : List SerialPortInfo × List SerialPortInfo :=
  let free := ports.filter fun port =>
    env.normalizePortPath port.path ≠ env.normalizePortPath preferredPath &&
      !busy.contains (env.normalizePortPath port.path)
  let hintMatches := free.filter (matchesDeviceHint · deviceHint)
  (hintMatches, free.filter fun port => !hintMatches.contains port)

end NexTerminal.Serial

/-! The Smart Follow terminal (`smartSerialPty.ts`). A call of `ensureConnected` is
suspended at its awaits, and anything else may happen before it goes on. Session ids are
never empty texts, so that an id is there exactly when it is truthy. -/

namespace NexTerminal.Serial

open Library

variable {Id : Type} [DecidableEq Id]

inductive Reason
  | initial | poll | disconnect
deriving DecidableEq

/-- A call of `ensureConnected`, with the preferred path that it found. -/
structure Round where
  reason : Reason
  previousPreferredPath : String

/-- The port that `tryOpen` is called with, and what its caller needs if that fails. -/
inductive Attempt
  | direct (preferred : SerialPortInfo) (ports : List SerialPortInfo) (busy : List String)
  | hint (hintPort : SerialPortInfo) (otherCandidates : List SerialPortInfo)
  | picked (port : SerialPortInfo)

def Attempt.port : Attempt → SerialPortInfo
  | .direct preferred _ _ => preferred
  | .hint hintPort _ => hintPort
  | .picked port => port

def Attempt.note : Attempt → Option String
  | .hint _ _ => some "Matched saved device metadata."
  | _ => none

inductive OpenResult
  | connected
  | failed (message : String)

/-- Where `ensureConnected` is suspended. -/
inductive Await
  | listPorts (round : Round)
  | openPort (round : Round) (attempt : Attempt)
  /-- The terminal was disposed meanwhile, and `tryOpen` closes what it opened. -/
  | closePort (round : Round) (attempt : Attempt)
  /-- `tryOpen` has returned to its caller. -/
  | tried (round : Round) (attempt : Attempt) (result : OpenResult)
  | promptPortChoice (round : Round) (preferredStatus : PreferredStatus) (candidateKey : String)
  | onResolvedPort (round : Round) (path : String) (firstConnection : Bool) (note : Option String)

inductive SerialSessionStatus
  | connected | waiting
deriving DecidableEq

/-- What the terminal writes and the callbacks that it calls. -/
inductive Output (Id : Type)
  | text (data : String)
  | sessionChanged (sessionId : Option Id)
  | activePortChanged (path : Option String)
  | resolvedPort (path : String) (deviceHint : Option SerialDeviceHint)
  | stateChanged (status : SerialSessionStatus)
  | fatalError (message : String)
  | closed

structure SmartSerialPty (Id : Type) where
  profile : SerialProfile
  transportSessionId : Option Id := none
  currentPath : Option String := none
  preferredPath : String
  deviceHint : Option SerialDeviceHint
  disposed : Bool := false
  waiting : Bool := false
  connecting : Bool := false
  prompting : Bool := false
  stopped : Bool := false
  hasEverConnected : Bool := false
  lastWaitingKey : Option String := none
  lastPromptedKey : Option String := none
  lastStoppedHintAt : Nat := 0
  pollTimer : Bool := false
  inputBlocked : Bool := false
  noticeArmed : Bool := true
  started : Bool := false
  awaiting : Option Await := none
  writes : List Id := []
  outputs : List (Output Id) := []
  /-- The sessions `openPort` returned, those reported gone, and those `closePort` was called on. -/
  opened : List Id := []
  disconnected : List Id := []
  unknown : List Id := []
  closed : List Id := []
  /-- The sessions held when the terminal was marked as shutting down. -/
  shutDown : List Id := []

def STOPPED_INPUT_HINT_INTERVAL_MS : Nat := 1000

def INPUT_LOCKED_NOTICE : String :=
  "\r\n[Nexus] Terminal is locked while a script is running. Stop the script to send input.\r\n"

namespace SmartSerialPty

def create (profile : SerialProfile) : SmartSerialPty Id :=
  { profile, preferredPath := profile.path, deviceHint := profile.deviceHint }

def emit (pty : SmartSerialPty Id) (outputs : List (Output Id)) : SmartSerialPty Id :=
  { pty with outputs := pty.outputs ++ outputs }

def writeBanner (pty : SmartSerialPty Id) (message : String) : SmartSerialPty Id :=
  pty.emit [.text ("\r\n[Nexus Smart Follow] " ++ message ++ "\r\n")]

/-- `ensureConnected` returns. -/
def leave (pty : SmartSerialPty Id) : SmartSerialPty Id := { pty with awaiting := none, connecting := false }

def suspend (pty : SmartSerialPty Id) (await : Await) : SmartSerialPty Id := { pty with awaiting := some await }

def enterWaiting (pty : SmartSerialPty Id) (message key : String) : SmartSerialPty Id :=
  if pty.stopped then pty
  else
    let pty := emit { pty with waiting := true, currentPath := none, pollTimer := true } [.stateChanged .waiting]
    if pty.lastWaitingKey = some key then pty
    else writeBanner { pty with lastWaitingKey := some key } message

def enterStopped (pty : SmartSerialPty Id) (message : String) : SmartSerialPty Id :=
  if pty.disposed || pty.stopped then pty
  else
    let pty :=
      { pty with
        stopped := true
        pollTimer := false
        waiting := false
        currentPath := none
        transportSessionId := none }
    ((pty.emit [.sessionChanged none, .activePortChanged none]).writeBanner
      (message ++ " Close this terminal to exit.")).emit [.stateChanged .waiting, .fatalError message]

def handleTransportDisconnect (pty : SmartSerialPty Id) (reason : String) : SmartSerialPty Id :=
  if pty.disposed || pty.stopped then pty
  else
    let lostPath := pty.currentPath.getD pty.preferredPath
    let pty := { pty with transportSessionId := none, currentPath := none, lastPromptedKey := none }
    (pty.emit [.sessionChanged none, .activePortChanged none]).enterWaiting
      ("Port " ++ lostPath ++ " disconnected. Smart Follow is waiting for it or a safe replacement port to appear.")
      ("disconnect:" ++ lostPath ++ ":" ++ reason)

/-- `handleConnected` as far as its await. -/
def handleConnected (pty : SmartSerialPty Id) (round : Round) (attempt : Attempt) : SmartSerialPty Id :=
  let path := attempt.port.path
  let deviceHint := mergeDeviceHint pty.deviceHint (some attempt.port)
  let connected :=
    { pty with
      pollTimer := false
      waiting := false
      stopped := false
      lastWaitingKey := none
      lastPromptedKey := none
      currentPath := some path
      preferredPath := path
      deviceHint
      hasEverConnected := true }
  (connected.emit [.activePortChanged (some path), .resolvedPort path deviceHint]).suspend
    (.onResolvedPort round path (!pty.hasEverConnected) attempt.note)

def framing (profile : SerialProfile) : String :=
  toString profile.dataBits ++ toParityCode profile.parity ++ toString profile.stopBits

/-- The rest of `handleConnected`, and of `ensureConnected` with it. -/
def portResolved (pty : SmartSerialPty Id) : SmartSerialPty Id :=
  match pty.awaiting with
  | some (.onResolvedPort round path firstConnection note) =>
    let atRate := path ++ " @ " ++ toString pty.profile.baudRate ++ " (" ++ framing pty.profile ++ ")."
    let message :=
      if path ≠ round.previousPreferredPath then
        "Connected " ++ atRate ++ " Preferred port updated from " ++ round.previousPreferredPath ++ " to " ++
          path ++ "." ++ (note.map (" " ++ ·)).getD ""
      else if firstConnection ∧ round.reason = .initial then "Connected " ++ atRate
      else "Reattached " ++ atRate
    ((pty.emit [.stateChanged .connected]).writeBanner message).leave
  | _ => pty

/-- Nothing to offer, the same offer as the last time, or the picker. -/
def offer (pty : SmartSerialPty Id) (round : Round) (preferredStatus : PreferredStatus)
    (promptHintMatches otherCandidates : List SerialPortInfo) : SmartSerialPty Id :=
  let path := round.previousPreferredPath
  if promptHintMatches.isEmpty && otherCandidates.isEmpty then
    match preferredStatus with
    | .missing =>
      (pty.enterWaiting ("Preferred port " ++ path ++
        " is missing. Smart Follow is waiting for it or a safe replacement.") ("missing:" ++ path)).leave
    | .busy =>
      (pty.enterWaiting ("Preferred port " ++ path ++
        " is busy. Smart Follow is waiting for it to free up.") ("busy:" ++ path)).leave
  else
    let candidateKey := buildCandidateKey preferredStatus promptHintMatches otherCandidates
    if pty.lastPromptedKey = some candidateKey then
      match preferredStatus with
      | .missing =>
        (pty.enterWaiting "Smart Follow is waiting (you dismissed the picker for the current port set)."
          ("waiting-after-prompt:" ++ candidateKey)).leave
      | .busy =>
        (pty.enterWaiting ("Smart Follow is waiting for " ++ path ++ " to free up (you dismissed the picker).")
          ("waiting-after-prompt:" ++ candidateKey)).leave
    else
      suspend { pty with lastPromptedKey := some candidateKey, prompting := true }
        (.promptPortChoice round preferredStatus candidateKey)

/-- What is left of a round whose preferred port is not to be had. -/
def seekCandidates (env : Platform) (pty : SmartSerialPty Id) (round : Round)
    (preferredStatus : PreferredStatus) (busy : List String) (ports : List SerialPortInfo) : SmartSerialPty Id :=
  let (hintMatches, otherCandidates) := candidates env round.previousPreferredPath pty.deviceHint busy ports
  match preferredStatus, hintMatches with
  | .missing, [hintPort] => pty.suspend (.openPort round (.hint hintPort otherCandidates))
  | .missing, _ =>
    pty.offer round .missing (if 2 ≤ hintMatches.length then hintMatches else []) otherCandidates
  | .busy, _ => pty.offer round .busy hintMatches otherCandidates

def runtimeMissing (message : String) : String := "Serial runtime missing or incompatible: " ++ message

def ensureConnected (pty : SmartSerialPty Id) (reason : Reason) : SmartSerialPty Id :=
  if pty.disposed || pty.stopped || pty.connecting || pty.prompting then pty
  else suspend { pty with connecting := true } (.listPorts ⟨reason, pty.preferredPath⟩)

/-- `listPorts` has settled; `busy` is what `getBusyPaths` returns then. -/
def portsListed (env : Platform) (pty : SmartSerialPty Id) (result : Except String (List SerialPortInfo))
    (busy : List String) : SmartSerialPty Id :=
  match pty.awaiting with
  | some (.listPorts round) =>
    if pty.disposed || pty.stopped then pty.leave
    else
      match result with
      | .error message =>
        if env.isSerialRuntimeMissingError message then (pty.enterStopped (runtimeMissing message)).leave
        else
          (pty.enterWaiting ("Unable to list serial ports: " ++ message ++ ". Smart Follow will retry.")
            ("list-fail:" ++ message)).leave
      | .ok ports =>
        let normalizedPreferred := env.normalizePortPath round.previousPreferredPath
        match ports.find? fun port => env.normalizePortPath port.path = normalizedPreferred with
        | none => pty.seekCandidates env round .missing busy ports
        | some preferred =>
          if busy.contains (env.normalizePortPath preferred.path) then
            pty.seekCandidates env round .busy busy ports
          else pty.suspend (.openPort round (.direct preferred ports busy))
  | _ => pty

/-- `openPort` has settled, in `tryOpen`. -/
def portOpened (pty : SmartSerialPty Id) (result : Except String Id) : SmartSerialPty Id :=
  match pty.awaiting with
  | some (.openPort round attempt) =>
    match result with
    | .error message => pty.suspend (.tried round attempt (.failed message))
    | .ok sessionId =>
      let pty := { pty with opened := pty.opened ++ [sessionId] }
      if pty.disposed then suspend { pty with closed := pty.closed ++ [sessionId] } (.closePort round attempt)
      else
        (emit { pty with transportSessionId := some sessionId } [.sessionChanged (some sessionId)]).suspend
          (.tried round attempt .connected)
  | _ => pty

/-- The `closePort` of `tryOpen` has settled. -/
def portClosed (pty : SmartSerialPty Id) (result : Except String Unit) : SmartSerialPty Id :=
  match pty.awaiting with
  | some (.closePort round attempt) =>
    match result with
    | .ok () => pty.suspend (.tried round attempt (.failed "terminal disposed"))
    | .error message => pty.suspend (.tried round attempt (.failed message))
  | _ => pty

/-- `ensureConnected` goes on after `tryOpen`. -/
def openTried (env : Platform) (pty : SmartSerialPty Id) : SmartSerialPty Id :=
  match pty.awaiting with
  | some (.tried round attempt result) =>
    if pty.disposed || pty.stopped then pty.leave
    else
      match result with
      | .connected => pty.handleConnected round attempt
      | .failed message =>
        if env.isSerialRuntimeMissingError message then (pty.enterStopped (runtimeMissing message)).leave
        else
          match attempt with
          | .direct preferred ports busy =>
            (pty.writeBanner ("Preferred port " ++ preferred.path ++ " could not be opened: " ++ message ++
              ". Smart Follow will look for alternatives.")).seekCandidates env round .busy
                (busy ++ [env.normalizePortPath preferred.path]) ports
          | .hint hintPort otherCandidates =>
            (pty.writeBanner ("Hint-matched port " ++ hintPort.path ++ " could not be opened: " ++ message ++
              ". Smart Follow will keep trying.")).offer round .missing [] otherCandidates
          | .picked port =>
            ((pty.writeBanner ("Could not open " ++ port.path ++ ": " ++ message ++
              ". Smart Follow will keep trying.")).enterWaiting
                ("Open failed for " ++ port.path ++ ": " ++ message)
                ("open-fail:" ++ port.path ++ ":" ++ message)).leave
  | _ => pty

/-- The picker has settled: on a port, on waiting, or with an error, which is as good. -/
def portChosen (pty : SmartSerialPty Id) (choice : Except String (Option SerialPortInfo)) : SmartSerialPty Id :=
  match pty.awaiting with
  | some (.promptPortChoice round _ candidateKey) =>
    let pty := { pty with prompting := false }
    if pty.disposed || pty.stopped then pty.leave
    else
      match choice with
      | .ok (some port) => pty.suspend (.openPort round (.picked port))
      | _ =>
        (pty.enterWaiting
          "Smart Follow is waiting (picker dismissed). The picker will reappear when the available ports change."
          ("waiting-after-prompt:" ++ candidateKey)).leave
  | _ => pty

def start (pty : SmartSerialPty Id) : SmartSerialPty Id :=
  if pty.started then pty
  else
    ({ pty with started := true }.writeBanner
      ("Smart Follow is active. Preferred port " ++ pty.preferredPath ++ ".")).ensureConnected .initial

def pollTick (pty : SmartSerialPty Id) : SmartSerialPty Id :=
  if pty.pollTimer then pty.ensureConnected .poll else pty

def transportDisconnected (pty : SmartSerialPty Id) (sessionId : Id) (reason : String) : SmartSerialPty Id :=
  let pty := { pty with disconnected := pty.disconnected ++ [sessionId] }
  if pty.disposed || some sessionId ≠ pty.transportSessionId then pty else pty.handleTransportDisconnect reason

def transportError (pty : SmartSerialPty Id) (sessionId : Id) (message : String) : SmartSerialPty Id :=
  if pty.disposed || some sessionId ≠ pty.transportSessionId then pty
  else pty.emit [.text ("\r\n[Nexus Serial Error] " ++ message ++ "\r\n")]

def setInputBlocked (pty : SmartSerialPty Id) (blocked : Bool) : SmartSerialPty Id :=
  { pty with inputBlocked := blocked, noticeArmed := pty.noticeArmed || blocked }

def handleInput (pty : SmartSerialPty Id) (now : Nat) : SmartSerialPty Id :=
  if pty.inputBlocked then
    if pty.noticeArmed then emit { pty with noticeArmed := false } [.text INPUT_LOCKED_NOTICE] else pty
  else if pty.stopped then
    if STOPPED_INPUT_HINT_INTERVAL_MS ≤ now - pty.lastStoppedHintAt then
      emit { pty with lastStoppedHintAt := now }
        [.text "\r\n[Nexus Smart Follow] Session stopped. Close the terminal to exit.\r\n"]
    else pty
  else { pty with writes := pty.writes ++ pty.transportSessionId.toList }

/-- The transport does not know the session that was written to. -/
def isUnknownSession (message : String) : Bool := includes message "unknown serial session"

/-- A write to a session has settled, whatever the session is by now. -/
def writeSettled (pty : SmartSerialPty Id) (sessionId : Id) (error : Option String) : SmartSerialPty Id :=
  if sessionId ∈ pty.writes then
    let pty := { pty with writes := pty.writes.erase sessionId }
    match error with
    | none => pty
    | some message =>
      if isUnknownSession message then
        handleTransportDisconnect { pty with unknown := pty.unknown ++ [sessionId] } "Port no longer available"
      else pty.emit [.text ("\r\n[Nexus Serial Error] " ++ message ++ "\r\n")]
  else pty

def markShuttingDown (pty : SmartSerialPty Id) (reason : String) : SmartSerialPty Id :=
  if pty.disposed || pty.stopped then pty
  else
    emit
      { pty with
        stopped := true
        pollTimer := false
        waiting := false
        currentPath := none
        transportSessionId := none
        shutDown := pty.shutDown ++ pty.transportSessionId.toList }
      [.sessionChanged none, .activePortChanged none, .text ("\r\n\r\n[Nexus Smart Follow] " ++ reason ++ "\r\n"),
        .text "[Nexus Smart Follow] Close this terminal and reopen Smart Follow to reconnect.\r\n"]

def dispose (pty : SmartSerialPty Id) : SmartSerialPty Id :=
  if pty.disposed then pty
  else
    emit
      { pty with
        disposed := true
        pollTimer := false
        transportSessionId := none
        closed := pty.closed ++ pty.transportSessionId.toList }
      [.sessionChanged none, .activePortChanged none, .closed]

end SmartSerialPty

inductive SmartAct (Id : Type)
  | start
  | pollTick
  | portsListed (result : Except String (List SerialPortInfo)) (busy : List String)
  | portOpened (result : Except String Id)
  | portClosed (result : Except String Unit)
  | openTried
  | portChosen (choice : Except String (Option SerialPortInfo))
  | portResolved
  | transportDisconnected (sessionId : Id) (reason : String)
  | transportError (sessionId : Id) (message : String)
  | setInputBlocked (blocked : Bool)
  | handleInput (now : Nat)
  | writeSettled (sessionId : Id) (error : Option String)
  | markShuttingDown (reason : String)
  | dispose

namespace SmartSerialPty

def step (env : Platform) (pty : SmartSerialPty Id) : SmartAct Id → SmartSerialPty Id
  | .start => pty.start
  | .pollTick => pty.pollTick
  | .portsListed result busy => pty.portsListed env result busy
  | .portOpened result => pty.portOpened result
  | .portClosed result => pty.portClosed result
  | .openTried => pty.openTried env
  | .portChosen choice => pty.portChosen choice
  | .portResolved => pty.portResolved
  | .transportDisconnected sessionId reason => pty.transportDisconnected sessionId reason
  | .transportError sessionId message => pty.transportError sessionId message
  | .setInputBlocked blocked => pty.setInputBlocked blocked
  | .handleInput now => pty.handleInput now
  | .writeSettled sessionId error => pty.writeSettled sessionId error
  | .markShuttingDown reason => pty.markShuttingDown reason
  | .dispose => pty.dispose

def run (env : Platform) (pty : SmartSerialPty Id) (acts : List (SmartAct Id)) : SmartSerialPty Id :=
  acts.foldl (step env) pty

end SmartSerialPty

end NexTerminal.Serial
