import Mathlib.Algebra.Order.Ring.Rat
import NexTerminal.Library.SeqMap

/-! The manager of local servers (`localServerManager.ts`): sessions by session id,
crash counts and backoff timers by config. Its methods run to their end at once, but for
what stands after an `await`, which is left to a microtask. -/

namespace NexTerminal.LocalServers

open Library

def localServerRestartCeiling : ℚ := 5

/-- The restart policy, as configured or as read from there. -/
structure LocalServerTuning where
  defaultMaxAutoRestarts : ℚ := 5
  stableRuntimeMs : ℚ := 10000
  initialBackoffMs : ℚ := 500
  maxBackoffMs : ℚ := 30000

def readTuning (cfg : LocalServerTuning) : LocalServerTuning :=
  let initial := max 50 cfg.initialBackoffMs
  { defaultMaxAutoRestarts := min localServerRestartCeiling (max 0 cfg.defaultMaxAutoRestarts)
    stableRuntimeMs := max 1000 cfg.stableRuntimeMs
    initialBackoffMs := initial
    maxBackoffMs := max initial cfg.maxBackoffMs }

structure LocalServerConfig where
  id : String
  name : String
  /-- `false` where absent. -/
  autoRestart : Bool
  maxAutoRestarts : Option Nat
deriving DecidableEq

def maxRestarts (config : LocalServerConfig) (tuning : LocalServerTuning) : ℚ :=
  let configured : ℚ :=
    match config.maxAutoRestarts with
    | some number => number
    | none => tuning.defaultMaxAutoRestarts
  min localServerRestartCeiling (max 0 configured)

inductive LocalServerErrorCode
  | serverAlreadyRunning
  | executableNotFound
  | pathOutsideScope
  | workspaceUntrusted
  | serverNotRunning
  | invalidConfiguration
  | cwdNotDirectory
deriving DecidableEq

structure LocalServerError where
  code : LocalServerErrorCode
  message : String
deriving DecidableEq

/-- What the manager reads of its surroundings in one turn. -/
structure Workspace where
  isTrusted : Bool := true
  /-- Why `resolveLocalServerLaunchOptions` throws, where it does. -/
  launchError : LocalServerConfig → Option LocalServerError := fun _ => none
  cfg : LocalServerTuning := {}

inductive LocalServerStatus
  | stopped
  | starting
  | running
  | stopping
  | failed
  | restarting
deriving DecidableEq

structure ActiveLocalServerSession where
  configId : String
  terminalName : String
  status : LocalServerStatus
  restartAttempts : Nat
  /-- Absent before the first exit; the code itself may be unknown. -/
  lastExitCode : Option (Option Int) := none
deriving DecidableEq

structure InternalRunningEntry where
  config : LocalServerConfig
  userInitiatedStop : Bool := false
  stopping : Bool := false
  stableTimer : Bool := false
  stopGraceTimer : Bool := false
  startupCompleted : Bool := false
deriving DecidableEq

def InternalRunningEntry.clearTimers (entry : InternalRunningEntry) : InternalRunningEntry :=
  { entry with stableTimer := false, stopGraceTimer := false }

/-- An exit after which the manager leaves the server down. -/
def InternalRunningEntry.staysDown (entry : InternalRunningEntry) (tuning : LocalServerTuning) : Bool :=
  !entry.config.autoRestart || entry.userInitiatedStop || decide (maxRestarts entry.config tuning = 0)

/-- A backoff timer that runs, with the limit its exit went by. -/
structure Backoff where
  config : LocalServerConfig
  delay : ℚ
  limit : ℚ

inductive Continuation
  /-- `restart`, once `stop` has returned. -/
  | start (config : LocalServerConfig)
  /-- `retryStart`, once `start` has thrown. -/
  | retryFailed (config : LocalServerConfig) (message : String)
deriving DecidableEq

/-- What a watcher sees of a config, newest first in a log. -/
inductive Event
  | asked (configId : String)
  | started (configId : String)
  /-- The session just started is an automatic restart, under a limit. -/
  | restarted (configId : String) (limit : ℚ)
  | stopAsked (configId : String)
  | removed (configId : String)
  | stable (configId : String)
  | disposed
deriving DecidableEq

structure LocalServerManager where
  entries : SeqMap Nat InternalRunningEntry := .empty
  /-- `options.terminals`: the config of each session's terminal. -/
  terminals : SeqMap Nat String := .empty
  restartAttempts : SeqMap String Nat := .empty
  restartTimers : SeqMap String Nat := .empty
  disposed : Bool := false
  backoffs : SeqMap Nat Backoff := .empty
  continuations : List Continuation := []
  /-- The core's sessions and the ids of its local servers. -/
  sessions : SeqMap Nat ActiveLocalServerSession := .empty
  servers : List String
  diagnostics : List String := []
  nextSession : Nat := 0
  nextTimer : Nat := 0
  seen : List Event := []

namespace LocalServerManager

def updateSession (s : LocalServerManager) (sessionId : Nat)
    (change : ActiveLocalServerSession → ActiveLocalServerSession) : LocalServerManager :=
  match s.sessions.get? sessionId with
  | none => s
  | some existing => { s with sessions := s.sessions.set sessionId (change existing) }

def updateLocalServerSessionStatus (s : LocalServerManager) (sessionId : Nat) (status : LocalServerStatus) :
    LocalServerManager :=
  s.updateSession sessionId fun existing => { existing with status := status }

def setLocalServerLastExitCode (s : LocalServerManager) (sessionId : Nat) (exitCode : Option Int) :
    LocalServerManager :=
  s.updateSession sessionId fun existing => { existing with lastExitCode := some exitCode }

def resetLocalServerRestartAttempts (s : LocalServerManager) (sessionId : Nat) : LocalServerManager :=
  s.updateSession sessionId fun existing => { existing with restartAttempts := 0 }

/-- The config and the core's sessions of it go; the manager's own entries stay. -/
def removeLocalServerConfig (s : LocalServerManager) (configId : String) : LocalServerManager :=
  { s with
    servers := s.servers.filter (· ≠ configId)
    sessions := s.sessions.filterValues (·.configId != configId)
    seen := .removed configId :: s.seen }

def attempts (s : LocalServerManager) (configId : String) : Nat := (s.restartAttempts.get? configId).getD 0

def isActive (s : LocalServerManager) (configId : String) (terminal : Nat × String) : Bool :=
  terminal.2 == configId &&
    match s.entries.get? terminal.1 with
    | some running => !running.stopping
    | none => false

def getActiveSessionIdForConfig (s : LocalServerManager) (configId : String) : Option Nat :=
  (s.terminals.entries.find? (s.isActive configId)).map Prod.fst

def deleteAttempts (s : LocalServerManager) (configId : String) : LocalServerManager :=
  { s with restartAttempts := s.restartAttempts.erase configId }

def cancelBackoff (s : LocalServerManager) (configId : String) : LocalServerManager :=
  match s.restartTimers.get? configId with
  | none => s
  | some pending =>
    { s with backoffs := s.backoffs.erase pending, restartTimers := s.restartTimers.erase configId }

def clearHistory (s : LocalServerManager) (configId : String) : LocalServerManager :=
  { (s.deleteAttempts configId).cancelBackoff configId with seen := .asked configId :: s.seen }

/-- The second half of `start`: a terminal, an entry and a session. -/
def launch (s : LocalServerManager) (config : LocalServerConfig) : LocalServerManager :=
  { s with
    entries := s.entries.set s.nextSession { config := config }
    sessions := s.sessions.set s.nextSession
      { configId := config.id, terminalName := "Nexus Local Server: " ++ config.name, status := .starting,
        restartAttempts := s.attempts config.id }
    terminals := s.terminals.set s.nextSession config.id
    nextSession := s.nextSession + 1
    seen := .started config.id :: s.seen }

def start (s : LocalServerManager) (ws : Workspace) (config : LocalServerConfig) (automatic : Bool := false) :
    LocalServerManager × Except LocalServerError Nat :=
  if !ws.isTrusted then
    (s, .error ⟨.workspaceUntrusted,
      "Local Servers require a trusted workspace. Grant trust before starting servers."⟩)
  else
    let s := if automatic then s else s.clearHistory config.id
    match s.getActiveSessionIdForConfig config.id with
    | some _ => (s, .error ⟨.serverAlreadyRunning,
        "Local server \"" ++ config.name ++ "\" is already running. Stop it first."⟩)
    | none =>
      match ws.launchError config with
      | some error => (s, .error error)
      | none => (s.launch config, .ok s.nextSession)

/-- `stop` where the session is there and not yet stopping. -/
def beginStop (s : LocalServerManager) (sessionId : Nat) (entry : InternalRunningEntry)
    (userInitiated : Bool) : LocalServerManager :=
  let stopped := { entry.clearTimers with
    userInitiatedStop := userInitiated, stopping := true, stopGraceTimer := true }
  let s := { s with
    entries := s.entries.set sessionId stopped
    seen := if userInitiated then .stopAsked entry.config.id :: s.seen else s.seen }
  s.updateLocalServerSessionStatus sessionId .stopping

def stop (s : LocalServerManager) (sessionId : Nat) (userInitiated : Bool := true) :
    LocalServerManager × Except LocalServerError Unit :=
  match s.entries.get? sessionId with
  | none => (s, .error ⟨.serverNotRunning, "No running local server session matches this id."⟩)
  | some entry =>
    if entry.stopping then (s, .ok ())
    else (s.beginStop sessionId entry userInitiated, .ok ())

def stopEach (s : LocalServerManager) (userInitiated : Bool) (ids : List Nat) : LocalServerManager :=
  ids.foldl (fun s id => (s.stop id userInitiated).1) s

/-- The sessions that `stopConfig` finds. -/
def sessionsToStop (s : LocalServerManager) (configId : String) : List Nat :=
  (s.terminals.entries.filter fun terminal =>
    terminal.2 == configId && s.entries.has terminal.1).map Prod.fst

def stopConfig (s : LocalServerManager) (configId : String) : LocalServerManager :=
  let s := s.stopEach true (s.sessionsToStop configId)
  { s with seen := .stopAsked configId :: s.seen }

/-- `restart` up to its `await`. -/
def restart (s : LocalServerManager) (ws : Workspace) (config : LocalServerConfig) : LocalServerManager :=
  match s.getActiveSessionIdForConfig config.id with
  | some existing =>
    let s := s.updateLocalServerSessionStatus existing .restarting
    let s := (s.stop existing true).1
    { s with continuations := s.continuations ++ [.start config] }
  | none => (s.start ws config).1

def cleanupSession (s : LocalServerManager) (sessionId : Nat) : LocalServerManager :=
  { s with
    entries := s.entries.erase sessionId
    terminals := s.terminals.erase sessionId
    sessions := s.sessions.erase sessionId }

/-- The end of `handleExit` where the server is to come back. -/
def scheduleRestart (s : LocalServerManager) (config : LocalServerConfig) (tuning : LocalServerTuning) :
    LocalServerManager :=
  let nextAttempts := s.attempts config.id + 1
  let backoff := min (tuning.initialBackoffMs * 2 ^ (nextAttempts - 1)) tuning.maxBackoffMs
  { s with
    restartAttempts := s.restartAttempts.set config.id nextAttempts
    restartTimers := s.restartTimers.set config.id s.nextTimer
    backoffs := s.backoffs.set s.nextTimer ⟨config, backoff, maxRestarts config tuning⟩
    nextTimer := s.nextTimer + 1 }

def diagnose (s : LocalServerManager) (line : String) : LocalServerManager :=
  { s with diagnostics := s.diagnostics ++ [line] }

def giveUp (s : LocalServerManager) (sessionId : Nat) (config : LocalServerConfig) : LocalServerManager :=
  let s := s.updateLocalServerSessionStatus sessionId .failed
  s.diagnose ("[Local Server " ++ config.name ++ "] exited " ++ toString (s.attempts config.id + 1) ++
    " times in a row; auto-restart stopped. Start it again to re-arm.")

def writeExitStatus (s : LocalServerManager) (sessionId : Nat) (config : LocalServerConfig)
    (stopping givingUp : Bool) : LocalServerManager :=
  if givingUp then s.giveUp sessionId config
  else if !stopping then s.updateLocalServerSessionStatus sessionId .restarting
  else s

/-- For the config the session was started with, which its listeners and timers hold. -/
def handleExit (s : LocalServerManager) (ws : Workspace) (sessionId : Nat) (exitCode : Option Int) :
    LocalServerManager :=
  match s.entries.get? sessionId with
  | none => s
  | some entry =>
    let config := entry.config
    let s := s.setLocalServerLastExitCode sessionId exitCode
    let tuning := readTuning ws.cfg
    let stopping := entry.staysDown tuning
    let givingUp := !stopping && decide (maxRestarts config tuning ≤ s.attempts config.id)
    let s := (s.writeExitStatus sessionId config stopping givingUp).cleanupSession sessionId
    if stopping || givingUp then s.deleteAttempts config.id
    else s.scheduleRestart config tuning

def retryStart (s : LocalServerManager) (ws : Workspace) (backoff : Backoff) : LocalServerManager :=
  let config := backoff.config
  if s.disposed then s
  else if config.id ∉ s.servers then s.deleteAttempts config.id
  else
    match s.start ws config true with
    | (s, .ok _) => { s with seen := .restarted config.id backoff.limit :: s.seen }
    | (s, .error error) =>
      { s with continuations := s.continuations ++ [.retryFailed config error.message] }

def backoffFired (s : LocalServerManager) (ws : Workspace) (timer : Nat) : LocalServerManager :=
  match s.backoffs.get? timer with
  | none => s
  | some backoff =>
    retryStart
      { s with
        backoffs := s.backoffs.erase timer
        restartTimers := s.restartTimers.erase backoff.config.id } ws backoff

def startupComplete (s : LocalServerManager) (sessionId : Nat) : LocalServerManager :=
  match s.entries.get? sessionId with
  | none => s
  | some entry =>
    if entry.startupCompleted then s
    else
      let entry := { entry with startupCompleted := true }
      if s.disposed then { s with entries := s.entries.set sessionId entry }
      else
        { s with entries := s.entries.set sessionId { entry with stableTimer := true } }.updateLocalServerSessionStatus
          sessionId .running

def stableFired (s : LocalServerManager) (sessionId : Nat) : LocalServerManager :=
  match s.entries.get? sessionId with
  | none => s
  | some entry =>
    if entry.stableTimer then
      let s := s.resetLocalServerRestartAttempts sessionId
      { s.deleteAttempts entry.config.id with
        entries := s.entries.set sessionId { entry with stableTimer := false }
        seen := .stable entry.config.id :: s.seen }
    else s

def graceFired (s : LocalServerManager) (ws : Workspace) (sessionId : Nat) : LocalServerManager :=
  match s.entries.get? sessionId with
  | none => s
  | some entry => if entry.stopGraceTimer then s.handleExit ws sessionId none else s

def resume (s : LocalServerManager) (ws : Workspace) : LocalServerManager :=
  match s.continuations with
  | [] => s
  | .start config :: rest => (start { s with continuations := rest } ws config).1
  | .retryFailed config message :: rest =>
    let s := diagnose { s with continuations := rest } ("[Local Server retry " ++ config.name ++ "] " ++ message)
    s.deleteAttempts config.id

def dispose (s : LocalServerManager) : LocalServerManager :=
  if s.disposed then s
  else
    let s := stopEach { s with disposed := true } false s.entries.keys
    { s with
      entries := .empty
      backoffs := s.restartTimers.values.foldl (fun running timer => running.erase timer) s.backoffs
      restartTimers := .empty
      restartAttempts := .empty
      seen := .disposed :: s.seen }

end LocalServerManager

inductive Act
  | start (ws : Workspace) (config : LocalServerConfig)
  | stop (sessionId : Nat)
  | stopConfig (configId : String)
  | restart (ws : Workspace) (config : LocalServerConfig)
  | resume (ws : Workspace)
  | exit (ws : Workspace) (sessionId : Nat) (code : Option Int)
  | startupComplete (sessionId : Nat)
  | stable (sessionId : Nat)
  | grace (ws : Workspace) (sessionId : Nat)
  | backoff (ws : Workspace) (timer : Nat)
  | remove (configId : String)
  | dispose

namespace LocalServerManager

def step (s : LocalServerManager) : Act → LocalServerManager
  | .start ws config => (s.start ws config).1
  | .stop sessionId => (s.stop sessionId).1
  | .stopConfig configId => s.stopConfig configId
  | .restart ws config => s.restart ws config
  | .resume ws => s.resume ws
  | .exit ws sessionId code => s.handleExit ws sessionId code
  | .startupComplete sessionId => s.startupComplete sessionId
  | .stable sessionId => s.stableFired sessionId
  | .grace ws sessionId => s.graceFired ws sessionId
  | .backoff ws timer => s.backoffFired ws timer
  | .remove configId => s.removeLocalServerConfig configId
  | .dispose => s.dispose

/-- A manager over a core with these local servers, after these steps. -/
def run (servers : List String) (acts : List Act) : LocalServerManager := acts.foldl step { servers := servers }

end LocalServerManager

/-- The automatic restarts since the user last asked for a start or a run was stable. -/
def streak (configId : String) : List Event → Nat
  | [] => 0
  | .asked other :: older | .stable other :: older => if other = configId then 0 else streak configId older
  | .restarted other _ :: older =>
    if other = configId then streak configId older + 1 else streak configId older
  | _ :: older => streak configId older

/-- The user has stopped or removed the config and asked for no start since. -/
def halted (configId : String) : List Event → Bool
  | [] => false
  | .asked other :: older => if other = configId then false else halted configId older
  | .stopAsked other :: older | .removed other :: older =>
    if other = configId then true else halted configId older
  | _ :: older => halted configId older

def Event.about : Event → Option String
  | .asked configId | .started configId | .restarted configId _ | .stopAsked configId | .removed configId
  | .stable configId => some configId
  | .disposed => none

variable {s next : LocalServerManager} {configId : String}

theorem streak_other {event : Event} (ne : event.about ≠ some configId) (older : List Event) :
    streak configId (event :: older) = streak configId older := by
  cases event <;> simp_all [streak, Event.about]

theorem halted_other {event : Event} (ne : event.about ≠ some configId) (older : List Event) :
    halted configId (event :: older) = halted configId older := by
  cases event <;> simp_all [halted, Event.about]

structure Heeded (seen : List Event) : Prop where
  bounded : ∀ (older : List Event) (configId : String) (limit : ℚ), .restarted configId limit :: older <:+ seen →
    (streak configId older + 1 : ℚ) ≤ limit ∧ limit ≤ localServerRestartCeiling
  resting : ∀ (older : List Event) (configId : String) (limit : ℚ), .restarted configId limit :: older <:+ seen →
    halted configId older = false
  ended : ∀ (older : List Event) (configId : String), .started configId :: older <:+ seen → .disposed ∉ older

theorem Heeded.cons {seen : List Event} {event : Event} (heeded : Heeded seen)
    (restart : ∀ (configId : String) (limit : ℚ), event = .restarted configId limit →
      ((streak configId seen + 1 : ℚ) ≤ limit ∧ limit ≤ localServerRestartCeiling) ∧
        halted configId seen = false)
    (start : ∀ configId : String, event = .started configId → .disposed ∉ seen) : Heeded (event :: seen) := by
  refine ⟨fun older configId limit within => ?_, fun older configId limit within => ?_,
    fun older configId within => ?_⟩
  all_goals obtain here | before := List.suffix_cons_iff.mp within
  · obtain ⟨rfl, rfl⟩ := List.cons.inj here
    exact (restart configId limit rfl).1
  · exact heeded.bounded older configId limit before
  · obtain ⟨rfl, rfl⟩ := List.cons.inj here
    exact (restart configId limit rfl).2
  · exact heeded.resting older configId limit before
  · obtain ⟨rfl, rfl⟩ := List.cons.inj here
    exact start configId rfl
  · exact heeded.ended older configId before

namespace LocalServerManager

def Live (s : LocalServerManager) (configId : String) (sessionId : Nat) : Prop :=
  ∃ entry, s.entries.get? sessionId = some entry ∧ entry.stopping = false ∧ entry.config.id = configId

def Awaits (s : LocalServerManager) (configId : String) (timer : Nat) (backoff : Backoff) : Prop :=
  s.backoffs.get? timer = some backoff ∧ backoff.config.id = configId

structure Idle (s : LocalServerManager) (configId : String) : Prop where
  live : ∀ sessionId, ¬ s.Live configId sessionId
  awaits : ∀ timer backoff, ¬ s.Awaits configId timer backoff

structure Account (s : LocalServerManager) (configId : String) : Prop where
  sole : ∀ one other, s.Live configId one → s.Live configId other → one = other
  apart : ∀ sessionId timer backoff, s.Live configId sessionId → ¬ s.Awaits configId timer backoff
  running : ∀ sessionId, s.Live configId sessionId → streak configId s.seen ≤ s.attempts configId
  waiting : ∀ timer backoff, s.Awaits configId timer backoff →
    streak configId s.seen + 1 ≤ s.attempts configId ∧ (s.attempts configId : ℚ) ≤ backoff.limit
  resting : halted configId s.seen = true → configId ∈ s.servers → s.Idle configId

theorem Idle.account (idle : s.Idle configId) : s.Account configId where
  sole one _ live := absurd live (idle.live one)
  apart sid _ _ live := absurd live (idle.live sid)
  running sid live := absurd live (idle.live sid)
  waiting timer backoff awaits := absurd awaits (idle.awaits timer backoff)
  resting _ _ := idle

structure Carries (s next : LocalServerManager) (configId : String) : Prop where
  live : ∀ sessionId, next.Live configId sessionId → s.Live configId sessionId
  awaits : ∀ timer backoff, next.Awaits configId timer backoff → s.Awaits configId timer backoff
  attempts : next.attempts configId = s.attempts configId
  streak : streak configId next.seen = streak configId s.seen

structure Follows (s next : LocalServerManager) (configId : String) : Prop extends
    Carries s next configId where
  halted : halted configId next.seen = halted configId s.seen
  servers : configId ∈ next.servers → configId ∈ s.servers

theorem Idle.carry (idle : s.Idle configId) (carries : s.Carries next configId) : next.Idle configId where
  live sid live := idle.live sid (carries.live sid live)
  awaits timer backoff awaits := idle.awaits timer backoff (carries.awaits timer backoff awaits)

theorem Account.carry (account : s.Account configId) (carries : s.Carries next configId)
    (resting : halted configId next.seen = true → configId ∈ next.servers → next.Idle configId) :
    next.Account configId where
  sole one other atOne atOther := account.sole one other (carries.live one atOne) (carries.live other atOther)
  apart sid timer backoff live awaits :=
    account.apart sid timer backoff (carries.live sid live) (carries.awaits timer backoff awaits)
  running sid live := by
    rw [carries.streak, carries.attempts]
    exact account.running sid (carries.live sid live)
  waiting timer backoff awaits := by
    rw [carries.streak, carries.attempts]
    exact account.waiting timer backoff (carries.awaits timer backoff awaits)
  resting := resting

theorem Account.follow (account : s.Account configId) (follows : s.Follows next configId) :
    next.Account configId := by
  refine account.carry follows.toCarries fun halted known => ?_
  rw [follows.halted] at halted
  exact (account.resting halted (follows.servers known)).carry follows.toCarries

structure Wired (s : LocalServerManager) : Prop where
  sessions : ∀ sessionId entry, s.entries.get? sessionId = some entry →
    sessionId < s.nextSession ∧ s.terminals.get? sessionId = some entry.config.id ∧
      entry.userInitiatedStop = entry.stopping
  timers : ∀ timer backoff, s.backoffs.get? timer = some backoff →
    timer < s.nextTimer ∧ s.restartTimers.get? backoff.config.id = some timer ∧
      backoff.limit ≤ localServerRestartCeiling
  ended : s.disposed = true → (∀ sessionId, s.entries.get? sessionId = none) ∧
    ∀ timer, s.backoffs.get? timer = none
  marked : .disposed ∈ s.seen → s.disposed = true

structure Sound (s : LocalServerManager) : Prop where
  wired : s.Wired
  account : ∀ configId, s.Account configId
  heeded : Heeded s.seen

/-- A config awaits one restart at a time. -/
theorem Wired.awaits_sole (wired : s.Wired) {one other : Nat} {a b : Backoff}
    (atOne : s.Awaits configId one a) (atOther : s.Awaits configId other b) : one = other := by
  have first := (wired.timers one a atOne.1).2.1
  have second := (wired.timers other b atOther.1).2.1
  rw [atOne.2] at first
  rw [atOther.2, first] at second
  exact Option.some.inj second

theorem Sound.same (inv : s.Sound) (kept : next = { s with
      sessions := next.sessions, diagnostics := next.diagnostics, continuations := next.continuations }) :
    next.Sound := by
  rw [kept]
  refine ⟨{ inv.wired with }, fun configId => ?_, inv.heeded⟩
  exact (inv.account configId).follow
    ⟨⟨fun _ live => live, fun _ _ awaits => awaits, rfl, rfl⟩, rfl, fun known => known⟩

theorem updateSession_same (sid : Nat) (change : ActiveLocalServerSession → ActiveLocalServerSession) :
    s.updateSession sid change = { s with sessions := (s.updateSession sid change).sessions } := by
  unfold updateSession
  split <;> rfl

end LocalServerManager

end NexTerminal.LocalServers
