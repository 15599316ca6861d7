import NexTerminal.Library.SeqMap

/-! The working directory of each session as its shell reports it (`cwdTracker.ts`): a record
that is always current, deliveries to the listeners that are rate limited, and a shutdown of
sessions that report in bursts. -/

namespace NexTerminal.Cwd

open Library

abbrev Text := List Char

inductive CwdSource
  | osc7 | heuristic | probe
deriving DecidableEq, Inhabited

structure CwdRecord where
  sessionId : Text
  serverId : Text
  cwd : Text
  source : CwdSource
  authority : Text
  updatedAt : Int
deriving DecidableEq, Inhabited

/-- What the listeners and the tracker tell values apart by. -/
def CwdRecord.place (record : CwdRecord) : Text × Text := (record.cwd, record.authority)

def CWD_MIN_INTERVAL_MS : Int := 300
def CWD_BURST_RATE_PER_SEC : Nat := 20
def CWD_BURST_SUSTAIN_MS : Nat := 3000
def BURST_TRIP_THRESHOLD : Nat := CWD_BURST_RATE_PER_SEC * CWD_BURST_SUSTAIN_MS / 1000

structure SessionState where
  record : CwdRecord
  authorityStale : Bool
  disabled : Bool
  burstTimestamps : List Int
  lastFiredAt : Int
  pendingFlush : Option Nat := none
deriving DecidableEq, Inhabited

/-- A `setTimeout` that has not fired, with the state object its callback holds on to. -/
structure Timer where
  id : Nat
  ref : Nat
deriving DecidableEq

/-- `states` holds the state objects made so far; a timer may still refer to one the map has let go of. -/
structure CwdTracker where
  states : List SessionState := []
  sessions : SeqMap Text Nat := .empty
  timers : List Timer := []
  nextTimer : Nat := 0

namespace CwdTracker

def state (self : CwdTracker) (ref : Nat) : SessionState := self.states.getD ref default

def put (self : CwdTracker) (ref : Nat) (state : SessionState) : CwdTracker :=
  { self with states := self.states.set ref state }

/-- `this.sessions.set(sessionId, state)` with a new object. -/
def assign (self : CwdTracker) (sessionId : Text) (state : SessionState) : CwdTracker :=
  { self with states := self.states ++ [state], sessions := self.sessions.set sessionId self.states.length }

def clearTimeout (self : CwdTracker) (id : Nat) : CwdTracker :=
  { self with timers := self.timers.filter (·.id ≠ id) }

def setTimeout (self : CwdTracker) (ref : Nat) : CwdTracker :=
  { self with timers := self.timers ++ [Timer.mk self.nextTimer ref], nextTimer := self.nextTimer + 1 }

def clearPendingFlush (self : CwdTracker) (ref : Nat) : CwdTracker :=
  match (self.state ref).pendingFlush with
  | some id => (self.clearTimeout id).put ref { self.state ref with pendingFlush := none }
  | none => self

def schedulePendingFlush (self : CwdTracker) (ref : Nat) : CwdTracker :=
  if (self.state ref).pendingFlush.isSome then self
  else (self.setTimeout ref).put ref { self.state ref with pendingFlush := some self.nextTimer }

/-- The timestamps of the trailing window, with the report made now. -/
def burst (timestamps : List Int) (now : Int) : List Int :=
  (timestamps ++ [now]).dropWhile (· < now - CWD_BURST_SUSTAIN_MS)

/-- The arguments come as a record. Beside the tracker: whether the change was delivered, and to the listeners what.
-/
def report (self : CwdTracker) (record : CwdRecord) : CwdTracker × Bool × List CwdRecord :=
  let now := record.updatedAt
  match self.sessions.get? record.sessionId with
  | none =>
    let burstTimestamps := burst [] now
    if BURST_TRIP_THRESHOLD < burstTimestamps.length then
      (self.assign record.sessionId
        { record, authorityStale := false, disabled := true, burstTimestamps, lastFiredAt := now }, false, [record])
    else
      (self.assign record.sessionId
        { record, authorityStale := false, disabled := false, burstTimestamps, lastFiredAt := now }, true, [record])
  | some ref =>
    let existing := self.state ref
    if existing.disabled then (self, false, [])
    else
      let burstTimestamps := burst existing.burstTimestamps now
      if BURST_TRIP_THRESHOLD < burstTimestamps.length then
        ((self.clearPendingFlush ref).assign record.sessionId
          { record := existing.record, authorityStale := existing.authorityStale, disabled := true,
            burstTimestamps, lastFiredAt := now }, false, [existing.record])
      else if existing.record.cwd = record.cwd ∧ existing.record.authority = record.authority then
        -- a heartbeat
        (self.put ref { existing with
          record := { existing.record with source := record.source, updatedAt := now }, burstTimestamps }, false, [])
      else
        let changed := { existing with
          record, burstTimestamps
          authorityStale := existing.authorityStale || existing.record.authority != record.authority }
        if CWD_MIN_INTERVAL_MS ≤ now - existing.lastFiredAt then
          (((self.put ref changed).clearPendingFlush ref).put ref
            { changed with pendingFlush := none, lastFiredAt := now }, true, [record])
        else ((self.put ref changed).schedulePendingFlush ref, false, [])

def getRecord (self : CwdTracker) (sessionId : Text) : Option CwdRecord :=
  (self.sessions.get? sessionId).map fun ref => (self.state ref).record

def isDisabled (self : CwdTracker) (sessionId : Text) : Bool :=
  ((self.sessions.get? sessionId).map fun ref => (self.state ref).disabled).getD false

def reenable (self : CwdTracker) (sessionId : Text) : CwdTracker :=
  match self.sessions.get? sessionId with
  | none => self
  | some ref =>
    let cleared := self.clearPendingFlush ref
    cleared.put ref { cleared.state ref with disabled := false, burstTimestamps := [] }

def clear (self : CwdTracker) (sessionId : Text) : CwdTracker :=
  match self.sessions.get? sessionId with
  | none => self
  | some ref => { self.clearPendingFlush ref with sessions := (self.clearPendingFlush ref).sessions.erase sessionId }

/-- The timer with the id fires, if it has not been cleared. -/
def flush (self : CwdTracker) (id : Nat) : CwdTracker × List CwdRecord :=
  match self.timers.find? (·.id = id) with
  | none => (self, [])
  | some timer =>
    let state := { self.state timer.ref with pendingFlush := none }
    let fired := (self.clearTimeout id).put timer.ref state
    if state.disabled then (fired, [])
    else (fired.put timer.ref { state with lastFiredAt := state.lastFiredAt + CWD_MIN_INTERVAL_MS }, [state.record])

end CwdTracker

end NexTerminal.Cwd
