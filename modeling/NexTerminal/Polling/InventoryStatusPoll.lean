import Mathlib.Algebra.Order.Ring.Rat
import Mathlib.Logic.Function.Basic
import NexTerminal.Library.SeqMap

/-! The poll of the inventory sources' status (`inventoryStatusPoll.ts`): one schedule a
source, whose timer runs at the warm delay until a fire has run. A call of `fire` is on a
stack while it lasts, for it may change the view, the sources or the poll itself. -/

namespace NexTerminal.Polling

open Library

structure InventoryStatusPollSource where
  id : String
  intervalSeconds : Option ℚ
  incarnation : Option String
deriving DecidableEq

namespace InventoryStatusPollSource

def seconds (source : InventoryStatusPollSource) : ℚ := source.intervalSeconds.getD 0

def polled (source : InventoryStatusPollSource) : Bool := decide (0 < source.seconds)

end InventoryStatusPollSource

def desiredOf (sources : List InventoryStatusPollSource) : SeqMap String InventoryStatusPollSource :=
  sources.foldl (fun desired source => if source.polled then desired.set source.id source else desired) .empty

def warmInitialDelaySeconds : ℚ := 5

inductive WarmState
  | warming
  | steady
deriving DecidableEq

/-- What `setInterval` returned, and the seconds it was given. -/
structure Timer where
  handle : Nat
  period : ℚ
deriving DecidableEq

/-- Live scheduling state for one source, `id`, for which its timer fires. -/
structure SourceSchedule where
  id : String
  timer : Option Timer := none
  seconds : ℚ
  armedPeriodSeconds : ℚ := 0
  inFlight : Bool := false
  state : WarmState := .warming
  warmDelaySeconds : ℚ := warmInitialDelaySeconds
  armedIncarnation : Option String
  armingSerial : Nat := 0
deriving DecidableEq

namespace SourceSchedule

def disarm (schedule : SourceSchedule) : SourceSchedule := { schedule with timer := none }

def effectivePeriodSeconds (schedule : SourceSchedule) : ℚ :=
  match schedule.state with
  | .steady => schedule.seconds
  | .warming => min schedule.warmDelaySeconds schedule.seconds

def freshen (schedule : SourceSchedule) (incarnation : Option String) : SourceSchedule :=
  { schedule with
    armedIncarnation := incarnation
    state := .warming
    warmDelaySeconds := warmInitialDelaySeconds
    armingSerial := schedule.armingSerial + 1 }

end SourceSchedule

/-- One call of `fire`, with what the tick captured before it. -/
structure Fire where
  id : String
  schedule : Nat
  dispatchedFor : Option String
  dispatchedUnderArming : Nat
  viaTimer : Bool
deriving DecidableEq

/-- A call of `fire` under way: a timer's, or that of a re-evaluation with sources yet
to come. -/
inductive Call
  | timer (fire : Fire)
  | arm (fire : Fire) (rest : List InventoryStatusPollSource)
deriving DecidableEq

def Call.fire : Call → Fire
  | timer fire | arm fire _ => fire

inductive Outcome
  | ran
  | declined
  | rejected
deriving DecidableEq

inductive Event
  | armed (id : String) (incarnation : Option String)
  /-- A fire for this incarnation settled other than by a decline. -/
  | ran (id : String) (incarnation : Option String)
deriving DecidableEq

structure InventoryStatusPoll where
  /-- The view's visibility and the list of sources, as they are. -/
  view : Bool
  sources : List InventoryStatusPollSource
  visible : Bool := false
  schedules : SeqMap String Nat := .empty
  objects : Nat → SourceSchedule := fun _ => { id := "", seconds := 0, armedIncarnation := none }
  nextSchedule : Nat := 0
  nextTimer : Nat := 0
  /-- The calls of `fire` that have not returned, innermost first. -/
  calls : List Call := []
  sweeps : SeqMap Nat Fire := .empty
  nextSweep : Nat := 0
  subscribed : Bool := false
  disposed : Bool := false
  reevaluations : Nat := 0
  log : List Event := []

namespace InventoryStatusPoll

def modify (s : InventoryStatusPoll) (schedule : Nat) (change : SourceSchedule → SourceSchedule) :
    InventoryStatusPoll :=
  { s with objects := Function.update s.objects schedule (change (s.objects schedule)) }

/-- Makes the timer match the schedule's state, and leaves it alone where it does. -/
def syncTimer (s : InventoryStatusPoll) (schedule : Nat) : InventoryStatusPoll :=
  let period := (s.objects schedule).effectivePeriodSeconds
  if (s.objects schedule).timer.isSome && decide ((s.objects schedule).armedPeriodSeconds = period) then s
  else
    { s.modify schedule fun schedule =>
        { schedule with armedPeriodSeconds := period, timer := some ⟨s.nextTimer, period⟩ } with
      nextTimer := s.nextTimer + 1 }

def dispatch (s : InventoryStatusPoll) (schedule : Nat) (viaTimer : Bool) : Fire where
  id := (s.objects schedule).id
  schedule := schedule
  dispatchedFor := (s.objects schedule).armedIncarnation
  dispatchedUnderArming := (s.objects schedule).armingSerial
  viaTimer := viaTimer

/-- A tick once `fire` has returned a promise, or something else. -/
def returned (s : InventoryStatusPoll) (fire : Fire) (promise : Bool) : InventoryStatusPoll :=
  if promise then
    { s.modify fire.schedule fun schedule => { schedule with inFlight := true } with
      sweeps := s.sweeps.set s.nextSweep fire
      nextSweep := s.nextSweep + 1 }
  else
    { (s.modify fire.schedule fun schedule => { schedule with state := .steady }).syncTimer fire.schedule with
      log := .ran fire.id fire.dispatchedFor :: s.log }

def desired (s : InventoryStatusPoll) : SeqMap String InventoryStatusPollSource :=
  if s.visible then desiredOf s.sources else .empty

def retireOne (s : InventoryStatusPoll) (id : String) (schedule : Nat) : InventoryStatusPoll :=
  let s := s.modify schedule SourceSchedule.disarm
  if (s.objects schedule).inFlight then s else { s with schedules := s.schedules.erase id }

def retire (s : InventoryStatusPoll) (desired : SeqMap String InventoryStatusPollSource) : InventoryStatusPoll :=
  s.schedules.entries.foldl
    (fun s entry => if desired.has entry.1 then s else s.retireOne entry.1 entry.2) s

def scheduleFor (s : InventoryStatusPoll) (source : InventoryStatusPollSource) : InventoryStatusPoll × Nat :=
  match s.schedules.get? source.id with
  | some schedule => (s, schedule)
  | none =>
    ({ s with
      schedules := s.schedules.set source.id s.nextSchedule
      objects := Function.update s.objects s.nextSchedule
        { id := source.id, seconds := source.seconds, armedIncarnation := source.incarnation }
      nextSchedule := s.nextSchedule + 1 }, s.nextSchedule)

def freshArming (s : InventoryStatusPoll) (schedule : Nat) (source : InventoryStatusPollSource) : Bool :=
  (s.objects schedule).timer.isNone || decide ((s.objects schedule).armedIncarnation ≠ source.incarnation)

def retune (s : InventoryStatusPoll) (schedule : Nat) (source : InventoryStatusPollSource) : InventoryStatusPoll :=
  s.modify schedule fun schedule => { schedule with seconds := source.seconds }

def freshen (s : InventoryStatusPoll) (schedule : Nat) (source : InventoryStatusPollSource) : InventoryStatusPoll :=
  { s.modify schedule fun schedule => schedule.freshen source.incarnation with
    log := .armed source.id source.incarnation :: s.log }

/-- The loop over what should run, up to the next fire or to its end. -/
def arm : List InventoryStatusPollSource → InventoryStatusPoll → InventoryStatusPoll
  | [], s => { s with reevaluations := s.reevaluations + 1 }
  | source :: rest, s =>
    let (s, schedule) := s.scheduleFor source
    if s.freshArming schedule source then
      let s := (s.retune schedule source).freshen schedule source
      -- A held latch swallows the tick.
      if (s.objects schedule).inFlight then arm rest (s.syncTimer schedule)
      else { s with calls := .arm (s.dispatch schedule false) rest :: s.calls }
    else arm rest ((s.retune schedule source).syncTimer schedule)

def reevaluate (s : InventoryStatusPoll) : InventoryStatusPoll := arm s.desired.values (s.retire s.desired)

/-- The poll subscribes once its first re-evaluation is over. -/
def subscribe (s : InventoryStatusPoll) : InventoryStatusPoll :=
  if s.calls.isEmpty then { s with subscribed := true } else s

def start (view : Bool) (sources : List InventoryStatusPollSource) : InventoryStatusPoll :=
  (reevaluate { view := view, sources := sources, visible := view }).subscribe

def changeView (s : InventoryStatusPoll) (view : Bool) : InventoryStatusPoll :=
  if s.subscribed && !s.disposed then reevaluate { s with view := view, visible := view }
  else { s with view := view }

def changeSources (s : InventoryStatusPoll) (sources : List InventoryStatusPollSource) : InventoryStatusPoll :=
  if s.subscribed && !s.disposed then reevaluate { s with sources := sources }
  else { s with sources := sources }

def tick (s : InventoryStatusPoll) (schedule : Nat) : InventoryStatusPoll :=
  if s.calls.isEmpty && (s.objects schedule).timer.isSome && !(s.objects schedule).inFlight then
    { s with calls := .timer (s.dispatch schedule true) :: s.calls }
  else s

/-- The innermost call of `fire` returns. -/
def fireReturns (s : InventoryStatusPoll) (promise : Bool) : InventoryStatusPoll :=
  match s.calls with
  | [] => s
  | .timer fire :: calls => subscribe (returned { s with calls := calls } fire promise)
  | .arm fire rest :: calls =>
    subscribe (arm rest ((returned { s with calls := calls } fire promise).syncTimer fire.schedule))

/-- What `release` does for a schedule that is still the source's. -/
def concluded (s : InventoryStatusPoll) (fire : Fire) (outcome : Outcome) : InventoryStatusPoll :=
  let schedule := s.objects fire.schedule
  if schedule.timer.isNone then { s with schedules := s.schedules.erase fire.id }
  else if outcome ≠ .declined then
    if schedule.armedIncarnation = fire.dispatchedFor then
      (s.modify fire.schedule fun schedule => { schedule with state := .steady }).syncTimer fire.schedule
    else s
  else if schedule.armingSerial = fire.dispatchedUnderArming ∧ schedule.state = .warming then
    if fire.viaTimer then
      (s.modify fire.schedule fun schedule =>
        { schedule with warmDelaySeconds := schedule.warmDelaySeconds * 2 }).syncTimer fire.schedule
    else s.syncTimer fire.schedule
  else s

def release (s : InventoryStatusPoll) (fire : Fire) (outcome : Outcome) : InventoryStatusPoll :=
  let s := s.modify fire.schedule fun schedule => { schedule with inFlight := false }
  if s.schedules.get? fire.id = some fire.schedule then s.concluded fire outcome else s

def settle (s : InventoryStatusPoll) (sweep : Nat) (outcome : Outcome) : InventoryStatusPoll :=
  if s.calls.isEmpty then
    match s.sweeps.get? sweep with
    | none => s
    | some fire =>
      let s := { s with
        sweeps := s.sweeps.erase sweep
        log := if outcome = Outcome.declined then s.log else .ran fire.id fire.dispatchedFor :: s.log }
      s.release fire outcome
  else s

/-- There is nothing to dispose of before the poll has started. -/
def dispose (s : InventoryStatusPoll) : InventoryStatusPoll :=
  if s.subscribed then
    { s.schedules.values.foldl (fun s schedule => s.modify schedule SourceSchedule.disarm) s with
      schedules := .empty
      disposed := true }
  else s

inductive Act
  | view (visible : Bool)
  | sources (sources : List InventoryStatusPollSource)
  | tick (schedule : Nat)
  | fireReturns (promise : Bool)
  | settle (sweep : Nat) (outcome : Outcome)
  | dispose

def step (s : InventoryStatusPoll) : Act → InventoryStatusPoll
  | .view visible => s.changeView visible
  | .sources sources => s.changeSources sources
  | .tick schedule => s.tick schedule
  | .fireReturns promise => s.fireReturns promise
  | .settle sweep outcome => s.settle sweep outcome
  | .dispose => s.dispose

def run (view : Bool) (sources : List InventoryStatusPollSource) (acts : List Act) : InventoryStatusPoll :=
  acts.foldl step (start view sources)

end InventoryStatusPoll

/-- Since the source was last armed, a fire for this incarnation has run. -/
def hasRun (id : String) (incarnation : Option String) : List Event → Bool
  | [] => false
  | .armed other _ :: older => if other = id then false else hasRun id incarnation older
  | .ran other served :: older =>
    if other = id ∧ served = incarnation then true else hasRun id incarnation older

def SourceSchedule.timed (schedule : SourceSchedule) (timer : Timer) : SourceSchedule :=
  { schedule with armedPeriodSeconds := schedule.effectivePeriodSeconds, timer := some timer }

namespace InventoryStatusPoll

variable {s next : InventoryStatusPoll} {id : String} {schedule : Nat}
  {todo : List InventoryStatusPollSource} {source : InventoryStatusPollSource}

/-- The sources with a live timer, if the poll does what it is for. -/
def wanted (s : InventoryStatusPoll) : SeqMap String InventoryStatusPollSource :=
  if s.view && !s.disposed then desiredOf s.sources else .empty

/-- The schedule is the source's own, not one that was dropped. -/
def Attached (s : InventoryStatusPoll) (id : String) (schedule : Nat) : Prop := s.schedules.get? id = some schedule

structure Base (s : InventoryStatusPoll) : Prop where
  named : ∀ id schedule, s.Attached id schedule → (s.objects schedule).id = id ∧ schedule < s.nextSchedule
  held : ∀ schedule, (s.objects schedule).timer ≠ none → s.Attached (s.objects schedule).id schedule
  period : ∀ schedule timer, (s.objects schedule).timer = some timer →
    timer.period = (s.objects schedule).armedPeriodSeconds
  swept : ∀ sweep fire, s.sweeps.get? sweep = some fire → sweep < s.nextSweep ∧
    fire.schedule < s.nextSchedule ∧ fire.id = (s.objects fire.schedule).id ∧
      (s.objects fire.schedule).inFlight = true
  sweptOnce : ∀ one other a b, s.sweeps.get? one = some a → s.sweeps.get? other = some b →
    a.schedule = b.schedule → one = other
  called : ∀ call ∈ s.calls, call.fire.schedule < s.nextSchedule ∧
    call.fire.id = (s.objects call.fire.schedule).id ∧ (s.objects call.fire.schedule).inFlight = false
  calledOnce : (s.calls.map fun call => call.fire.schedule).Nodup
  ran : ∀ id schedule, s.Attached id schedule → (s.objects schedule).timer ≠ none →
    ((s.objects schedule).state = .steady ↔ hasRun id (s.objects schedule).armedIncarnation s.log = true)
  ended : s.disposed = true → ∀ id schedule, ¬ s.Attached id schedule

/-- The source's timer runs, at the period and for the incarnation that are its own. -/
def Armed (s : InventoryStatusPoll) (id : String) (source : InventoryStatusPollSource) : Prop :=
  ∃ schedule, s.Attached id schedule ∧ (s.objects schedule).timer ≠ none ∧
    (s.objects schedule).armedPeriodSeconds = (s.objects schedule).effectivePeriodSeconds ∧
    (s.objects schedule).seconds = source.seconds ∧
    (s.objects schedule).armedIncarnation = source.incarnation

/-- No timer for an id that is not wanted, and the right one for an id that is. -/
def Right (s : InventoryStatusPoll) (id : String) : Prop :=
  match s.wanted.get? id with
  | none => ∀ schedule, s.Attached id schedule → (s.objects schedule).timer = none
  | some source => s.Armed id source

/-- While the fire is out, its schedule stays armed as it was, or is dropped. -/
def Steadfast (s : InventoryStatusPoll) (fire : Fire) : Prop :=
  s.Attached fire.id fire.schedule → (s.objects fire.schedule).timer ≠ none ∧
    (s.objects fire.schedule).armedIncarnation = fire.dispatchedFor ∧
    ∃ source, s.wanted.get? fire.id = some source ∧ source.incarnation = fire.dispatchedFor

/-- The invariant within a re-evaluation that has `todo` before it, under these calls. -/
structure Sound (s : InventoryStatusPoll) (calls : List Call) (todo : List InventoryStatusPollSource) :
    Prop where
  base : s.Base
  right : ∀ id, id ∉ todo.map (·.id) → s.Right id
  listed : ∀ source ∈ todo, s.wanted.get? source.id = some source
  apart : (todo.map (·.id)).Nodup
  steadfast : ∀ call ∈ calls, s.Steadfast call.fire
  rests : ∀ fire rest, .arm fire rest ∈ calls → (rest.map (·.id)).Nodup
  seen : s.disposed = true ∨ s.visible = s.view

/-- The innermost call is a re-evaluation's, which waits for its first word on `source`. -/
structure Firing (s : InventoryStatusPoll) (fire : Fire) (rest : List InventoryStatusPollSource)
    (below : List Call) (source : InventoryStatusPollSource) : Prop where
  calls : s.calls = .arm fire rest :: below
  sound : s.Sound below (source :: rest)
  own : fire.id = source.id
  attached : s.Attached fire.id fire.schedule
  seconds : (s.objects fire.schedule).seconds = source.seconds
  incarnation : (s.objects fire.schedule).armedIncarnation = source.incarnation
  dispatched : fire.dispatchedFor = source.incarnation
  warming : (s.objects fire.schedule).state = .warming
  fresh : hasRun source.id source.incarnation s.log = false

def Kept (s : InventoryStatusPoll) : Prop :=
  s.Sound s.calls [] ∨ ∃ fire rest below source, s.Firing fire rest below source

theorem Base.distinct (base : s.Base) {other : String} {own : Nat} (attached : s.Attached id schedule)
    (ne : s.Attached other own) (differ : other ≠ id) : own ≠ schedule := by
  rintro rfl
  exact differ ((base.named other own ne).1.symm.trans (base.named id own attached).1)

def touch (s : InventoryStatusPoll) (schedule : Nat) (changed : SourceSchedule) (log : List Event)
    (nextTimer : Nat) : InventoryStatusPoll :=
  { s with objects := Function.update s.objects schedule changed, log := log, nextTimer := nextTimer }

variable {changed : SourceSchedule} {log : List Event} {nextTimer : Nat}

/-- A change that the invariant of all schedules has room for. -/
structure Fits (s : InventoryStatusPoll) (id : String) (schedule : Nat) (changed : SourceSchedule)
    (log : List Event) : Prop where
  attached : s.Attached id schedule
  named : changed.id = id
  flight : changed.inFlight = (s.objects schedule).inFlight
  period : ∀ timer, changed.timer = some timer → timer.period = changed.armedPeriodSeconds
  ran : changed.timer ≠ none → (changed.state = .steady ↔ hasRun id changed.armedIncarnation log = true)
  others : ∀ other incarnation, other ≠ id → hasRun other incarnation log = hasRun other incarnation s.log

theorem objects_touch_self : (s.touch schedule changed log nextTimer).objects schedule = changed :=
  Function.update_self ..

theorem objects_touch_of_ne {other : Nat} (differ : other ≠ schedule) :
    (s.touch schedule changed log nextTimer).objects other = s.objects other :=
  Function.update_of_ne differ ..

theorem Base.touch (base : s.Base) (fits : s.Fits id schedule changed log) :
    (s.touch schedule changed log nextTimer).Base := by
  have named : ∀ other, ((s.touch schedule changed log nextTimer).objects other).id = (s.objects other).id := by
    intro other
    by_cases own : other = schedule
    · subst own
      rw [objects_touch_self, fits.named, (base.named id other fits.attached).1]
    · rw [objects_touch_of_ne own]
  have flight : ∀ other,
      ((s.touch schedule changed log nextTimer).objects other).inFlight = (s.objects other).inFlight := by
    intro other
    by_cases own : other = schedule
    · subst own
      rw [objects_touch_self, fits.flight]
    · rw [objects_touch_of_ne own]
  refine ⟨fun other one attached => ?_, fun other armed => ?_, fun other timer armed => ?_,
    fun sweep fire hit => ?_, base.sweptOnce, fun call out => ?_, base.calledOnce,
    fun other one attached armed => ?_, base.ended⟩
  · rw [named]
    exact base.named other one attached
  · rw [named]
    by_cases own : other = schedule
    · subst own
      rw [(base.named id other fits.attached).1]
      exact fits.attached
    · rw [objects_touch_of_ne own] at armed
      exact base.held other armed
  · by_cases own : other = schedule
    · subst own
      rw [objects_touch_self] at armed ⊢
      exact fits.period timer armed
    · rw [objects_touch_of_ne own] at armed ⊢
      exact base.period other timer armed
  · rw [named, flight]
    exact base.swept sweep fire hit
  · rw [named, flight]
    exact base.called call out
  · by_cases same : other = id
    · subst same
      obtain rfl : schedule = one := Option.mem_unique fits.attached attached
      rw [objects_touch_self] at armed ⊢
      exact fits.ran armed
    · have differ := base.distinct fits.attached attached same
      rw [objects_touch_of_ne differ] at armed ⊢
      refine (base.ran other one attached armed).trans ?_
      rw [InventoryStatusPoll.touch, fits.others other _ same]

theorem right_touch_of_ne (base : s.Base) (attached : s.Attached id schedule) {other : String}
    (differ : other ≠ id) : (s.touch schedule changed log nextTimer).Right other ↔ s.Right other := by
  have objects : ∀ one, s.Attached other one →
      (s.touch schedule changed log nextTimer).objects one = s.objects one :=
    fun one ne => objects_touch_of_ne (base.distinct attached ne differ)
  have same : (s.touch schedule changed log nextTimer).wanted = s.wanted := rfl
  unfold Right
  rw [same]
  cases hit : s.wanted.get? other with
  | none =>
    refine forall_congr' fun one => imp_congr_right fun ne => ?_
    rw [objects one ne]
  | some source =>
    refine exists_congr fun one => and_congr_right fun ne => ?_
    rw [objects one ne]

theorem syncTimer_touch (period : ∀ timer, changed.timer = some timer → timer.period = changed.armedPeriodSeconds) :
    ∃ timer next, timer.period = changed.effectivePeriodSeconds ∧
      (s.touch schedule changed log nextTimer).syncTimer schedule =
        s.touch schedule (changed.timed timer) log next := by
  unfold syncTimer
  rw [objects_touch_self]
  dsimp only
  split
  · rename_i kept
    rw [Bool.and_eq_true, decide_eq_true_eq, Option.isSome_iff_exists] at kept
    obtain ⟨⟨timer, set⟩, same⟩ := kept
    refine ⟨timer, nextTimer, (period timer set).trans same, ?_⟩
    rw [SourceSchedule.timed, ← same, ← set]
  · refine ⟨⟨nextTimer, changed.effectivePeriodSeconds⟩, nextTimer + 1, rfl, ?_⟩
    unfold modify touch SourceSchedule.timed
    dsimp only
    rw [Function.update_self, Function.update_idem]

/-- One source's timer is put right. -/
theorem Sound.timed {calls : List Call} {rest : List InventoryStatusPollSource} {timer : Timer}
    (sound : s.Sound calls todo) (period : timer.period = changed.effectivePeriodSeconds)
    (attached : s.Attached id schedule) (named : changed.id = id)
    (flight : changed.inFlight = (s.objects schedule).inFlight)
    (ran : changed.state = .steady ↔ hasRun id changed.armedIncarnation log = true)
    (others : ∀ other incarnation, other ≠ id → hasRun other incarnation log = hasRun other incarnation s.log)
    (wanted : s.wanted.get? id = some source) (seconds : changed.seconds = source.seconds)
    (incarnation : changed.armedIncarnation = source.incarnation) (shorter : rest.Sublist todo)
    (done : ∀ other, other ∉ rest.map (·.id) → other ≠ id → other ∉ todo.map (·.id)) :
    (s.touch schedule (changed.timed timer) log nextTimer).Sound calls rest := by
  have fits : s.Fits id schedule (changed.timed timer) log :=
    ⟨attached, named, flight, fun _ set => Option.some.inj set ▸ period, fun _ => ran, others⟩
  refine ⟨sound.base.touch fits, fun other late => ?_, fun one mem => sound.listed one (shorter.subset mem),
    sound.apart.sublist (shorter.map _), fun call out ne => ?_, sound.rests, sound.seen⟩
  · by_cases same : other = id
    · subst same
      unfold Right
      rw [show (s.touch schedule (changed.timed timer) log nextTimer).wanted = s.wanted from rfl, wanted]
      refine ⟨schedule, attached, ?_⟩
      rw [objects_touch_self]
      exact ⟨nofun, rfl, seconds, incarnation⟩
    · exact (right_touch_of_ne sound.base attached same).mpr (sound.right other (done other late same))
  · obtain ⟨armed, stamped, own, hit, served⟩ := sound.steadfast call out ne
    by_cases same : call.fire.id = id
    · obtain rfl : schedule = call.fire.schedule := by
        rw [same] at ne
        exact Option.mem_unique attached ne
      rw [same, wanted] at hit
      cases hit
      rw [objects_touch_self]
      exact ⟨nofun, incarnation.trans served, source, same ▸ wanted, served⟩
    · rw [objects_touch_of_ne (sound.base.distinct attached ne same)]
      exact ⟨armed, stamped, own, hit, served⟩

end InventoryStatusPoll

end NexTerminal.Polling
