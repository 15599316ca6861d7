import NexTerminal.Polling.InventoryStatusPoll

namespace NexTerminal.Polling

open Library

theorem hasRun_armed (id : String) (incarnation other : Option String) (log : List Event) :
    hasRun id incarnation (.armed id other :: log) = false := if_pos rfl

theorem hasRun_armed_of_ne {id other : String} (differ : other ≠ id) (incarnation served : Option String)
    (log : List Event) : hasRun other incarnation (.armed id served :: log) = hasRun other incarnation log :=
  if_neg (Ne.symm differ)

theorem hasRun_ran (id : String) (incarnation : Option String) (log : List Event) :
    hasRun id incarnation (.ran id incarnation :: log) = true := if_pos ⟨rfl, rfl⟩

theorem hasRun_ran_of_ne {id other : String} {incarnation served : Option String}
    (differ : ¬ (id = other ∧ served = incarnation)) (log : List Event) :
    hasRun other incarnation (.ran id served :: log) = hasRun other incarnation log := if_neg differ

theorem desiredOf_id {sources : List InventoryStatusPollSource} {id : String}
    {source : InventoryStatusPollSource} (hit : (desiredOf sources).get? id = some source) : source.id = id := by
  have kept : ∀ (sources : List InventoryStatusPollSource)
      (pre : SeqMap String InventoryStatusPollSource),
      (∀ id source, pre.get? id = some source → source.id = id) →
      ∀ id source, (sources.foldl (fun desired source =>
        if source.polled then desired.set source.id source else desired) pre).get? id = some source →
      source.id = id := by
    intro sources
    induction sources with
    | nil => exact fun _ own => own
    | cons head tail ih =>
      intro pre own
      refine ih _ fun id source hit => ?_
      dsimp only at hit
      split at hit
      · rw [SeqMap.get?_set] at hit
        split at hit
        · rename_i same
          cases hit
          exact same
        · exact own id source hit
      · exact own id source hit
  exact kept sources .empty (by rintro _ _ ⟨⟩) id source hit

namespace InventoryStatusPoll

variable {s next : InventoryStatusPoll} {id : String} {schedule : Nat}
  {rest todo : List InventoryStatusPollSource} {source : InventoryStatusPollSource} {calls below : List Call}

theorem modify_eq_touch (schedule : Nat) (change : SourceSchedule → SourceSchedule) :
    s.modify schedule change = s.touch schedule (change (s.objects schedule)) s.log s.nextTimer := rfl

theorem touch_touch (first changed : SourceSchedule) (old log : List Event) (pre after : Nat) :
    (s.touch schedule first old pre).touch schedule changed log after = s.touch schedule changed log after := by
  unfold touch
  rw [Function.update_idem]

theorem Sound.scheduleFor (sound : s.Sound calls (source :: rest)) (outside : s.disposed = false)
    (under : ∀ call ∈ calls, call.fire.schedule < s.nextSchedule) :
    (s.scheduleFor source).1.Sound calls (source :: rest) ∧
      (s.scheduleFor source).1.Attached source.id (s.scheduleFor source).2 ∧
      (s.scheduleFor source).1.calls = s.calls ∧ (s.scheduleFor source).1.reevaluations = s.reevaluations ∧
      (s.scheduleFor source).1.disposed = s.disposed := by
  have base := sound.base
  unfold InventoryStatusPoll.scheduleFor
  split
  · rename_i schedule hit
    exact ⟨sound, hit, rfl, rfl, rfl⟩
  · rename_i absent
    refine ⟨?_, by unfold Attached; rw [SeqMap.get?_set, if_pos rfl], rfl, rfl, rfl⟩
    generalize shape : ({ s with
      schedules := s.schedules.set source.id s.nextSchedule
      objects := Function.update s.objects s.nextSchedule
        { id := source.id, seconds := source.seconds, armedIncarnation := source.incarnation }
      nextSchedule := s.nextSchedule + 1 } : InventoryStatusPoll) = made
    have schedules : made.schedules = s.schedules.set source.id s.nextSchedule := by rw [← shape]
    have new : made.objects s.nextSchedule =
        { id := source.id, seconds := source.seconds, armedIncarnation := source.incarnation } := by
      rw [← shape]
      exact Function.update_self ..
    have old : ∀ one, one ≠ s.nextSchedule → made.objects one = s.objects one := by
      intro one differ
      rw [← shape]
      exact Function.update_of_ne differ ..
    have known : ∀ one, one < s.nextSchedule → made.objects one = s.objects one :=
      fun one small => old one small.ne
    have attached : ∀ other one, made.Attached other one →
        (other = source.id ∧ one = s.nextSchedule) ∨ (other ≠ source.id ∧ s.Attached other one) := by
      intro other one ne
      unfold Attached at ne
      rw [schedules, SeqMap.get?_set] at ne
      split at ne
      · rename_i same
        exact .inl ⟨same.symm, (Option.some.inj ne).symm⟩
      · rename_i differ
        exact .inr ⟨Ne.symm differ, ne⟩
    have back : ∀ other one, s.Attached other one → made.Attached other one := by
      intro other one ne
      unfold Attached
      rw [schedules, SeqMap.get?_set, if_neg]
      · exact ne
      · rintro rfl
        cases absent.symm.trans ne
    have wanted : made.wanted = s.wanted := by rw [← shape]; rfl
    subst shape
    refine ⟨⟨fun other one ne => ?_, fun one armed => ?_, fun one timer armed => ?_, fun sweep fire hit => ?_,
      base.sweptOnce, fun call out => ?_, base.calledOnce, fun other one ne armed => ?_,
      fun ended => absurd (outside.symm.trans ended) Bool.false_ne_true⟩, fun other late => ?_, ?_, sound.apart,
      fun call out ne => ?_, sound.rests, sound.seen⟩
    · obtain ⟨rfl, rfl⟩ | ⟨-, pre⟩ := attached other one ne
      · rw [new]
        exact ⟨rfl, Nat.lt_succ_self _⟩
      · obtain ⟨named, small⟩ := base.named other one pre
        rw [known one small]
        exact ⟨named, Nat.lt_succ_of_lt small⟩
    · by_cases own : one = s.nextSchedule
      · rw [own, new] at armed
        exact absurd rfl armed
      · rw [old one own] at armed ⊢
        exact back _ one (base.held one armed)
    · by_cases own : one = s.nextSchedule
      · rw [own, new] at armed
        cases armed
      · rw [old one own] at armed ⊢
        exact base.period one timer armed
    · obtain ⟨drawn, small, named, flight⟩ := base.swept sweep fire hit
      rw [known _ small]
      exact ⟨drawn, Nat.lt_succ_of_lt small, named, flight⟩
    · obtain ⟨small, named, flight⟩ := base.called call out
      rw [known _ small]
      exact ⟨Nat.lt_succ_of_lt small, named, flight⟩
    · obtain ⟨rfl, rfl⟩ | ⟨-, pre⟩ := attached other one ne
      · rw [new] at armed
        exact absurd rfl armed
      · rw [known one (base.named other one pre).2] at armed ⊢
        exact base.ran other one pre armed
    · have differ : other ≠ source.id := fun same => late (by rw [same]; exact List.mem_cons_self ..)
      have pre := sound.right other late
      unfold Right at pre ⊢
      rw [wanted]
      cases hit : s.wanted.get? other with
      | none =>
        rw [hit] at pre
        intro one ne
        obtain ⟨same, -⟩ | ⟨-, earlier⟩ := attached other one ne
        · exact absurd same differ
        · rw [known one (base.named other one earlier).2]
          exact pre one earlier
      | some wants =>
        rw [hit] at pre
        obtain ⟨one, ne, right⟩ := pre
        refine ⟨one, back other one ne, ?_⟩
        rw [known one (base.named other one ne).2]
        exact right
    · exact sound.listed
    · have small := under call out
      obtain ⟨-, same⟩ | ⟨-, pre⟩ := attached _ _ ne
      · exact absurd same small.ne
      · rw [known _ small, wanted]
        exact sound.steadfast call out pre

def Resumed (s next : InventoryStatusPoll) : Prop :=
  (next.Sound next.calls [] ∧ next.reevaluations = s.reevaluations + 1) ∨
    ((∃ fire rest below source, next.Firing fire rest below source) ∧ next.reevaluations = s.reevaluations)

theorem Resumed.kept (resumed : s.Resumed next) : next.Kept :=
  resumed.elim (fun ended => .inl ended.1) fun fires => .inr fires.1

theorem Sound.undisturbed (sound : s.Sound s.calls todo) (attached : s.Attached id schedule)
    (wanted : s.wanted.get? id = some source) (fresh : s.freshArming schedule source = true) :
    ∀ call ∈ s.calls, call.fire.schedule ≠ schedule := by
  intro call out same
  have named := (sound.base.called call out).2.1
  rw [same, (sound.base.named id schedule attached).1] at named
  obtain ⟨armed, stamped, own, hit, served⟩ := sound.steadfast call out (by rw [named, same]; exact attached)
  rw [named, wanted] at hit
  cases hit
  rw [same] at armed stamped
  rw [freshArming, Bool.or_eq_true, decide_eq_true_eq, Option.isNone_iff_eq_none] at fresh
  exact fresh.elim armed fun changed => changed (stamped.trans served.symm)

def stamped (s : InventoryStatusPoll) (schedule : Nat) (source : InventoryStatusPollSource) : SourceSchedule :=
  SourceSchedule.freshen { s.objects schedule with seconds := source.seconds } source.incarnation

theorem retune_eq_touch (schedule : Nat) (source : InventoryStatusPollSource) :
    s.retune schedule source = s.touch schedule { s.objects schedule with seconds := source.seconds } s.log
      s.nextTimer := rfl

theorem freshen_retune (schedule : Nat) (source : InventoryStatusPollSource) :
    (s.retune schedule source).freshen schedule source = s.touch schedule (s.stamped schedule source)
      (.armed source.id source.incarnation :: s.log) s.nextTimer := by
  rw [retune_eq_touch, freshen, modify_eq_touch, objects_touch_self, touch_touch]
  rfl

def fired (s : InventoryStatusPoll) (schedule : Nat) (source : InventoryStatusPollSource)
    (rest : List InventoryStatusPollSource) : InventoryStatusPoll :=
  let armed := s.touch schedule (s.stamped schedule source) (.armed source.id source.incarnation :: s.log) s.nextTimer
  { armed with calls := .arm (armed.dispatch schedule false) rest :: armed.calls }

theorem objects_fired : (s.fired schedule source rest).objects schedule = s.stamped schedule source :=
  Function.update_self ..

theorem Sound.fired (sound : s.Sound s.calls (source :: rest)) (attached : s.Attached source.id schedule)
    (fresh : s.freshArming schedule source = true) (released : (s.objects schedule).inFlight = false) :
    ∃ fire, (s.fired schedule source rest).Firing fire rest s.calls source := by
  have wanted := sound.listed source (List.mem_cons_self ..)
  have alone := sound.undisturbed attached wanted fresh
  have named := sound.base.named source.id schedule attached
  have fits : s.Fits source.id schedule (s.stamped schedule source)
      (.armed source.id source.incarnation :: s.log) := by
    refine ⟨attached, named.1, rfl, sound.base.period schedule, fun _ => ?_,
      fun other incarnation differ => hasRun_armed_of_ne differ incarnation _ _⟩
    rw [hasRun_armed]
    exact ⟨nofun, nofun⟩
  have base : (s.touch schedule (s.stamped schedule source) (.armed source.id source.incarnation :: s.log)
      s.nextTimer).Base := sound.base.touch fits
  let fire : Fire :=
    ⟨source.id, schedule, source.incarnation, (s.objects schedule).armingSerial + 1, false⟩
  have dispatched : (s.touch schedule (s.stamped schedule source) (.armed source.id source.incarnation :: s.log)
      s.nextTimer).dispatch schedule false = fire := by
    have own : (s.stamped schedule source).id = source.id := named.1
    rw [dispatch, objects_touch_self, own]
    rfl
  have calls : (s.fired schedule source rest).calls = .arm fire rest :: s.calls := by
    unfold InventoryStatusPoll.fired
    dsimp only
    rw [dispatched]
    rfl
  refine ⟨fire, calls, ⟨{ base with
    called := fun call out => ?_, calledOnce := ?_ }, fun other late => ?_, sound.listed, sound.apart,
      fun call out ne => ?_, sound.rests, sound.seen⟩, rfl, attached, ?_, ?_, rfl, ?_, hasRun_armed _ _ _ _⟩
  · rw [calls] at out
    obtain rfl | below := List.mem_cons.mp out
    · change schedule < s.nextSchedule ∧ source.id = ((s.fired schedule source rest).objects schedule).id ∧
        ((s.fired schedule source rest).objects schedule).inFlight = false
      rw [objects_fired]
      exact ⟨named.2, named.1.symm, released⟩
    · exact base.called call below
  · rw [calls, List.map_cons, List.nodup_cons]
    refine ⟨fun below => ?_, base.calledOnce⟩
    obtain ⟨call, out, same⟩ := List.mem_map.mp below
    exact alone call out same
  · have differ : other ≠ source.id := fun same => late (by rw [same]; exact List.mem_cons_self ..)
    have right : (s.touch schedule (s.stamped schedule source) (.armed source.id source.incarnation :: s.log)
      s.nextTimer).Right other := (right_touch_of_ne sound.base attached differ).mpr (sound.right other late)
    exact right
  · have pre : s.Attached call.fire.id call.fire.schedule := ne
    have kept : (s.fired schedule source rest).objects call.fire.schedule = s.objects call.fire.schedule :=
      Function.update_of_ne (alone call out) ..
    rw [kept]
    exact sound.steadfast call out pre
  · rw [objects_fired]
    rfl
  · rw [objects_fired]
    rfl
  · rw [objects_fired]
    rfl

theorem Sound.arm (sound : s.Sound s.calls todo) : s.Resumed (arm todo s) := by
  induction todo generalizing s with
  | nil =>
    refine .inl ⟨{ sound with base := { sound.base with } }, rfl⟩
  | cons source rest ih =>
    have wants := sound.listed source (List.mem_cons_self ..)
    have outside : s.disposed = false := by
      rw [← Bool.not_eq_true]
      intro ended
      simp only [wanted, ended, Bool.not_true, Bool.and_false] at wants
      cases wants
    obtain ⟨made, attached, calls, count, disposed⟩ :=
      sound.scheduleFor outside fun call out => (sound.base.called call out).1
    rw [InventoryStatusPoll.arm]
    revert made attached calls count disposed
    generalize s.scheduleFor source = one
    obtain ⟨s', schedule⟩ := one
    intro made attached calls count disposed
    dsimp only at made attached calls count disposed ⊢
    rw [← calls] at made
    rw [freshen_retune, retune_eq_touch, objects_touch_self]
    have wanted := made.listed source (List.mem_cons_self ..)
    have named := (made.base.named source.id schedule attached).1
    have others : ∀ other incarnation, other ≠ source.id →
        hasRun other incarnation (.armed source.id source.incarnation :: s'.log) = hasRun other incarnation s'.log :=
      fun other incarnation differ => hasRun_armed_of_ne differ incarnation _ _
    have done : ∀ other, other ∉ rest.map (·.id) → other ≠ source.id → other ∉
      (source :: rest).map (·.id) := by
      intro other late differ
      rw [List.map_cons, List.mem_cons, not_or]
      exact ⟨differ, late⟩
    have start : ∀ next : InventoryStatusPoll, next.reevaluations = s'.reevaluations →
        ∀ last, next.Resumed last → s.Resumed last := by
      intro next same last
      unfold Resumed
      rw [same, count]
      exact id
    split
    · rename_i fresh
      split
      · -- The latch is held: the fire is left to the timer.
        obtain ⟨timer, drawn, period, synced⟩ := @syncTimer_touch s' schedule (s'.stamped schedule source)
          (.armed source.id source.incarnation :: s'.log) s'.nextTimer (made.base.period schedule)
        rw [synced]
        refine start _ rfl _ (ih ?_)
        refine made.timed period attached named rfl ?_ others wanted rfl rfl (List.sublist_cons_self ..) done
        rw [hasRun_armed]
        exact ⟨by rintro ⟨⟩, by simp⟩
      · rename_i released
        rw [Bool.not_eq_true] at released
        obtain ⟨fire, fires⟩ := made.fired attached fresh released
        exact .inr ⟨⟨fire, rest, s'.calls, source, fires⟩, count⟩
    · rename_i stays
      rw [freshArming, Bool.or_eq_true, not_or, Bool.not_eq_true, Option.isNone_eq_false_iff,
        Option.isSome_iff_ne_none, decide_eq_true_eq, not_not] at stays
      obtain ⟨timer, drawn, period, synced⟩ := @syncTimer_touch s' schedule
        { s'.objects schedule with seconds := source.seconds } s'.log s'.nextTimer (made.base.period schedule)
      rw [synced]
      refine start _ rfl _ (ih ?_)
      exact made.timed period attached named rfl (made.base.ran source.id schedule attached stays.1)
        (fun _ _ _ => rfl) wanted rfl stays.2 (List.sublist_cons_self ..) done

variable {desired : SeqMap String InventoryStatusPollSource}

def dropsKey (s : InventoryStatusPoll) (desired : SeqMap String InventoryStatusPollSource)
    (entries : List (String × Nat)) (id : String) : Bool :=
  entries.any fun entry => entry.1 == id && !desired.has entry.1 && !(s.objects entry.2).inFlight

def stops (desired : SeqMap String InventoryStatusPollSource) (entries : List (String × Nat))
    (schedule : Nat) : Bool :=
  entries.any fun entry => entry.2 == schedule && !desired.has entry.1

theorem retireOne_eq (id : String) (schedule : Nat) :
    s.retireOne id schedule = { s with
      schedules := if (s.objects schedule).inFlight then s.schedules else s.schedules.erase id
      objects := Function.update s.objects schedule (s.objects schedule).disarm } := by
  have latch : ((s.modify schedule SourceSchedule.disarm).objects schedule).inFlight =
      (s.objects schedule).inFlight := by
    rw [modify_eq_touch, objects_touch_self]
    rfl
  unfold retireOne
  dsimp only
  rw [latch]
  split <;> rfl

theorem retire_entries (s : InventoryStatusPoll) (desired : SeqMap String InventoryStatusPollSource)
    (entries : List (String × Nat)) :
    ∃ schedules objects, entries.foldl
        (fun s entry => if desired.has entry.1 then s else s.retireOne entry.1 entry.2) s =
          { s with schedules := schedules, objects := objects } ∧
      (∀ id, schedules.get? id = if s.dropsKey desired entries id then none else s.schedules.get? id) ∧
      ∀ schedule, objects schedule =
        if stops desired entries schedule then (s.objects schedule).disarm else s.objects schedule := by
  induction entries generalizing s with
  | nil => exact ⟨s.schedules, s.objects, rfl, fun _ => rfl, fun _ => rfl⟩
  | cons entry rest ih =>
    rw [List.foldl_cons]
    cases mem : desired.has entry.1 with
    | true =>
      obtain ⟨schedules, objects, shape, keys, values⟩ := ih s
      refine ⟨schedules, objects, by rw [if_pos rfl, shape], fun id => ?_, fun schedule => ?_⟩
      · rw [keys, dropsKey, dropsKey, List.any_cons, mem, Bool.not_true, Bool.and_false, Bool.false_and,
          Bool.false_or]
      · rw [values, stops, stops, List.any_cons, mem, Bool.not_true, Bool.and_false, Bool.false_or]
    | false =>
      obtain ⟨schedules, objects, shape, keys, values⟩ := ih (s.retireOne entry.1 entry.2)
      have here : ∀ one, (s.retireOne entry.1 entry.2).objects one =
          if one = entry.2 then (s.objects entry.2).disarm else s.objects one := by
        intro one
        rw [retireOne_eq]
        exact Function.update_apply ..
      have drops : ∀ id, (s.retireOne entry.1 entry.2).dropsKey desired rest id = s.dropsKey desired rest id := by
        intro id
        unfold dropsKey
        congr 1
        funext one
        rw [here]
        split
        · rename_i same
          rw [same]
          rfl
        · rfl
      refine ⟨schedules, objects, shape.trans ?_, fun id => ?_, fun one => ?_⟩
      · rw [retireOne_eq]
      · rw [keys, drops, retireOne_eq, dropsKey, dropsKey, List.any_cons, mem, Bool.not_false, Bool.and_true]
        cases held : (s.objects entry.2).inFlight with
        | true => rw [Bool.not_true, Bool.and_false, Bool.false_or, if_pos rfl]
        | false =>
          rw [if_neg Bool.false_ne_true, SeqMap.get?_erase, Bool.not_false, Bool.and_true]
          by_cases own : entry.1 = id
          · rw [if_pos own, ite_self, beq_iff_eq.mpr own, Bool.true_or, if_pos rfl]
          · rw [if_neg own, beq_eq_false_iff_ne.mpr own, Bool.false_or]
      · rw [values, here, stops, stops, List.any_cons, mem, Bool.not_false, Bool.and_true]
        by_cases own : one = entry.2
        · subst own
          rw [if_pos rfl, BEq.rfl, Bool.true_or, if_pos rfl]
          exact ite_self _
        · rw [if_neg own, beq_eq_false_iff_ne.mpr (Ne.symm own), Bool.false_or]

theorem wanted_id (hit : s.wanted.get? id = some source) : source.id = id := by
  unfold wanted at hit
  split at hit
  · exact desiredOf_id hit
  · cases hit

theorem wanted_ids : s.wanted.values.map (·.id) = s.wanted.keys := by
  rw [SeqMap.values, SeqMap.keys, List.map_map]
  exact List.map_congr_left fun entry mem => wanted_id (SeqMap.mem_entries.mp mem)

/-- A re-evaluation may begin: the fires that are out keep the arming they have. -/
structure Ready (s : InventoryStatusPoll) : Prop where
  base : s.Base
  awake : s.disposed = false
  seen : s.visible = s.view
  calls : ∀ call ∈ s.calls, s.Attached call.fire.id call.fire.schedule →
    (s.objects call.fire.schedule).armedIncarnation = call.fire.dispatchedFor ∧
      ∀ source, s.wanted.get? call.fire.id = some source →
        (s.objects call.fire.schedule).timer ≠ none ∧ source.incarnation = call.fire.dispatchedFor
  rests : ∀ fire rest, .arm fire rest ∈ s.calls → (rest.map (·.id)).Nodup

theorem Ready.desired_eq (ready : s.Ready) : s.desired = s.wanted := by
  rw [InventoryStatusPoll.desired, wanted, ready.seen, ready.awake, Bool.not_false, Bool.and_true]

/-- What retiring leaves: what is wanted as it was, and the rest without its timers. -/
structure Retired (s next : InventoryStatusPoll) : Prop where
  rest : next = { s with schedules := next.schedules, objects := next.objects }
  pre : ∀ id one, next.Attached id one → s.Attached id one
  same : ∀ one, (next.objects one).id = (s.objects one).id ∧
    (next.objects one).inFlight = (s.objects one).inFlight ∧
    (next.objects one).armedPeriodSeconds = (s.objects one).armedPeriodSeconds ∧
    (next.objects one).armedIncarnation = (s.objects one).armedIncarnation ∧
    (next.objects one).state = (s.objects one).state
  timer : ∀ one timer, (next.objects one).timer = some timer → (s.objects one).timer = some timer
  kept : ∀ id one, s.Attached id one → s.wanted.has id = true → next.Attached id one ∧
    next.objects one = s.objects one
  gone : ∀ id one, s.Attached id one → s.wanted.has id = false →
    (next.objects one).timer = none ∧ ((s.objects one).inFlight = false → ¬ next.Attached id one)

theorem Base.retire (base : s.Base) : s.Retired (s.retire s.wanted) := by
  obtain ⟨schedules, objects, shape, keys, values⟩ := s.retire_entries s.wanted s.schedules.entries
  unfold InventoryStatusPoll.retire
  rw [shape]
  refine ⟨rfl, fun id one attached => ?_, fun one => ?_, fun one timer set => ?_, fun id one attached want => ?_,
    fun id one attached unlisted => ?_⟩
  · unfold Attached at attached
    rw [keys] at attached
    split at attached
    · cases attached
    · exact attached
  · dsimp only
    rw [values]
    split <;> exact ⟨rfl, rfl, rfl, rfl, rfl⟩
  · dsimp only at set
    rw [values] at set
    split at set
    · cases set
    · exact set
  · have stays : stops s.wanted s.schedules.entries one = false := by
      rw [stops, List.any_eq_false]
      intro entry within stopped
      rw [Bool.and_eq_true, beq_iff_eq] at stopped
      have held := base.named entry.1 one (stopped.1 ▸ SeqMap.mem_entries.mp within)
      rw [← held.1, (base.named id one attached).1, want] at stopped
      exact Bool.false_ne_true stopped.2
    refine ⟨?_, by dsimp only; rw [values, stays, if_neg Bool.false_ne_true]⟩
    unfold Attached
    rw [keys, if_neg]
    · exact attached
    · rw [Bool.not_eq_true, dropsKey, List.any_eq_false]
      intro entry within dropped
      rw [Bool.and_eq_true, Bool.and_eq_true, beq_iff_eq] at dropped
      rw [dropped.1.1, want] at dropped
      exact Bool.false_ne_true dropped.1.2
  · have within : (id, one) ∈ s.schedules.entries := SeqMap.mem_entries.mpr attached
    refine ⟨?_, fun idle still => ?_⟩
    · dsimp only
      rw [values, if_pos]
      · rfl
      · exact List.any_eq_true.mpr ⟨_, within, by simp [unlisted]⟩
    · unfold Attached at still
      rw [keys, if_pos] at still
      · cases still
      · exact List.any_eq_true.mpr ⟨_, within, by simp [unlisted, idle]⟩

theorem Ready.retired (ready : s.Ready) {next : InventoryStatusPoll} (retired : s.Retired next) :
    next.Sound s.calls s.wanted.values := by
  have base := ready.base
  have listed : ∀ id, s.wanted.has id = (s.wanted.get? id).isSome := fun _ => rfl
  have wanted : next.wanted = s.wanted := by rw [retired.rest]; rfl
  obtain ⟨bound, calls, sweeps, drawn, log, disposed, visible, view⟩ :
      next.nextSchedule = s.nextSchedule ∧ next.calls = s.calls ∧ next.sweeps = s.sweeps ∧
        next.nextSweep = s.nextSweep ∧ next.log = s.log ∧ next.disposed = s.disposed ∧
          next.visible = s.visible ∧ next.view = s.view := by
    rw [retired.rest]
    exact ⟨rfl, rfl, rfl, rfl, rfl, rfl, rfl, rfl⟩
  refine ⟨⟨fun id one attached => ?_, fun one armed => ?_, fun one set armed => ?_, fun sweep fire hit => ?_,
    by rw [sweeps]; exact base.sweptOnce, fun call out => ?_, by rw [calls]; exact base.calledOnce,
    fun id one attached armed => ?_, fun ended => ?_⟩, fun id late => ?_, fun source mem => ?_, ?_,
    fun call out attached => ?_, ready.rests, .inr (by rw [visible, view]; exact ready.seen)⟩
  · rw [(retired.same one).1, bound]
    exact base.named id one (retired.pre id one attached)
  · obtain ⟨set, hit⟩ := Option.ne_none_iff_exists'.mp armed
    have attached := base.held one (by rw [retired.timer one set hit]; simp)
    rw [(retired.same one).1]
    cases want : s.wanted.has (s.objects one).id with
    | true => exact (retired.kept _ one attached want).1
    | false => exact absurd (retired.gone _ one attached want).1 armed
  · rw [(retired.same one).2.2.1]
    exact base.period one set (retired.timer one set armed)
  · rw [sweeps] at hit
    rw [(retired.same _).1, (retired.same _).2.1, bound, drawn]
    exact base.swept sweep fire hit
  · rw [calls] at out
    rw [(retired.same _).1, (retired.same _).2.1, bound]
    exact base.called call out
  · obtain ⟨set, hit⟩ := Option.ne_none_iff_exists'.mp armed
    rw [(retired.same one).2.2.2.2, (retired.same one).2.2.2.1, log]
    exact base.ran id one (retired.pre id one attached) (by rw [retired.timer one set hit]; simp)
  · rw [disposed, ready.awake] at ended
    cases ended
  · rw [wanted_ids, SeqMap.mem_keys, Bool.not_eq_true, Option.isSome_eq_false_iff,
      Option.isNone_iff_eq_none] at late
    unfold Right
    rw [wanted, late]
    intro one attached
    exact (retired.gone id one (retired.pre id one attached) (by rw [listed, late]; rfl)).1
  · obtain ⟨key, hit⟩ := SeqMap.mem_values.mp mem
    rw [wanted, wanted_id hit]
    exact hit
  · rw [wanted_ids]
    exact s.wanted.distinct
  · have earlier := retired.pre _ _ attached
    obtain ⟨stamped, armed⟩ := ready.calls call out earlier
    cases hit : s.wanted.get? call.fire.id with
    | none =>
      refine absurd attached ((retired.gone _ _ earlier ?_).2 (base.called call out).2.2)
      rw [listed, hit]
      rfl
    | some source =>
      rw [(retired.kept _ _ earlier (by rw [listed, hit]; rfl)).2, wanted]
      exact ⟨(armed source hit).1, stamped, source, hit, (armed source hit).2⟩

theorem Ready.retire (ready : s.Ready) :
    (s.retire s.wanted).Sound s.calls s.wanted.values ∧ (s.retire s.wanted).calls = s.calls ∧
      (s.retire s.wanted).reevaluations = s.reevaluations := by
  have retired := ready.base.retire
  exact ⟨ready.retired retired, by rw [retired.rest], by rw [retired.rest]⟩

/-- A re-evaluation ends soundly, or waits in the fire of an arming. -/
theorem Ready.reevaluate (ready : s.Ready) : s.Resumed s.reevaluate := by
  obtain ⟨sound, calls, count⟩ := ready.retire
  rw [InventoryStatusPoll.reevaluate, ready.desired_eq]
  rw [← calls] at sound
  have resumed := sound.arm
  unfold Resumed at resumed ⊢
  rw [count] at resumed
  exact resumed

end InventoryStatusPoll

end NexTerminal.Polling
