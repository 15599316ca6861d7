import NexTerminal.Polling.PollReevaluation

namespace NexTerminal.Polling

open Library

namespace InventoryStatusPoll

variable {s next : InventoryStatusPoll} {id : String} {schedule : Nat} {fire : Fire} {call : Call}
  {rest todo : List InventoryStatusPollSource} {source : InventoryStatusPollSource} {calls below : List Call}

theorem Sound.armed (sound : s.Sound calls todo) (attached : s.Attached id schedule)
    (wanted : s.wanted.get? id = some source) (settled : id ∉ todo.map (·.id)) :
    (s.objects schedule).timer ≠ none ∧
      (s.objects schedule).armedPeriodSeconds = (s.objects schedule).effectivePeriodSeconds ∧
      (s.objects schedule).seconds = source.seconds ∧
      (s.objects schedule).armedIncarnation = source.incarnation := by
  have right := sound.right id settled
  unfold Right at right
  rw [wanted] at right
  obtain ⟨one, other, armed⟩ := right
  obtain rfl : schedule = one := Option.mem_unique attached other
  exact armed

theorem Sound.synced (sound : s.Sound calls todo) (attached : s.Attached id schedule)
    (wanted : s.wanted.get? id = some source) (settled : id ∉ todo.map (·.id)) : s.syncTimer schedule = s := by
  obtain ⟨armed, period, -⟩ := sound.armed attached wanted settled
  unfold syncTimer
  rw [if_pos]
  rw [Bool.and_eq_true, decide_eq_true_eq, Option.isSome_iff_ne_none]
  exact ⟨armed, period⟩

theorem Sound.again (sound : s.Sound calls []) (mem : ∀ source ∈ rest, s.wanted.get? source.id = some source)
    (ne : (rest.map (·.id)).Nodup) : s.Sound calls rest :=
  ⟨sound.base, fun id _ => sound.right id List.not_mem_nil, mem, ne, sound.steadfast, sound.rests, sound.seen⟩

theorem Sound.latched (sound : s.Sound calls todo)
    (same : ∀ one, next.objects one = { s.objects one with inFlight := (next.objects one).inFlight })
    (base : next.Base) (shape : next = { s with
      objects := next.objects, calls := next.calls, sweeps := next.sweeps, nextSweep := next.nextSweep }) :
    next.Sound calls todo := by
  have object : ∀ one, (next.objects one).timer = (s.objects one).timer ∧
      (next.objects one).armedPeriodSeconds = (s.objects one).armedPeriodSeconds ∧
      (next.objects one).effectivePeriodSeconds = (s.objects one).effectivePeriodSeconds ∧
      (next.objects one).seconds = (s.objects one).seconds ∧
      (next.objects one).armedIncarnation = (s.objects one).armedIncarnation := by
    intro one
    rw [same]
    exact ⟨rfl, rfl, rfl, rfl, rfl⟩
  have attached : ∀ id one, next.Attached id one ↔ s.Attached id one := by
    rw [shape]
    exact fun _ _ => Iff.rfl
  have wanted : next.wanted = s.wanted := by rw [shape]; rfl
  refine ⟨base, fun id late => ?_, by rw [wanted]; exact sound.listed, sound.apart, fun call out ne => ?_,
    sound.rests, by rw [shape]; exact sound.seen⟩
  · have right := sound.right id late
    unfold Right at right ⊢
    rw [wanted]
    cases hit : s.wanted.get? id with
    | none =>
      rw [hit] at right
      intro one ne
      rw [(object one).1]
      exact right one ((attached id one).mp ne)
    | some source =>
      rw [hit] at right
      obtain ⟨one, ne, armed⟩ := right
      obtain ⟨timer, period, effective, seconds, incarnation⟩ := object one
      refine ⟨one, (attached id one).mpr ne, ?_⟩
      rw [timer, period, effective, seconds, incarnation]
      exact armed
  · obtain ⟨armed, stamped, own⟩ := sound.steadfast call out ((attached _ _).mp ne)
    rw [(object _).1, (object _).2.2.2.2, wanted]
    exact ⟨armed, stamped, own⟩

theorem Sound.tick (sound : s.Sound s.calls []) (schedule : Nat) :
    (s.tick schedule).Sound (s.tick schedule).calls [] := by
  unfold InventoryStatusPoll.tick
  split
  · rename_i goes
    rw [Bool.and_eq_true, Bool.and_eq_true, List.isEmpty_iff, Option.isSome_iff_ne_none, Bool.not_eq_true'] at goes
    obtain ⟨⟨idle, armed⟩, released⟩ := goes
    have base := sound.base
    have attached := base.held schedule armed
    have small := (base.named _ _ attached).2
    have right := sound.right (s.objects schedule).id List.not_mem_nil
    unfold Right at right
    cases hit : s.wanted.get? (s.objects schedule).id with
    | none =>
      rw [hit] at right
      exact absurd (right schedule attached) armed
    | some source =>
      have served := (sound.armed attached hit List.not_mem_nil).2.2.2
      rw [idle]
      refine ⟨{ base with
        called := fun call out => ?_, calledOnce := List.nodup_singleton _ }, sound.right, nofun, List.nodup_nil,
          fun call out ne => ?_, fun one others out => ?_, sound.seen⟩
      · cases List.mem_singleton.mp out
        exact ⟨small, rfl, released⟩
      · cases List.mem_singleton.mp out
        exact ⟨armed, rfl, source, hit, served.symm⟩
      · cases List.mem_singleton.mp out
  · exact sound

theorem Sound.popped (sound : s.Sound below todo) (top : s.calls = call :: below) :
    ({ s with calls := below } : InventoryStatusPoll).Sound below todo ∧
      (∀ other ∈ below, other.fire.schedule ≠ call.fire.schedule) := by
  have base := sound.base
  have once := base.calledOnce
  rw [top, List.map_cons, List.nodup_cons] at once
  refine ⟨⟨{ base with
    called := fun other out => ?_, calledOnce := once.2 }, sound.right, sound.listed, sound.apart, sound.steadfast,
      sound.rests, sound.seen⟩, fun other out same => once.1 (List.mem_map.mpr ⟨other, out, same⟩)⟩
  exact base.called other (by rw [top]; exact List.mem_cons_of_mem _ out)

theorem Sound.relatched {flight : Bool} {sweeps : SeqMap Nat Fire} {nextSweep : Nat}
    (sound : s.Sound s.calls todo)
    (made : { s.touch schedule { s.objects schedule with inFlight := flight } s.log s.nextTimer with
      sweeps, nextSweep } = next)
    (swept : ∀ one other, sweeps.get? one = some other → one < nextSweep ∧ other.schedule < s.nextSchedule ∧
      other.id = (s.objects other.schedule).id ∧
        (if other.schedule = schedule then flight else (s.objects other.schedule).inFlight) = true)
    (sweptOnce : ∀ one other a b, sweeps.get? one = some a → sweeps.get? other = some b →
      a.schedule = b.schedule → one = other)
    (alone : ∀ other ∈ s.calls, other.fire.schedule ≠ schedule) : next.Sound next.calls todo := by
  have base := sound.base
  have object : ∀ one, next.objects one =
      if one = schedule then { s.objects schedule with inFlight := flight } else s.objects one := by
    intro one
    rw [← made]
    exact Function.update_apply ..
  have fields : ∀ one, next.objects one = { s.objects one with inFlight := (next.objects one).inFlight } := by
    intro one
    rw [object]
    split
    · rename_i same
      rw [same]
    · rfl
  have kept : next.calls = s.calls ∧ next.sweeps = sweeps ∧ next.nextSchedule = s.nextSchedule ∧
      next.nextSweep = nextSweep ∧ next.schedules = s.schedules ∧ next.log = s.log ∧
        next.disposed = s.disposed := by
    rw [← made]
    exact ⟨rfl, rfl, rfl, rfl, rfl, rfl, rfl⟩
  obtain ⟨calls, swept', bound, drawn, schedules, log, disposed⟩ := kept
  have attached : ∀ id one, next.Attached id one ↔ s.Attached id one := by
    unfold Attached
    rw [schedules]
    exact fun _ _ => Iff.rfl
  rw [calls]
  refine sound.latched fields
    { named := fun id one ne => ?_
      held := fun one armed => ?_
      period := fun one timer armed => ?_
      swept := fun one other hit => ?_
      sweptOnce := swept'.symm ▸ sweptOnce
      called := fun other out => ?_
      calledOnce := calls.symm ▸ base.calledOnce
      ran := fun id one ne armed => ?_
      ended := fun ended id one ne => base.ended (disposed ▸ ended) id one ((attached id one).mp ne) }
    (by rw [← made]; rfl)
  · rw [fields, bound]
    exact base.named id one ((attached id one).mp ne)
  · rw [fields] at armed ⊢
    exact (attached _ _).mpr (base.held one armed)
  · rw [fields] at armed ⊢
    exact base.period one timer armed
  · rw [swept'] at hit
    obtain ⟨older, small, named, latch⟩ := swept one other hit
    refine ⟨drawn ▸ older, bound ▸ small, ?_, ?_⟩
    · rw [fields]
      exact named
    · rw [object, apply_ite SourceSchedule.inFlight]
      exact latch
  · rw [calls] at out
    rw [bound, object, if_neg (alone other out)]
    exact base.called other out
  · rw [fields] at armed ⊢
    rw [log]
    exact base.ran id one ((attached id one).mp ne) armed

theorem Sound.promised (sound : s.Sound s.calls todo) (small : fire.schedule < s.nextSchedule)
    (named : fire.id = (s.objects fire.schedule).id) (released : (s.objects fire.schedule).inFlight = false)
    (alone : ∀ other ∈ s.calls, other.fire.schedule ≠ fire.schedule) :
    (s.returned fire true).Sound (s.returned fire true).calls todo := by
  have base := sound.base
  have sweep : ∀ one other, (s.sweeps.set s.nextSweep fire).get? one = some other →
      (one = s.nextSweep ∧ other = fire) ∨ (one < s.nextSweep ∧ other.schedule ≠ fire.schedule ∧
        s.sweeps.get? one = some other) := by
    intro one other hit
    rw [SeqMap.get?_set] at hit
    split at hit
    · rename_i same
      exact .inl ⟨same.symm, (Option.some.inj hit).symm⟩
    · refine .inr ⟨(base.swept one other hit).1, fun same => ?_, hit⟩
      have held := (base.swept one other hit).2.2.2
      rw [same, released] at held
      cases held
  refine sound.relatched rfl (fun one other hit => ?_) (fun one other a b atOne atOther same => ?_) alone
  · obtain ⟨rfl, rfl⟩ | ⟨older, differ, pre⟩ := sweep one other hit
    · exact ⟨Nat.lt_succ_self _, small, named, if_pos rfl⟩
    · obtain ⟨-, bounded, own, held⟩ := base.swept one other pre
      exact ⟨Nat.lt_succ_of_lt older, bounded, own, (if_neg differ).trans held⟩
  · obtain ⟨rfl, rfl⟩ | ⟨-, differ, pre⟩ := sweep one a atOne
    · obtain ⟨rfl, -⟩ | ⟨-, ne, -⟩ := sweep other b atOther
      · rfl
      · exact absurd same.symm ne
    · obtain ⟨-, rfl⟩ | ⟨-, -, earlier⟩ := sweep other b atOther
      · exact absurd same differ
      · exact base.sweptOnce one other a b pre earlier same

/-- When the fire of a standing arming is not declined, the re-evaluation goes on soundly. -/
theorem Sound.answered (sound : s.Sound calls todo) (attached : s.Attached fire.id fire.schedule)
    (stamped : (s.objects fire.schedule).armedIncarnation = fire.dispatchedFor)
    (wanted : s.wanted.get? fire.id = some source) (served : source.incarnation = fire.dispatchedFor)
    (seconds : (s.objects fire.schedule).seconds = source.seconds) (shorter : rest.Sublist todo)
    (done : ∀ other, other ∉ rest.map (·.id) → other ≠ fire.id → other ∉ todo.map (·.id)) :
    (s.returned fire false).Sound calls rest := by
  obtain ⟨timer, drawn, period, synced⟩ := @syncTimer_touch s fire.schedule
    { s.objects fire.schedule with state := .steady } s.log s.nextTimer (sound.base.period fire.schedule)
  rw [returned, if_neg Bool.false_ne_true, modify_eq_touch, synced]
  refine sound.timed period attached (sound.base.named _ _ attached).1 rfl ?_
    (fun other incarnation differ => hasRun_ran_of_ne (fun same => differ same.1.symm) _) wanted seconds
    (stamped.trans served.symm) shorter done
  rw [stamped, hasRun_ran]
  exact ⟨fun _ => rfl, fun _ => rfl⟩

def released (s : InventoryStatusPoll) (sweep : Nat) (fire : Fire) : InventoryStatusPoll :=
  { s.modify fire.schedule fun schedule => { schedule with inFlight := false } with
    sweeps := s.sweeps.erase sweep }

theorem Sound.released {sweep : Nat} (sound : s.Sound s.calls todo) (hit : s.sweeps.get? sweep = some fire)
    (idle : s.calls = []) : (s.released sweep fire).Sound (s.released sweep fire).calls todo := by
  have base := sound.base
  have pre : ∀ one other, (s.sweeps.erase sweep).get? one = some other →
      one ≠ sweep ∧ s.sweeps.get? one = some other := by
    intro one other held
    rw [SeqMap.get?_erase] at held
    split at held
    · cases held
    · rename_i differ
      exact ⟨Ne.symm differ, held⟩
  refine sound.relatched rfl (fun one other held => ?_) (fun one other a b atOne atOther same => ?_) (by simp [idle])
  · obtain ⟨differ, earlier⟩ := pre one other held
    obtain ⟨older, small, named, latch⟩ := base.swept one other earlier
    exact ⟨older, small, named,
      (if_neg fun same => differ (base.sweptOnce one sweep other fire earlier hit same)).trans latch⟩
  · exact base.sweptOnce one other a b (pre one a atOne).2 (pre other b atOther).2 same

theorem Sound.told (sound : s.Sound s.calls todo) {incarnation : Option String}
    (agrees : ∀ one, s.Attached id one → (s.objects one).timer ≠ none →
      (s.objects one).armedIncarnation = incarnation → (s.objects one).state = .steady) :
    ({ s with log := .ran id incarnation :: s.log } : InventoryStatusPoll).Sound s.calls todo := by
  have base := sound.base
  refine ⟨{ base with
    ran := fun other one attached armed => ?_ }, sound.right, sound.listed, sound.apart, sound.steadfast,
    sound.rests, sound.seen⟩
  by_cases here : id = other ∧ incarnation = (s.objects one).armedIncarnation
  · obtain ⟨rfl, same⟩ := here
    have steady := agrees one attached armed same.symm
    have told : hasRun id (s.objects one).armedIncarnation (.ran id incarnation :: s.log) = true :=
      if_pos ⟨rfl, same⟩
    exact ⟨fun _ => told, fun _ => steady⟩
  · exact (base.ran other one attached armed).trans (by rw [hasRun_ran_of_ne here])

theorem Sound.dropped (sound : s.Sound s.calls []) (attached : s.Attached id schedule)
    (unarmed : (s.objects schedule).timer = none) :
    ({ s with schedules := s.schedules.erase id } : InventoryStatusPoll).Sound s.calls [] := by
  have base := sound.base
  generalize made : ({ s with schedules := s.schedules.erase id } : InventoryStatusPoll) = next
  have pre : ∀ other one, next.Attached other one → other ≠ id ∧ s.Attached other one := by
    intro other one ne
    unfold Attached at ne
    rw [← made] at ne
    rw [SeqMap.get?_erase] at ne
    split at ne
    · cases ne
    · rename_i differ
      exact ⟨Ne.symm differ, ne⟩
  have after : ∀ other one, other ≠ id → s.Attached other one → next.Attached other one := by
    intro other one differ ne
    unfold Attached
    rw [← made]
    rw [SeqMap.get?_erase, if_neg (Ne.symm differ)]
    exact ne
  have wanted : next.wanted = s.wanted := by rw [← made]; rfl
  have unwanted : s.wanted.get? id = none := by
    cases hit : s.wanted.get? id with
    | none => rfl
    | some source => exact absurd unarmed (sound.armed attached hit List.not_mem_nil).1
  subst made
  refine ⟨{ base with
    named := fun other one ne => base.named other one (pre other one ne).2, held := fun one armed => ?_
    ran := fun other one ne => base.ran other one (pre other one ne).2
    ended := fun ended other one ne => base.ended ended other one (pre other one ne).2 },
      fun other late => ?_, (by simp),
    sound.apart, fun call out ne => sound.steadfast call out (pre _ _ ne).2, sound.rests, sound.seen⟩
  · refine after _ one (fun own => armed ?_) (base.held one armed)
    have held := base.held one armed
    rw [own] at held
    obtain rfl : schedule = one := Option.mem_unique attached held
    exact unarmed
  · have right := sound.right other late
    unfold Right at right ⊢
    rw [wanted]
    cases hit : s.wanted.get? other with
    | none =>
      rw [hit] at right
      exact fun one ne => right one (pre other one ne).2
    | some source =>
      rw [hit] at right
      obtain ⟨one, ne, armed⟩ := right
      refine ⟨one, after other one ?_ ne, armed⟩
      rintro rfl
      cases unwanted.symm.trans hit

def Calm (s next : InventoryStatusPoll) : Prop := next.Sound next.calls [] ∧ next.reevaluations = s.reevaluations

theorem Sound.wanted_of_armed (sound : s.Sound calls []) (attached : s.Attached id schedule)
    (armed : (s.objects schedule).timer ≠ none) : ∃ source, s.wanted.get? id = some source := by
  have right := sound.right id List.not_mem_nil
  unfold Right at right
  cases wanted : s.wanted.get? id with
  | none =>
    rw [wanted] at right
    exact absurd (right schedule attached) armed
  | some source => exact ⟨source, rfl⟩

theorem Sound.changed {log : List Event} {changed : SourceSchedule} (sound : s.Sound s.calls [])
    (attached : s.Attached id schedule) (wanted : s.wanted.get? id = some source)
    (own : changed.id = (s.objects schedule).id) (flight : changed.inFlight = (s.objects schedule).inFlight)
    (timer : changed.timer = (s.objects schedule).timer)
    (armed : changed.armedPeriodSeconds = (s.objects schedule).armedPeriodSeconds)
    (seconds : changed.seconds = (s.objects schedule).seconds)
    (incarnation : changed.armedIncarnation = (s.objects schedule).armedIncarnation)
    (ran : changed.state = .steady ↔ hasRun id changed.armedIncarnation log = true)
    (others : ∀ other incarnation, other ≠ id → hasRun other incarnation log = hasRun other incarnation s.log) :
    s.Calm ((s.touch schedule changed log s.nextTimer).syncTimer schedule) := by
  have period : ∀ timer, changed.timer = some timer → timer.period = changed.armedPeriodSeconds := by
    rw [timer, armed]
    exact sound.base.period schedule
  obtain ⟨-, -, right, served⟩ := sound.armed attached wanted List.not_mem_nil
  obtain ⟨set, drawn, suits, synced⟩ := @syncTimer_touch s schedule changed log s.nextTimer period
  rw [synced]
  refine ⟨?_, rfl⟩
  exact sound.timed suits attached (own.trans (sound.base.named _ _ attached).1) flight ran others wanted
    (seconds.trans right) (incarnation.trans served) (List.Sublist.refl _) fun _ late _ => late

theorem Sound.declined (sound : s.Sound s.calls []) (attached : s.Attached fire.id fire.schedule) :
    s.Calm (s.concluded fire .declined) := by
  unfold concluded
  dsimp only
  split
  · rename_i unarmed
    exact ⟨sound.dropped attached (Option.isNone_iff_eq_none.mp unarmed), rfl⟩
  · rename_i armed
    rw [Bool.not_eq_true, Option.isNone_eq_false_iff, Option.isSome_iff_ne_none] at armed
    obtain ⟨source, wanted⟩ := sound.wanted_of_armed attached armed
    rw [if_neg (fun ran => ran rfl)]
    split
    · split
      · exact sound.changed attached wanted rfl rfl rfl rfl rfl rfl (sound.base.ran _ _ attached armed)
          fun _ _ _ => rfl
      · rw [sound.synced attached wanted List.not_mem_nil]
        exact ⟨sound, rfl⟩
    · exact ⟨sound, rfl⟩

theorem Sound.concluded (sound : s.Sound s.calls []) (attached : s.Attached fire.id fire.schedule)
    {outcome : Outcome} (ran : outcome ≠ .declined) :
    s.Calm (({ s with log := .ran fire.id fire.dispatchedFor :: s.log } : InventoryStatusPoll).concluded fire
      outcome) := by
  have other : ∀ one, s.Attached fire.id one → one = fire.schedule :=
    fun one held => Option.mem_unique held attached
  unfold InventoryStatusPoll.concluded
  dsimp only
  split
  · rename_i unarmed
    rw [Option.isNone_iff_eq_none] at unarmed
    have told : ({ s with log := .ran fire.id fire.dispatchedFor :: s.log } :
        InventoryStatusPoll).Sound s.calls [] :=
      sound.told fun one held armed _ => absurd (other one held ▸ unarmed) armed
    exact ⟨told.dropped attached unarmed, rfl⟩
  · rename_i armed
    rw [Bool.not_eq_true, Option.isNone_eq_false_iff, Option.isSome_iff_ne_none] at armed
    obtain ⟨source, wanted⟩ := sound.wanted_of_armed attached armed
    split
    · rename_i same
      refine sound.changed attached wanted rfl rfl rfl rfl rfl rfl ?_
        fun one incarnation differ => hasRun_ran_of_ne (fun here => differ here.1.symm) _
      rw [same, hasRun_ran]
      exact ⟨fun _ => rfl, fun _ => rfl⟩
    · rename_i changed
      exact ⟨sound.told fun one held _ same => absurd (other one held ▸ same) changed, rfl⟩

/-- Whether what a fire came to passes by a schedule that waits for just that: one for the
same incarnation, which has taken the place of the fire's own. -/
def passesBy (s : InventoryStatusPoll) (fire : Fire) : Bool :=
  match s.schedules.get? fire.id with
  | none => false
  | some other =>
    decide (other ≠ fire.schedule) && (s.objects other).timer.isSome &&
      decide ((s.objects other).armedIncarnation = fire.dispatchedFor) &&
        decide ((s.objects other).state = .warming)

theorem Sound.settle (sound : s.Sound s.calls []) {sweep : Nat} {outcome : Outcome}
    (kept : ∀ fire, s.calls = [] → s.sweeps.get? sweep = some fire → outcome ≠ .declined →
      s.passesBy fire = false) : s.Calm (s.settle sweep outcome) := by
  unfold InventoryStatusPoll.settle
  split
  · rename_i idle
    rw [List.isEmpty_iff] at idle
    split
    · exact ⟨sound, rfl⟩
    · rename_i fire hit
      have opened := sound.released hit idle
      by_cases ran : outcome = .declined
      · subst ran
        change s.Calm (if (s.released sweep fire).schedules.get? fire.id = some fire.schedule then
          (s.released sweep fire).concluded fire .declined else s.released sweep fire)
        split
        · rename_i attached
          exact opened.declined attached
        · exact ⟨opened, rfl⟩
      · rw [if_neg ran]
        change s.Calm (if (s.released sweep fire).schedules.get? fire.id = some fire.schedule then
          ({ s.released sweep fire with log := .ran fire.id fire.dispatchedFor :: (s.released sweep fire).log } :
            InventoryStatusPoll).concluded fire outcome
          else { s.released sweep fire with log := .ran fire.id fire.dispatchedFor :: (s.released sweep fire).log })
        split
        · rename_i attached
          exact opened.concluded attached ran
        · rename_i detached
          refine ⟨opened.told fun one held armed same => ?_, rfl⟩
          have differ : one ≠ fire.schedule := by
            rintro rfl
            exact detached held
          have object : (s.released sweep fire).objects one = s.objects one := Function.update_of_ne differ ..
          have here : s.schedules.get? fire.id = some one := held
          have passes := kept fire idle hit ran
          rw [object] at armed same ⊢
          unfold passesBy at passes
          rw [here] at passes
          dsimp only at passes
          rw [decide_eq_true differ, Option.isSome_iff_ne_none.mpr armed, decide_eq_true same, Bool.true_and,
            Bool.true_and, Bool.true_and, decide_eq_false_iff_not] at passes
          cases state : (s.objects one).state with
          | warming => exact absurd state passes
          | steady => rfl
  · exact ⟨sound, rfl⟩

end InventoryStatusPoll

end NexTerminal.Polling
