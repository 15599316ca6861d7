import Mathlib.Data.List.Induction
import NexTerminal.Polling.PollSteps

namespace NexTerminal.Polling

open Library

namespace InventoryStatusPoll

variable {s next : InventoryStatusPoll} {fire : Fire} {calls below : List Call}
  {todo rest : List InventoryStatusPollSource}

/-- A step keeps the invariant, and ends no re-evaluation short of what is wanted. -/
def Stepped (s next : InventoryStatusPoll) : Prop :=
  next.Kept ∧ (next.reevaluations ≠ s.reevaluations → next.Sound next.calls [])

theorem Calm.stepped (calm : s.Calm next) : s.Stepped next :=
  ⟨.inl calm.1, fun _ => calm.1⟩

theorem Resumed.stepped (resumed : s.Resumed next) : s.Stepped next := by
  refine ⟨resumed.kept, fun counted => ?_⟩
  obtain ⟨ended, -⟩ | ⟨-, same⟩ := resumed
  · exact ended
  · exact absurd same counted

theorem Stepped.subscribe (stepped : s.Stepped next) : s.Stepped next.subscribe := by
  have heard : ∀ todo calls, next.Sound calls todo →
      ({ next with subscribed := true } : InventoryStatusPoll).Sound calls todo := fun _ _ sound =>
    { sound with base := { sound.base with } }
  unfold InventoryStatusPoll.subscribe
  split
  · refine ⟨?_, fun counted => heard _ _ (stepped.2 counted)⟩
    obtain sound | ⟨fire, rest, below, source, firing⟩ := stepped.1
    · exact .inl (heard _ _ sound)
    · rename_i idle
      rw [List.isEmpty_iff, firing.calls] at idle
      cases idle
  · exact stepped

theorem Sound.fewer (sound : s.Sound calls todo) (within : ∀ call ∈ below, call ∈ calls) : s.Sound below todo :=
  { sound with
    steadfast := fun call out => sound.steadfast call (within call out)
    rests := fun fire rest out => sound.rests fire rest (within _ out) }

theorem syncTimer_kept (schedule : Nat) : (s.syncTimer schedule).calls = s.calls ∧
    (s.syncTimer schedule).reevaluations = s.reevaluations := by
  unfold syncTimer
  dsimp only
  split <;> exact ⟨rfl, rfl⟩

theorem returned_kept (fire : Fire) (promise : Bool) : (s.returned fire promise).calls = s.calls ∧
    (s.returned fire promise).reevaluations = s.reevaluations := by
  cases promise with
  | true => exact ⟨rfl, rfl⟩
  | false =>
    obtain ⟨calls, count⟩ := @syncTimer_kept
      (s.modify fire.schedule fun schedule => { schedule with state := .steady }) fire.schedule
    exact ⟨calls, count⟩

theorem returned_wanted (fire : Fire) (promise : Bool) : (s.returned fire promise).wanted = s.wanted ∧
    (s.returned fire promise).schedules = s.schedules := by
  cases promise with
  | true => exact ⟨rfl, rfl⟩
  | false =>
    unfold returned syncTimer
    dsimp only
    rw [if_neg Bool.false_ne_true]
    split <;> exact ⟨rfl, rfl⟩

variable {promise : Bool}

theorem Sound.timerReturns (sound : s.Sound s.calls []) (top : s.calls = .timer fire :: below)
    (kept : promise = false → s.Attached fire.id fire.schedule) :
    s.Calm (returned { s with calls := below } fire promise) := by
  have out : Call.timer fire ∈ s.calls := by rw [top]; exact List.mem_cons_self ..
  obtain ⟨small, named, released⟩ := sound.base.called _ out
  have fewer : s.Sound below [] := sound.fewer fun call later => by rw [top]; exact List.mem_cons_of_mem _ later
  obtain ⟨popped, alone⟩ := fewer.popped top
  cases promise with
  | true => exact ⟨popped.promised small named released alone, rfl⟩
  | false =>
    have attached := kept rfl
    obtain ⟨-, stamped, source, wanted, served⟩ := sound.steadfast _ out attached
    have seconds := (sound.armed attached wanted List.not_mem_nil).2.2.1
    have answered := popped.answered attached stamped wanted served seconds (List.Sublist.refl _)
      fun _ late _ => late
    obtain ⟨same, count⟩ := @returned_kept { s with calls := below } fire false
    exact ⟨by rw [same]; exact answered, count⟩

theorem Sound.armReturns (sound : s.Sound s.calls []) (top : s.calls = .arm fire rest :: below)
    (attached : s.Attached fire.id fire.schedule) (mem : ∀ source ∈ rest, s.wanted.get? source.id = some source) :
    ((returned { s with calls := below } fire promise).syncTimer fire.schedule).Sound
      ((returned { s with calls := below } fire promise).syncTimer fire.schedule).calls rest := by
  have out : Call.arm fire rest ∈ s.calls := by rw [top]; exact List.mem_cons_self ..
  obtain ⟨small, named, released⟩ := sound.base.called _ out
  obtain ⟨-, stamped, source, wanted, served⟩ := sound.steadfast _ out attached
  have seconds := (sound.armed attached wanted List.not_mem_nil).2.2.1
  have fewer : s.Sound below [] := sound.fewer fun call later => by rw [top]; exact List.mem_cons_of_mem _ later
  obtain ⟨popped, alone⟩ := fewer.popped top
  have heard : (returned { s with calls := below } fire promise).Sound
      (returned { s with calls := below } fire promise).calls [] := by
    cases promise with
    | true => exact popped.promised small named released alone
    | false =>
      rw [returned_kept fire false |>.1]
      exact popped.answered attached stamped wanted served seconds (List.Sublist.refl _) fun _ late _ => late
  obtain ⟨wants, schedules⟩ := @returned_wanted { s with calls := below } fire promise
  have still : (returned { s with calls := below } fire promise).Attached fire.id fire.schedule := by
    unfold Attached
    rw [schedules]
    exact attached
  rw [heard.synced still (by rw [wants]; exact wanted) List.not_mem_nil]
  exact heard.again (by rw [wants]; exact mem) (sound.rests _ _ out)

theorem Firing.armReturns {source : InventoryStatusPollSource} (firing : s.Firing fire rest below source)
    (promise : Bool) : ((returned { s with calls := below } fire promise).syncTimer fire.schedule).Sound
      ((returned { s with calls := below } fire promise).syncTimer fire.schedule).calls rest := by
  have out : Call.arm fire rest ∈ s.calls := by rw [firing.calls]; exact List.mem_cons_self ..
  obtain ⟨small, named, released⟩ := firing.sound.base.called _ out
  obtain ⟨popped, alone⟩ := firing.sound.popped firing.calls
  have wanted := firing.sound.listed source (List.mem_cons_self ..)
  rw [← firing.own] at wanted
  have ne := List.nodup_cons.mp (List.map_cons ▸ firing.sound.apart)
  have done : ∀ other, other ∉ rest.map (·.id) → other ≠ fire.id → other ∉
    (source :: rest).map (·.id) := by
    intro other late differ
    rw [List.map_cons, List.mem_cons, not_or, ← firing.own]
    exact ⟨differ, late⟩
  cases promise with
  | true =>
    have promised := popped.promised small named released alone
    have object : (returned { s with calls := below } fire true).objects fire.schedule =
        { s.objects fire.schedule with inFlight := true } := Function.update_self ..
    have shape : (returned { s with calls := below } fire true).syncTimer fire.schedule =
        ((returned { s with calls := below } fire true).touch fire.schedule
          ((returned { s with calls := below } fire true).objects fire.schedule)
          (returned { s with calls := below } fire true).log
          (returned { s with calls := below } fire true).nextTimer).syncTimer fire.schedule := by
      rw [touch, Function.update_eq_self]
    obtain ⟨timer, drawn, period, synced⟩ := @syncTimer_touch (returned { s with calls := below } fire true)
      fire.schedule ((returned { s with calls := below } fire true).objects fire.schedule)
      (returned { s with calls := below } fire true).log (returned { s with calls := below } fire true).nextTimer
      (promised.base.period fire.schedule)
    rw [shape, synced]
    refine promised.timed period firing.attached (promised.base.named _ _ firing.attached).1 rfl ?_
      (fun _ _ _ => rfl) wanted (by rw [object]; exact firing.seconds) (by rw [object]; exact firing.incarnation)
      (List.sublist_cons_self ..) done
    rw [object]
    have fresh : hasRun fire.id (s.objects fire.schedule).armedIncarnation s.log = false := by
      rw [firing.own, firing.incarnation]
      exact firing.fresh
    rw [firing.warming]
    exact ⟨by simp, fun ran => absurd (fresh.symm.trans ran) Bool.false_ne_true⟩
  | false =>
    have answered := popped.answered firing.attached (firing.incarnation.trans firing.dispatched.symm) wanted
      firing.dispatched.symm firing.seconds (List.sublist_cons_self ..) done
    obtain ⟨calls, -⟩ := @returned_kept { s with calls := below } fire false
    obtain ⟨wants, schedules⟩ := @returned_wanted { s with calls := below } fire false
    have still : (returned { s with calls := below } fire false).Attached fire.id fire.schedule := by
      unfold Attached
      rw [schedules]
      exact firing.attached
    rw [answered.synced still (by rw [wants]; exact wanted) (by rw [firing.own]; exact ne.1), calls]
    exact answered

theorem foldl_disarm (s : InventoryStatusPoll) (schedules : List Nat) :
    ∃ objects, schedules.foldl (fun s schedule => s.modify schedule SourceSchedule.disarm) s =
        { s with objects := objects } ∧
      ∀ one, objects one = if one ∈ schedules then (s.objects one).disarm else s.objects one := by
  induction schedules generalizing s with
  | nil => exact ⟨s.objects, rfl, fun _ => rfl⟩
  | cons schedule rest ih =>
    obtain ⟨objects, shape, each⟩ := ih (s.modify schedule SourceSchedule.disarm)
    refine ⟨objects, shape, fun one => ?_⟩
    have here : (s.modify schedule SourceSchedule.disarm).objects one =
        if one = schedule then (s.objects schedule).disarm else s.objects one := Function.update_apply ..
    rw [each, here]
    by_cases own : one = schedule
    · subst own
      rw [if_pos rfl, if_pos (List.mem_cons_self ..)]
      exact ite_self _
    · simp [own]

theorem Kept.base (kept : s.Kept) : s.Base := by
  obtain sound | ⟨fire, rest, below, source, firing⟩ := kept
  · exact sound.base
  · exact firing.sound.base

theorem Kept.rests (kept : s.Kept) : ∀ fire rest, .arm fire rest ∈ s.calls → (rest.map (·.id)).Nodup := by
  obtain sound | ⟨fire, rest, below, source, firing⟩ := kept
  · exact sound.rests
  · intro one others out
    rw [firing.calls] at out
    obtain here | below := List.mem_cons.mp out
    · cases here
      exact (List.nodup_cons.mp (List.map_cons ▸ firing.sound.apart)).2
    · exact firing.sound.rests one others below

theorem Kept.dispose (kept : s.Kept) : s.Stepped s.dispose := by
  unfold InventoryStatusPoll.dispose
  split
  · have base := kept.base
    obtain ⟨objects, shape, each⟩ := s.foldl_disarm s.schedules.values
    rw [shape]
    refine Calm.stepped ⟨?_, rfl⟩
    have unarmed : ∀ one, (objects one).timer = none := by
      intro one
      rw [each]
      split
      · rfl
      · rename_i absent
        by_contra armed
        exact absent (SeqMap.mem_values.mpr ⟨_, base.held one armed⟩)
    have same : ∀ one, (objects one).id = (s.objects one).id ∧
      (objects one).inFlight = (s.objects one).inFlight := by
      intro one
      rw [each]
      split <;> exact ⟨rfl, rfl⟩
    refine ⟨⟨nofun, fun one armed => absurd (unarmed one) armed, fun one timer armed => ?_,
      fun sweep fire hit => ?_, base.sweptOnce, fun call out => ?_, base.calledOnce, nofun, fun _ _ _ => nofun⟩,
      fun id _ => ?_, nofun, List.nodup_nil, fun _ _ => nofun, kept.rests, .inl rfl⟩
    · cases (unarmed one).symm.trans armed
    · rw [(same _).1, (same _).2]
      exact base.swept sweep fire hit
    · rw [(same _).1, (same _).2]
      exact base.called call out
    · have unwanted : (s.view && !true) = false := Bool.and_false _
      unfold Right wanted
      rw [unwanted, if_neg Bool.false_ne_true]
      exact nofun
  · exact ⟨kept, fun counted => absurd rfl counted⟩

theorem Sound.rewanted (sound : s.Sound calls todo)
    (shape : next = { s with view := next.view, sources := next.sources })
    (same : ∀ id, next.wanted.get? id = s.wanted.get? id) (seen : s.disposed = true ∨ s.visible = next.view) :
    next.Sound calls todo := by
  have right : ∀ id, next.Right id ↔ s.Right id := by
    intro id
    unfold Right
    rw [same, shape]
    rfl
  have steadfast : ∀ fire, s.Steadfast fire → next.Steadfast fire := by
    intro fire firm
    unfold Steadfast at firm ⊢
    rw [same, shape]
    exact firm
  have listed : ∀ source ∈ todo, next.wanted.get? source.id = some source := by
    intro source mem
    rw [same]
    exact sound.listed source mem
  refine ⟨?_, fun id late => (right id).mpr (sound.right id late), listed, sound.apart,
    fun call out => steadfast _ (sound.steadfast call out), sound.rests, ?_⟩
  · rw [shape]
    exact { sound.base with }
  · rw [shape]
    exact seen

theorem Kept.rewanted (kept : s.Kept) (shape : next = { s with view := next.view, sources := next.sources })
    (same : ∀ id, next.wanted.get? id = s.wanted.get? id) (seen : s.disposed = true ∨ s.visible = next.view) :
    next.Kept := by
  obtain sound | ⟨fire, rest, below, source, firing⟩ := kept
  · refine .inl ?_
    have calls : next.calls = s.calls := by rw [shape]
    rw [calls]
    exact sound.rewanted shape same seen
  · refine .inr ⟨fire, rest, below, source, ?_⟩
    have sound := firing.sound.rewanted shape same seen
    rw [shape] at sound ⊢
    exact { firing with sound := sound }

def isAttached (s : InventoryStatusPoll) (fire : Fire) : Bool :=
  decide (s.schedules.get? fire.id = some fire.schedule)

/-- A re-evaluation would fire once more through the schedule of a fire that is out. -/
def refires (s : InventoryStatusPoll) : Bool :=
  s.calls.any fun call =>
    s.isAttached call.fire &&
      match s.wanted.get? call.fire.id with
      | none => false
      | some source => s.freshArming call.fire.schedule source

theorem Kept.ready (kept : s.Kept) (awake : s.disposed = false)
    (shape : next = { s with view := next.view, visible := next.visible, sources := next.sources })
    (seen : next.visible = next.view) (quiet : next.refires = false) : next.Ready := by
  have base := kept.base
  have stamped : ∀ call ∈ s.calls, s.Attached call.fire.id call.fire.schedule →
      (s.objects call.fire.schedule).armedIncarnation = call.fire.dispatchedFor := by
    intro call out attached
    obtain sound | ⟨fire, rest, below, source, firing⟩ := kept
    · exact (sound.steadfast call out attached).2.1
    · rw [firing.calls] at out
      obtain rfl | later := List.mem_cons.mp out
      · exact firing.incarnation.trans firing.dispatched.symm
      · exact (firing.sound.steadfast call later attached).2.1
  have armed : ∀ call ∈ s.calls, s.Attached call.fire.id call.fire.schedule → ∀ source,
      next.wanted.get? call.fire.id = some source → s.freshArming call.fire.schedule source = false := by
    intro call out attached source wanted
    rw [refires, List.any_eq_false] at quiet
    have still : next.isAttached call.fire = true := by
      rw [shape]
      exact decide_eq_true attached
    have calm := quiet call (by rw [shape]; exact out)
    rw [still, Bool.true_and, wanted] at calm
    rw [shape] at calm
    exact Bool.eq_false_iff.mpr calm
  have rests := kept.rests
  refine ⟨?_, ?_, seen, ?_, ?_⟩
  · rw [shape]
    exact { base with }
  · rw [shape]
    exact awake
  · intro call out attached
    have pre : s.Attached call.fire.id call.fire.schedule := by
      rw [shape] at attached
      exact attached
    have mem : call ∈ s.calls := by
      rw [shape] at out
      exact out
    have objects : next.objects = s.objects := by rw [shape]
    rw [objects]
    refine ⟨stamped call mem pre, fun source wanted => ?_⟩
    have stays := armed call mem pre source wanted
    rw [freshArming, Bool.or_eq_false_iff, Option.isNone_eq_false_iff, Option.isSome_iff_ne_none,
      decide_eq_false_iff_not, not_not] at stays
    exact ⟨stays.1, stays.2.symm.trans (stamped call mem pre)⟩
  · rw [shape]
    exact rests

def sameWants (one other : SeqMap String InventoryStatusPollSource) : Bool :=
  (one.keys ++ other.keys).all fun id => decide (one.get? id = other.get? id)

theorem sameWants_get? {one other : SeqMap String InventoryStatusPollSource}
    (same : sameWants one other = true) (id : String) : one.get? id = other.get? id := by
  rw [sameWants, List.all_eq_true] at same
  by_cases known : id ∈ one.keys ++ other.keys
  · exact of_decide_eq_true (same id known)
  · rw [List.mem_append, not_or, SeqMap.mem_keys, SeqMap.mem_keys, Bool.not_eq_true, Bool.not_eq_true,
      Option.isSome_eq_false_iff, Option.isSome_eq_false_iff, Option.isNone_iff_eq_none,
      Option.isNone_iff_eq_none] at known
    rw [known.1, known.2]

def slips (s : InventoryStatusPoll) : Act → Bool
  | .view visible =>
    !s.disposed &&
      if s.subscribed then refires { s with view := visible, visible := visible }
      else decide (visible ≠ s.view)
  | .sources sources =>
    !s.disposed &&
      if s.subscribed then refires { s with sources := sources }
      else !sameWants (wanted { s with sources := sources }) s.wanted
  | .fireReturns promise =>
    match s.calls with
    | [] => false
    | .timer fire :: _ => !promise && !s.isAttached fire
    | .arm fire rest :: _ =>
      !s.isAttached fire || rest.any fun source => decide (s.wanted.get? source.id ≠ some source)
  | .settle sweep outcome =>
    s.calls.isEmpty && decide (outcome ≠ .declined) &&
      match s.sweeps.get? sweep with
      | none => false
      | some fire => s.passesBy fire
  | .tick _ | .dispose => false

theorem wanted_disposed (ended : s.disposed = true) : s.wanted = .empty := by
  rw [wanted, ended, Bool.not_true, Bool.and_false, if_neg Bool.false_ne_true]

theorem Kept.unheard (kept : s.Kept) (shape : next = { s with view := next.view, sources := next.sources })
    (same : ∀ id, next.wanted.get? id = s.wanted.get? id) (seen : s.disposed = true ∨ s.visible = next.view) :
    s.Stepped next := by
  refine ⟨kept.rewanted shape same seen, fun counted => absurd ?_ counted⟩
  rw [shape]

theorem Kept.seen (kept : s.Kept) : s.disposed = true ∨ s.visible = s.view := by
  obtain sound | ⟨fire, rest, below, source, firing⟩ := kept
  · exact sound.seen
  · exact firing.sound.seen

theorem Kept.changeView (kept : s.Kept) {visible : Bool} (calm : s.slips (.view visible) = false) :
    s.Stepped (s.changeView visible) := by
  unfold InventoryStatusPoll.changeView
  unfold slips at calm
  rw [Bool.and_eq_false_iff, Bool.not_eq_false'] at calm
  split
  · rename_i heard
    rw [Bool.and_eq_true, Bool.not_eq_true'] at heard
    have quiet := calm.resolve_left (by rw [heard.2]; exact Bool.false_ne_true)
    rw [if_pos heard.1] at quiet
    have ready : Ready { s with view := visible, visible := visible } := kept.ready heard.2 rfl rfl quiet
    exact ready.reevaluate.stepped
  · rename_i unheard
    by_cases ended : s.disposed = true
    · refine kept.unheard rfl (fun id => ?_) (.inl ended)
      have still : wanted { s with view := visible } = .empty := wanted_disposed ended
      rw [still, wanted_disposed ended]
    · have quiet := calm.resolve_left ended
      rw [if_neg fun subscribed => unheard (by simp [subscribed, ended]), decide_eq_false_iff_not, not_not] at quiet
      subst quiet
      exact kept.unheard rfl (fun _ => rfl) kept.seen

variable {sources : List InventoryStatusPollSource}

theorem Kept.changeSources (kept : s.Kept) (calm : s.slips (.sources sources) = false) :
    s.Stepped (s.changeSources sources) := by
  unfold InventoryStatusPoll.changeSources
  unfold slips at calm
  rw [Bool.and_eq_false_iff, Bool.not_eq_false'] at calm
  split
  · rename_i heard
    rw [Bool.and_eq_true, Bool.not_eq_true'] at heard
    have awake : ¬ s.disposed = true := by rw [heard.2]; exact Bool.false_ne_true
    have quiet := calm.resolve_left awake
    rw [if_pos heard.1] at quiet
    have ready : Ready { s with sources := sources } := kept.ready heard.2 rfl (kept.seen.resolve_left awake) quiet
    exact ready.reevaluate.stepped
  · rename_i unheard
    by_cases ended : s.disposed = true
    · refine kept.unheard rfl (fun id => ?_) (.inl ended)
      have still : wanted { s with sources := sources } = .empty := wanted_disposed ended
      rw [still, wanted_disposed ended]
    · have quiet := calm.resolve_left ended
      rw [if_neg fun subscribed => unheard (by simp [subscribed, ended]), Bool.not_eq_false'] at quiet
      exact kept.unheard rfl (sameWants_get? quiet) kept.seen

theorem Kept.fireReturns (kept : s.Kept) (calm : s.slips (.fireReturns promise) = false) :
    s.Stepped (s.fireReturns promise) := by
  unfold InventoryStatusPoll.fireReturns
  simp only [slips] at calm
  split
  · exact ⟨kept, fun counted => absurd rfl counted⟩
  · rename_i fire below top
    rw [top] at calm
    have sound : s.Sound s.calls [] := by
      obtain sound | ⟨other, rest, under, source, firing⟩ := kept
      · exact sound
      · rw [firing.calls] at top
        cases top
    refine Stepped.subscribe (Calm.stepped (sound.timerReturns top fun sync => ?_))
    subst sync
    simpa [isAttached, Attached] using calm
  · rename_i fire rest below top
    rw [top] at calm
    rw [Bool.or_eq_false_iff, Bool.not_eq_false', isAttached, decide_eq_true_eq, List.any_eq_false] at calm
    have listed : ∀ source ∈ rest, s.wanted.get? source.id = some source := by
      intro source mem
      have agrees := calm.2 source mem
      rwa [decide_eq_true_eq, not_not] at agrees
    refine Stepped.subscribe ?_
    have resumed : ∀ m : InventoryStatusPoll, m.Sound m.calls rest → m.reevaluations = s.reevaluations →
        s.Stepped (arm rest m) := by
      intro m sound count
      refine Resumed.stepped ?_
      have goes := sound.arm
      unfold Resumed at goes ⊢
      rwa [count] at goes
    refine resumed _ ?_ ?_
    · obtain sound | ⟨other, others, under, source, firing⟩ := kept
      · exact sound.armReturns top calm.1 listed
      · have same := firing.calls
        rw [top] at same
        cases same
        exact firing.armReturns promise
    · rw [(syncTimer_kept _).2]
      exact (returned_kept fire promise).2

theorem Kept.step (kept : s.Kept) {act : Act} (calm : s.slips act = false) : s.Stepped (s.step act) := by
  cases act with
  | view visible => exact kept.changeView calm
  | sources sources => exact kept.changeSources calm
  | tick schedule =>
    simp only [InventoryStatusPoll.step]
    obtain sound | ⟨fire, rest, below, source, firing⟩ := kept
    · refine Calm.stepped ⟨sound.tick schedule, ?_⟩
      unfold InventoryStatusPoll.tick
      split <;> rfl
    · have busy : s.tick schedule = s := by
        unfold InventoryStatusPoll.tick
        rw [firing.calls]
        rfl
      rw [busy]
      exact ⟨.inr ⟨fire, rest, below, source, firing⟩, fun counted => absurd rfl counted⟩
  | fireReturns promise => exact kept.fireReturns calm
  | settle sweep outcome =>
    simp only [InventoryStatusPoll.step]
    obtain sound | ⟨fire, rest, below, source, firing⟩ := kept
    · refine Calm.stepped (sound.settle fun fire idle hit ran => ?_)
      simpa [slips, idle, hit, ran] using calm
    · have busy : s.settle sweep outcome = s := by
        unfold InventoryStatusPoll.settle
        rw [firing.calls]
        rfl
      rw [busy]
      exact ⟨.inr ⟨fire, rest, below, source, firing⟩, fun counted => absurd rfl counted⟩
  | dispose => exact kept.dispose

theorem Stepped.start (view : Bool) (sources : List InventoryStatusPollSource) :
    Stepped { view := view, sources := sources, visible := view } (start view sources) := by
  have ready : Ready { view := view, sources := sources, visible := view } :=
    ⟨⟨nofun, fun _ armed => absurd rfl armed, nofun, nofun, nofun, nofun, List.nodup_nil, nofun, nofun⟩, rfl, rfl,
      nofun, nofun⟩
  exact Stepped.subscribe ready.reevaluate.stepped

def Live (s : InventoryStatusPoll) (schedule : Nat) (id : String) (timer : Timer) : Prop :=
  (s.objects schedule).id = id ∧ (s.objects schedule).timer = some timer

/-- The schedules of the fires that are out: called and not returned, or promised and not
settled. -/
def outstanding (s : InventoryStatusPoll) : List Nat :=
  s.calls.map (fun call => call.fire.schedule) ++ s.sweeps.values.map Fire.schedule

/-- One live timer for each source that is wanted, at the source's own interval once a
fire has run for it, and at no more than the warm delay until then. -/
structure Timed (s : InventoryStatusPoll) : Prop where
  wanted : ∀ id source, s.wanted.get? id = some source → ∃ schedule timer, s.Live schedule id timer ∧
    (∀ other another, s.Live other id another → other = schedule) ∧
    timer.period = if hasRun id source.incarnation s.log then source.seconds
      else min (s.objects schedule).warmDelaySeconds source.seconds
  others : ∀ schedule id timer, s.Live schedule id timer → (s.wanted.get? id).isSome

variable {schedule : Nat}

theorem Base.live (base : s.Base) {id : String} {timer : Timer} (live : s.Live schedule id timer) :
    s.Attached id schedule := by
  have held := base.held schedule (by rw [live.2]; exact nofun)
  rwa [live.1] at held

theorem Sound.timers (sound : s.Sound s.calls []) : s.Timed := by
  have base := sound.base
  refine ⟨fun id source wanted => ?_, fun schedule id timer live => ?_⟩
  · have right := sound.right id List.not_mem_nil
    unfold Right at right
    rw [wanted] at right
    obtain ⟨schedule, attached, armed, period, seconds, served⟩ := right
    obtain ⟨timer, set⟩ := Option.ne_none_iff_exists'.mp armed
    refine ⟨schedule, timer, ⟨(base.named id schedule attached).1, set⟩, fun other another live =>
      Option.mem_unique (base.live live) attached, ?_⟩
    have ran := base.ran id schedule attached armed
    rw [base.period schedule timer set, period, ← seconds, ← served]
    unfold SourceSchedule.effectivePeriodSeconds
    cases state : (s.objects schedule).state with
    | steady => rw [if_pos (ran.mp state)]
    | warming =>
      rw [if_neg]
      exact fun has => nomatch state.symm.trans (ran.mpr has)
  · obtain ⟨source, wanted⟩ := sound.wanted_of_armed (base.live live) (by rw [live.2]; exact nofun)
    rw [wanted]
    rfl

theorem Kept.outstanding (kept : s.Kept) : s.outstanding.Nodup := by
  have base := kept.base
  rw [InventoryStatusPoll.outstanding, List.nodup_append]
  refine ⟨base.calledOnce, ?_, ?_⟩
  · rw [SeqMap.values, List.map_map]
    refine (List.nodup_map_iff_inj_on (List.Nodup.of_map _ s.sweeps.distinct)).mpr ?_
    rintro ⟨one, fire⟩ atOne ⟨other, another⟩ atOther same
    have first := SeqMap.mem_entries.mp atOne
    have second := SeqMap.mem_entries.mp atOther
    obtain rfl := base.sweptOnce one other fire another first second same
    cases first.symm.trans second
    rfl
  · intro schedule called other swept same
    subst same
    obtain ⟨call, out, rfl⟩ := List.mem_map.mp called
    obtain ⟨fire, held, own⟩ := List.mem_map.mp swept
    obtain ⟨sweep, hit⟩ := SeqMap.mem_values.mp held
    have latch := (base.swept sweep fire hit).2.2.2
    rw [own, (base.called call out).2.2] at latch
    cases latch

theorem Kept.live (kept : s.Kept) {id : String} {timer : Timer} (live : s.Live schedule id timer) :
    (s.wanted.get? id).isSome := by
  obtain sound | ⟨fire, rest, below, source, firing⟩ := kept
  · exact sound.timers.others schedule id timer live
  · by_cases listed : id ∈ (source :: rest).map (·.id)
    · obtain ⟨one, mem, own⟩ := List.mem_map.mp listed
      have wanted := firing.sound.listed one mem
      rw [own] at wanted
      rw [wanted]
      rfl
    · have right := firing.sound.right id listed
      unfold Right at right
      cases wanted : s.wanted.get? id with
      | some source => rfl
      | none =>
        rw [wanted] at right
        have armed := right schedule (firing.sound.base.live live)
        rw [live.2] at armed
        cases armed

theorem Kept.timed (kept : s.Kept) (between : ∀ fire rest below, s.calls ≠ .arm fire rest :: below) : s.Timed := by
  obtain sound | ⟨fire, rest, below, source, firing⟩ := kept
  · exact sound.timers
  · exact absurd firing.calls (between fire rest below)

def Keeps (view : Bool) (sources : List InventoryStatusPollSource) (acts : List Act) : Prop :=
  ∀ before act after, acts = before ++ act :: after → (run view sources before).slips act = false

theorem run_append (view : Bool) (sources : List InventoryStatusPollSource) (acts : List Act) (act : Act) :
    run view sources (acts ++ [act]) = (run view sources acts).step act := by
  rw [run, run, List.foldl_append, List.foldl_cons, List.foldl_nil]

theorem Keeps.kept {view : Bool} {sources : List InventoryStatusPollSource} {acts : List Act}
    (keeps : Keeps view sources acts) : (run view sources acts).Kept := by
  induction acts using List.reverseRecOn with
  | nil => exact (Stepped.start view sources).1
  | append_singleton acts act ih =>
    rw [run_append]
    refine ((ih fun pre other after split => ?_).step (keeps acts act [] rfl)).1
    exact keeps pre other (after ++ [act]) (by rw [split, List.append_assoc, List.cons_append])

theorem Keeps.take {view : Bool} {before after : List Act} (keeps : Keeps view sources (before ++ after)) :
    Keeps view sources before :=
  fun first act last split => keeps first act (last ++ after) (by rw [split, List.append_assoc, List.cons_append])

theorem objects_modify_of_ne {one other : Nat} (differ : one ≠ other) (change : SourceSchedule → SourceSchedule) :
    (s.modify other change).objects one = s.objects one := Function.update_of_ne differ ..

theorem objects_syncTimer_of_ne {one other : Nat} (differ : one ≠ other) :
    (s.syncTimer other).objects one = s.objects one := by
  unfold syncTimer
  dsimp only
  split
  · rfl
  · exact Function.update_of_ne differ ..

theorem objects_concluded_of_ne {one : Nat} (differ : one ≠ fire.schedule) (outcome : Outcome) :
    (s.concluded fire outcome).objects one = s.objects one := by
  unfold concluded
  dsimp only
  split
  · rfl
  · split
    · split
      · rw [objects_syncTimer_of_ne differ, objects_modify_of_ne differ]
      · rfl
    · split
      · split
        · rw [objects_syncTimer_of_ne differ, objects_modify_of_ne differ]
        · rw [objects_syncTimer_of_ne differ]
      · rfl

theorem keeps_of_each {view : Bool} {acts : List Act}
    (each : ∀ k : Fin acts.length, (run view sources (acts.take k)).slips (acts.get k) = false) :
    Keeps view sources acts := by
  intro pre act after split
  subst split
  have here := each ⟨pre.length, by simp⟩
  simpa using here

/-- A decline of an earlier arming leaves the current one its delay and its timer. -/
theorem settle_declined_earlier (s : InventoryStatusPoll) {sweep : Nat} {fire : Fire}
    (hit : s.sweeps.get? sweep = some fire)
    (earlier : schedule ≠ fire.schedule ∨ (s.objects schedule).armingSerial ≠ fire.dispatchedUnderArming) :
    ((s.settle sweep .declined).objects schedule).warmDelaySeconds = (s.objects schedule).warmDelaySeconds ∧
      ((s.settle sweep .declined).objects schedule).timer = (s.objects schedule).timer := by
  unfold settle
  split
  · simp only [hit, if_true]
    generalize popped : ({ s with sweeps := s.sweeps.erase sweep, log := s.log } : InventoryStatusPoll) = next
    have objects : next.objects = s.objects := by rw [← popped]
    rw [← objects] at earlier ⊢
    unfold release
    dsimp only
    by_cases own : schedule = fire.schedule
    · subst own
      have later := earlier.resolve_left fun differ => differ rfl
      have opened : (next.modify fire.schedule fun schedule => { schedule with inFlight := false }).objects
          fire.schedule = { next.objects fire.schedule with inFlight := false } := Function.update_self ..
      split
      · unfold concluded
        dsimp only
        rw [opened]
        split
        · rw [opened]
          exact ⟨rfl, rfl⟩
        · rw [if_neg (fun ran => ran rfl), if_neg fun same => later same.1, opened]
          exact ⟨rfl, rfl⟩
      · rw [opened]
        exact ⟨rfl, rfl⟩
    · split
      · rw [objects_concluded_of_ne own, objects_modify_of_ne own]
        exact ⟨rfl, rfl⟩
      · rw [objects_modify_of_ne own]
        exact ⟨rfl, rfl⟩
  · exact ⟨rfl, rfl⟩

end InventoryStatusPoll

open InventoryStatusPoll

/-- In every run that does not slip, fires go through their own schedules, the timers are those that the view and the
list of sources want whenever no re-evaluation is under way, and an earlier decline touches nothing. -/
theorem status_polled {view : Bool} {sources : List InventoryStatusPollSource} {acts : List Act}
    (keeps : Keeps view sources acts) {before after : List Act} (split : acts = before ++ after) :
    (run view sources before).outstanding.Nodup ∧
      ((∀ fire rest below, (run view sources before).calls ≠ .arm fire rest :: below) →
        (run view sources before).Timed) ∧
      (∀ schedule id timer, (run view sources before).Live schedule id timer →
        ((run view sources before).wanted.get? id).isSome) ∧
      (before = [] → (start view sources).reevaluations ≠ 0 → (start view sources).Timed) ∧
      (∀ act rest, after = act :: rest →
        (run view sources (before ++ [act])).reevaluations ≠ (run view sources before).reevaluations →
        (run view sources (before ++ [act])).Timed) ∧
      ∀ sweep fire schedule, (run view sources before).sweeps.get? sweep = some fire →
        schedule ≠ fire.schedule ∨
          ((run view sources before).objects schedule).armingSerial ≠ fire.dispatchedUnderArming →
        (((run view sources before).settle sweep .declined).objects schedule).warmDelaySeconds =
            ((run view sources before).objects schedule).warmDelaySeconds ∧
          (((run view sources before).settle sweep .declined).objects schedule).timer =
            ((run view sources before).objects schedule).timer := by
  subst split
  have kept := keeps.take.kept
  refine ⟨kept.outstanding, kept.timed, fun _ _ _ live => kept.live live, fun _ counted => ?_,
    fun act rest next counted => ?_, fun _ _ _ found earlier => settle_declined_earlier _ found earlier⟩
  · exact ((Stepped.start view sources).2 counted).timers
  · subst next
    rw [run_append] at counted ⊢
    exact ((kept.step (keeps before act rest rfl)).2 counted).timers

def lab : InventoryStatusPollSource := ⟨"lab", some 30, some "r1"⟩

def rack : InventoryStatusPollSource := ⟨"rack", some 60, some "r1"⟩

def addedInFire : List Act :=
  [.fireReturns true, .settle 0 .ran, .tick 0, .sources [lab, rack], .fireReturns true, .fireReturns true,
    .settle 1 .declined, .settle 2 .rejected]

theorem status_polled_added :
    (run true [lab] addedInFire).outstanding.Nodup ∧ (run true [lab] addedInFire).Timed := by
  have keeps : Keeps true [lab] addedInFire := keeps_of_each (by decide)
  have polled := status_polled keeps (List.append_nil addedInFire).symm
  have idle : (run true [lab] addedInFire).calls = [] := by decide
  refine ⟨polled.1, polled.2.1 fun fire rest below out => ?_⟩
  rw [idle] at out
  cases out

/-- Changed from inside the first fire of an arming, the list fires the source again, or leaves a timer behind. -/
theorem poll_slips :
    ¬ (run false [lab] [.view true, .sources [lab, rack]]).outstanding.Nodup ∧
      (run false [lab] [.view true, .sources [], .fireReturns true]).Live 0 "lab" ⟨0, 5⟩ ∧
      (run false [lab] [.view true, .sources [], .fireReturns true]).wanted.get? "lab" = none ∧
      (run false [lab] [.view true, .dispose, .fireReturns true]).Live 0 "lab" ⟨0, 5⟩ ∧
      (run false [lab] [.view true, .dispose, .fireReturns true]).disposed = true := by
  refine ⟨?_, ⟨?_, ?_⟩, ?_, ⟨?_, ?_⟩, ?_⟩ <;> decide

end NexTerminal.Polling
